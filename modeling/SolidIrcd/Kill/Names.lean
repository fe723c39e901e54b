import SolidIrcd.Kill.View

/-! The tables of the users, and what every change of a table keeps. -/

namespace SolidIrcd.Kill

open Scan (Text)
open Whowas (ClientId)

variable {home : ClientId → Side} {server : Server} {side : Side} {cptr sptr : Client}

/-! The table -/

theorem Name.same_comm (first second : Name) : first.same second = second.same first := mycmp_comm _ _

theorem findClient_some (found : server.findClient nick = some cptr) :
    cptr ∈ server.clients ∧ cptr.name.same nick = true :=
  ⟨List.mem_of_find?_eq_some found, by simpa using List.find?_some found⟩

theorem findClient_none (none : server.findClient nick = none) (member : cptr ∈ server.clients) :
    cptr.name.same nick = false := by
  have absent := List.find?_eq_none.mp none cptr member
  simpa using absent

/-- A user is in the table once. -/
def Server.Unique (server : Server) : Prop := (server.clients.map Client.user).Nodup

theorem Server.Unique.eq (unique : server.Unique) (first : cptr ∈ server.clients) (second : acptr ∈ server.clients)
    (same : cptr.user = acptr.user) : cptr = acptr :=
  List.inj_on_of_nodup_map unique first second same

theorem Server.Unique.find (unique : server.Unique) (member : cptr ∈ server.clients) :
    server.clients.find? (·.user = cptr.user) = some cptr := by
  cases found : server.clients.find? (·.user = cptr.user) with
  | none =>
    have absent := List.find?_eq_none.mp found cptr member
    simp at absent
  | some acptr =>
    have same : acptr.user = cptr.user := by simpa using List.find?_some found
    rw [unique.eq (List.mem_of_find?_eq_some found) member same]

theorem nameOf_some (unique : server.Unique) (member : cptr ∈ server.clients) :
    server.nameOf cptr.user = some cptr.name := by
  rw [Server.nameOf, unique.find member]
  rfl

theorem exists_of_nameOf (is : server.nameOf user = some name) :
    ∃ cptr ∈ server.clients, cptr.user = user ∧ cptr.name = name := by
  obtain ⟨cptr, found, named⟩ := Option.map_eq_some_iff.mp is
  exact ⟨cptr, List.mem_of_find?_eq_some found, by simpa using List.find?_some found, named⟩

theorem nameOf_none : server.nameOf user = none ↔ ∀ cptr ∈ server.clients, cptr.user ≠ user := by
  rw [Server.nameOf, Option.map_eq_none_iff, List.find?_eq_none]
  simp

theorem nameOf_exitClient (server : Server) (cptr : Client) (user : ClientId) :
    (server.exitClient cptr).nameOf user = if user = cptr.user then none else server.nameOf user := by
  split
  · rename_i same
    apply nameOf_none.mpr
    rintro acptr member rfl
    have differ := (List.mem_filter.mp member).2
    simp [same] at differ
  · rename_i differ
    unfold Server.nameOf Server.exitClient
    rw [List.find?_filter]
    congr 2
    funext acptr
    by_cases same : acptr.user = user
    · simp [same, differ]
    · simp [same]

theorem nameOf_rename (server : Server) (sptr : Client) (nick : Name) (tsinfo : Int) (user : ClientId) :
    (server.rename sptr nick tsinfo).nameOf user =
      if user = sptr.user then (server.nameOf user).map fun _ => nick else server.nameOf user := by
  unfold Server.nameOf Server.rename
  rw [List.find?_map]
  have users : ((fun acptr : Client => decide (acptr.user = user)) ∘ fun cptr =>
      if cptr.user = sptr.user then { cptr with name := nick, tsinfo := tsinfo } else cptr) =
      fun acptr => decide (acptr.user = user) := by
    funext acptr
    simp only [Function.comp_apply]
    split <;> rfl
  rw [users]
  cases found : server.clients.find? fun acptr => decide (acptr.user = user) with
  | none => simp
  | some acptr =>
    have same : acptr.user = user := by simpa using List.find?_some found
    simp only [Option.map_some, same]
    split <;> rfl

theorem nameOf_introduce (server : Server) (user : ClientId) (nick : Name) (newts : Int) (username host : Text)
    (subject : ClientId) :
    (server.introduce user nick newts username host).nameOf subject =
      if subject = user then some nick else server.nameOf subject := by
  unfold Server.nameOf Server.introduce
  rw [List.find?_cons]
  by_cases same : user = subject
  · simp [same]
  · simp [same, Ne.symm same]

/-- A user is in the table once, a nickname too, and the table says which users are connected to the server. -/
structure Server.Sound (server : Server) (home : ClientId → Side) (side : Side) : Prop where
  unique : server.Unique
  distinct : ∀ cptr ∈ server.clients, ∀ acptr ∈ server.clients, cptr.name.same acptr.name = true → cptr.user = acptr.user
  homes : ∀ cptr ∈ server.clients, (cptr.myConnect = true ↔ home cptr.user = side)

namespace Server.Sound

theorem found (sound : server.Sound home side) (member : cptr ∈ server.clients) :
    server.findClient cptr.name = some cptr := by
  cases found : server.findClient cptr.name with
  | none =>
    have absent := findClient_none found member
    rw [Name.same, mycmp_refl] at absent
    cases absent
  | some acptr =>
    obtain ⟨inside, same⟩ := findClient_some found
    rw [sound.unique.eq inside member (sound.distinct acptr inside cptr member same)]

theorem exit (sound : server.Sound home side) (cptr : Client) : (server.exitClient cptr).Sound home side where
  unique := (List.filter_sublist.map Client.user).nodup sound.unique
  distinct first one second two := sound.distinct first (List.mem_filter.mp one).1 second (List.mem_filter.mp two).1
  homes acptr member := sound.homes acptr (List.mem_filter.mp member).1

/-- A user takes a nickname that nobody else has. -/
theorem rename (sound : server.Sound home side) (tsinfo : Int)
    (free : ∀ acptr, server.findClient nick = some acptr → acptr.user = sptr.user) :
    (server.rename sptr nick tsinfo).Sound home side where
  unique := by
    have users : (server.rename sptr nick tsinfo).clients.map Client.user = server.clients.map Client.user := by
      simp only [Server.rename, List.map_map]
      apply List.map_congr_left
      intro cptr _
      simp only [Function.comp_apply]
      split <;> rfl
    rw [Server.Unique, users]
    exact sound.unique
  distinct := by
    have holder (cptr : Client) (member : cptr ∈ server.clients) (same : cptr.name.same nick = true) :
        cptr.user = sptr.user := by
      cases found : server.findClient nick with
      | none =>
        rw [findClient_none found member] at same
        cases same
      | some acptr =>
        obtain ⟨inside, same'⟩ := findClient_some found
        rw [← free acptr found]
        exact sound.distinct cptr member acptr inside (mycmp_trans same (by rw [mycmp_comm]; exact same'))
    intro cptr one acptr two same
    obtain ⟨first, before, rfl⟩ := List.mem_map.mp one
    obtain ⟨second, before', rfl⟩ := List.mem_map.mp two
    by_cases here : first.user = sptr.user
    · by_cases here' : second.user = sptr.user
      · rw [if_pos here, if_pos here']
        exact here.trans here'.symm
      · rw [if_pos here, if_neg here', Name.same_comm] at same
        exact absurd (holder second before' same) here'
    · by_cases here' : second.user = sptr.user
      · rw [if_neg here, if_pos here'] at same
        exact absurd (holder first before same) here
      · rw [if_neg here, if_neg here'] at same ⊢
        exact sound.distinct first before second before' same
  homes := by
    intro acptr member
    obtain ⟨cptr, before, rfl⟩ := List.mem_map.mp member
    split
    · exact sound.homes cptr before
    · exact sound.homes cptr before

/-- Another user with a nickname that nobody has. -/
theorem add (sound : server.Sound home side) (absent : ∀ acptr ∈ server.clients, acptr.user ≠ cptr.user)
    (free : server.findClient cptr.name = none) (here : cptr.myConnect = true ↔ home cptr.user = side) :
    ({ server with clients := cptr :: server.clients } : Server).Sound home side where
  unique := by
    refine List.nodup_cons.mpr ⟨fun member => ?_, sound.unique⟩
    obtain ⟨acptr, inside, same⟩ := List.mem_map.mp member
    exact absent acptr inside same
  distinct := by
    intro first one second two same
    rcases List.mem_cons.mp one with rfl | before
    · rcases List.mem_cons.mp two with rfl | before'
      · rfl
      · rw [Name.same_comm, findClient_none free before'] at same
        cases same
    · rcases List.mem_cons.mp two with rfl | before'
      · rw [findClient_none free before] at same
        cases same
      · exact sound.distinct first before second before' same
  homes acptr member := by
    rcases List.mem_cons.mp member with rfl | before
    · exact here
    · exact sound.homes acptr before

end Server.Sound

theorem mem_named (member : cptr ∈ server.clients) : (cptr.name, cptr.user) ∈ server.named :=
  List.mem_map_of_mem member

theorem getHistory_mem (found : server.getHistory nick = some cptr) : cptr ∈ server.clients := by
  obtain ⟨user, _, is⟩ := Option.bind_eq_some_iff.mp found
  exact List.mem_of_find?_eq_some is

end SolidIrcd.Kill
