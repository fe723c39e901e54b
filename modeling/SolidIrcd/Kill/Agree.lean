import SolidIrcd.Kill.Names

/-! What holds of both servers and of what is on its way, and what the local users do to it. -/

namespace SolidIrcd.Kill

open Scan (Text)
open Whowas (ClientId)

variable {home : ClientId → Side} {world : World} {side : Side} {line : Line} {rest : List Line}

@[simp] theorem Side.other_ne (side : Side) : side.other ≠ side := by cases side <;> decide

@[simp] theorem Side.other_other (side : Side) : side.other.other = side := by cases side <;> rfl

theorem Side.eq_or_other (first second : Side) : first = second ∨ first = second.other := by
  cases first <;> cases second <;> decide

/-- Who sends a line is connected where it comes from; whom an operator kills is connected where it goes. -/
def Line.Proper (home : ClientId → Side) (side : Side) : Line → Prop
  | .nick user _ _ _ _ | .change _ user _ _ | .quit _ user => home user = side.other
  | .kill sender _ victim => ∀ name user, sender = some (name, user) → home user = side.other ∧ home victim = side

structure Sane (home : ClientId → Side) (world : World) : Prop where
  sound : ∀ side, (world.servers side).Sound home side
  proper : ∀ side, ∀ line ∈ world.inbox side, line.Proper home side
  good : ∀ user, (world.view home user).Good

/-! One server goes on -/

/-- A line has been taken from the inbox. -/
def World.popped (world : World) (side : Side) (rest : List Line) : World :=
  { world with inbox := Function.update world.inbox side rest }

/-- A server goes on, with what is left for it to read. -/
def World.step (world : World) (side : Side) (rest : List Line) (result : Server × List Line) : World :=
  (world.popped side rest).put side result

theorem put_eq_step (world : World) (side : Side) (result : Server × List Line) :
    world.put side result = world.step side (world.inbox side) result := by
  rw [World.step, World.popped, Function.update_eq_self]

variable {result : Server × List Line}

@[simp] theorem step_server : (world.step side rest result).servers side = result.1 := by simp [World.step, World.put]

@[simp] theorem step_other_server : (world.step side rest result).servers side.other = world.servers side.other := by
  simp [World.step, World.put, World.popped]

@[simp] theorem step_inbox : (world.step side rest result).inbox side = rest := by
  simp [World.step, World.put, World.popped, (Side.other_ne side).symm]

@[simp] theorem step_other_inbox :
    (world.step side rest result).inbox side.other = world.inbox side.other ++ result.2 := by
  simp [World.step, World.put, World.popped]

theorem view_home (here : home user = side) :
    (world.put side result).view home user =
      ⟨result.1.nameOf user, (world.view home user).other,
        (world.view home user).sent ++ result.2.filterMap (Line.item user), (world.view home user).killed⟩ := by
  subst here
  simp [World.view, World.put, (Side.other_ne _).symm]

theorem view_other (there : home user = side.other) :
    (world.put side result).view home user =
      ⟨(world.view home user).own, result.1.nameOf user, (world.view home user).sent,
        (world.view home user).killed || result.2.any (Line.kills user)⟩ := by
  simp [World.view, World.put, there, (Side.other_ne _).symm]

theorem popped_home (here : home user = side) :
    (world.popped side rest).view home user =
      ⟨(world.view home user).own, (world.view home user).other, (world.view home user).sent,
        rest.any (Line.kills user)⟩ := by
  subst here
  simp [World.view, World.popped]

theorem popped_other (there : home user = side.other) :
    (world.popped side rest).view home user =
      ⟨(world.view home user).own, (world.view home user).other, rest.filterMap (Line.item user),
        (world.view home user).killed⟩ := by
  simp [World.view, World.popped, there]

/-- What has to be known of a step. -/
theorem Sane.step (sane : Sane home world) (left : ∀ line ∈ rest, line ∈ world.inbox side)
    (sound : result.1.Sound home side) (proper : ∀ line ∈ result.2, line.Proper home side.other)
    (good : ∀ user, ((world.step side rest result).view home user).Good) : Sane home (world.step side rest result) where
  sound at' := by
    rcases Side.eq_or_other at' side with rfl | rfl
    · rw [step_server]
      exact sound
    · rw [step_other_server]
      exact sane.sound _
  proper at' line member := by
    rcases Side.eq_or_other at' side with rfl | rfl
    · rw [step_inbox] at member
      exact sane.proper _ line (left line member)
    · rw [step_other_inbox] at member
      exact (List.mem_append.mp member).elim (sane.proper _ line) (proper line)
  good := good

theorem Sane.put (sane : Sane home world) (sound : result.1.Sound home side)
    (proper : ∀ line ∈ result.2, line.Proper home side.other)
    (good : ∀ user, ((world.put side result).view home user).Good) : Sane home (world.put side result) := by
  rw [put_eq_step] at good ⊢
  exact sane.step (fun _ member => member) sound proper good

/-- A user of whom nothing is sent, and whose name stays. -/
theorem good_untouched (good : (world.view home user).Good)
    (name : result.1.nameOf user = (world.servers side).nameOf user)
    (items : result.2.filterMap (Line.item user) = []) (kills : result.2.any (Line.kills user) = false) :
    ((world.put side result).view home user).Good := by
  rcases Side.eq_or_other (home user) side with here | there
  · rw [view_home here, name, items, List.append_nil]
    simp only [World.view, here] at good ⊢
    exact good
  · rw [view_other there, name, kills, Bool.or_false]
    simp only [World.view, there, Side.other_other] at good ⊢
    exact good

theorem own_eq (unique : (world.servers side).Unique) (member : cptr ∈ (world.servers side).clients)
    (here : home cptr.user = side) : (world.view home cptr.user).own = some cptr.name := by
  rw [World.view, here, nameOf_some unique member]

theorem other_eq (unique : (world.servers side).Unique) (member : cptr ∈ (world.servers side).clients)
    (there : home cptr.user = side.other) : (world.view home cptr.user).other = some cptr.name := by
  rw [World.view, there, Side.other_other, nameOf_some unique member]

/-- A user leaves the server where it is connected, which says so. -/
theorem good_leaves (good : (world.view home cptr.user).Good) (unique : (world.servers side).Unique)
    (member : cptr ∈ (world.servers side).clients) (here : home cptr.user = side)
    (item : Line.item cptr.user line = some (.quit cptr.name) ∨ Line.item cptr.user line = some (.kill cptr.name)) :
    ((world.put side ((world.servers side).exitClient cptr, [line])).view home cptr.user).Good := by
  rw [view_home here, nameOf_exitClient, if_pos rfl]
  rcases item with quit | kill
  · rw [List.filterMap_cons_some quit]
    exact good.send (own_eq unique member here) [.quit cptr.name] ⟨rfl, rfl, rfl⟩
  · rw [List.filterMap_cons_some kill]
    exact good.send (own_eq unique member here) [.kill cptr.name] ⟨rfl, rfl, rfl⟩

/-- A server drops a user of the other one, with a KILL. -/
theorem good_dropped (good : (world.view home cptr.user).Good) (unique : (world.servers side).Unique)
    (member : cptr ∈ (world.servers side).clients) (there : home cptr.user = side.other)
    (kills : Line.kills cptr.user line = true) :
    ((world.put side ((world.servers side).exitClient cptr, [line])).view home cptr.user).Good := by
  rw [view_other there, nameOf_exitClient, if_pos rfl, List.any_cons, kills, Bool.true_or, Bool.or_true]
  apply good.lose
  rw [other_eq unique member there]
  exact Option.some_ne_none _

theorem item_named (is : Line.item user line = some item) : (item.name, user) ∈ line.named := by
  cases line with
  | nick who name newts username host =>
    obtain ⟨rfl, same⟩ := Option.ite_none_right_eq_some.mp is
    obtain rfl := Option.some.inj same
    exact .head _
  | change sender who name newts =>
    obtain ⟨rfl, same⟩ := Option.ite_none_right_eq_some.mp is
    obtain rfl := Option.some.inj same
    exact .head _
  | quit sender who =>
    obtain ⟨rfl, same⟩ := Option.ite_none_right_eq_some.mp is
    obtain rfl := Option.some.inj same
    exact .head _
  | kill sender name victim =>
    simp only [Line.item] at is
    split at is
    · rename_i same
      obtain rfl := Option.some.inj is
      exact same ▸ .head _
    · obtain ⟨who, found, rfl⟩ := Option.map_eq_some_iff.mp is
      obtain ⟨known, same⟩ := Option.filter_eq_some_iff.mp found
      obtain rfl := of_decide_eq_true same
      rw [known]
      exact .tail _ (.head _)

theorem kills_named (kills : Line.kills user line = true) : ∃ name, (name, user) ∈ line.named := by
  cases line with
  | kill sender name victim => exact ⟨name, of_decide_eq_true kills ▸ .head _⟩
  | _ => cases kills

/-! What the users do -/

theorem Sane.connect (sane : Sane home world) (here : home user = side) (new : ∀ name, ¬ world.Means name user)
    (free : (world.servers side).findClient nick = none) :
    Sane home (perform world (.connect side user nick username host)) := by
  have absent (at' : Side) (cptr : Client) (member : cptr ∈ (world.servers at').clients) : cptr.user ≠ user := by
    rintro rfl
    exact new cptr.name ⟨at', .inl (mem_named member)⟩
  apply sane.put
  · exact (sane.sound side).add (absent side) free ⟨fun _ => here, fun _ => rfl⟩
  · intro line member
    rw [List.mem_singleton.mp member]
    exact here.trans (Side.other_other side).symm
  · intro other
    by_cases same : other = user
    · subst same
      have nameless (at' : Side) : (world.servers at').nameOf other = none := nameOf_none.mpr (absent at')
      have before : world.view home other = ⟨none, none, [], false⟩ := by
        simp only [World.view, nameless, View.mk.injEq, true_and]
        constructor
        · refine List.filterMap_eq_nil_iff.mpr fun line member => ?_
          by_contra some
          obtain ⟨item, is⟩ := Option.ne_none_iff_exists'.mp some
          exact new item.name ⟨_, .inr ⟨line, member, item_named is⟩⟩
        · refine List.any_eq_false.mpr fun line member kills => ?_
          obtain ⟨name, named⟩ := kills_named kills
          exact new name ⟨_, .inr ⟨line, member, named⟩⟩
      rw [view_home here, before]
      simpa [Server.nameOf, Line.item] using View.Good.connect nick
    · apply good_untouched (sane.good other)
      · simp [Server.nameOf, Ne.symm same]
      · simp [Line.item, Ne.symm same]
      · rfl

theorem Sane.changeNick (sane : Sane home world) (member : sptr ∈ (world.servers side).clients)
    (own : sptr.myConnect = true)
    (free : ∀ acptr, (world.servers side).findClient nick = some acptr → acptr.user = sptr.user) :
    Sane home (perform world (.nick side sptr nick)) := by
  have here := ((sane.sound side).homes sptr member).mp own
  simp only [perform, Server.changeNick]
  generalize (world.servers side).changedTs sptr nick 0 = tsinfo
  apply sane.put
  · exact (sane.sound side).rename tsinfo free
  · intro line sent
    rw [List.mem_singleton.mp sent]
    exact here.trans (Side.other_other side).symm
  · intro other
    by_cases same : other = sptr.user
    · subst same
      rw [view_home here, nameOf_rename, if_pos rfl, nameOf_some (sane.sound side).unique member]
      have good :=
        (sane.good sptr.user).send (own_eq (sane.sound side).unique member here) [.change sptr.name nick] ⟨rfl, rfl⟩
      simpa [Line.item] using good
    · apply good_untouched (sane.good other)
      · rw [nameOf_rename, if_neg same]
      · simp [Line.item, Ne.symm same]
      · rfl

theorem Sane.quit (sane : Sane home world) (member : sptr ∈ (world.servers side).clients) (own : sptr.myConnect = true) :
    Sane home (world.put side ((world.servers side).exitClient sptr, [.quit sptr.name sptr.user])) := by
  have here := ((sane.sound side).homes sptr member).mp own
  apply sane.put ((sane.sound side).exit sptr)
  · intro line sent
    rw [List.mem_singleton.mp sent]
    exact here.trans (Side.other_other side).symm
  · intro other
    by_cases same : other = sptr.user
    · subst same
      exact good_leaves (sane.good sptr.user) (sane.sound side).unique member here (.inl (if_pos rfl))
    · apply good_untouched (sane.good other)
      · rw [nameOf_exitClient, if_neg same]
      · simp [Line.item, Ne.symm same]
      · rfl

/-- An operator kills a user of the other server. -/
theorem Sane.killRemote (sane : Sane home world) (member : sptr ∈ (world.servers side).clients) (own : sptr.myConnect = true)
    (victim : acptr ∈ (world.servers side).clients) (remote : acptr.myConnect = false) :
    Sane home (world.put side
      ((world.servers side).exitClient acptr, [.kill (some (sptr.name, sptr.user)) acptr.name acptr.user])) := by
  have sound := sane.sound side
  have here := (sound.homes sptr member).mp own
  have there : home acptr.user = side.other := by
    refine (Side.eq_or_other _ side).resolve_left fun same => ?_
    rw [(sound.homes acptr victim).mpr same] at remote
    cases remote
  have differ : acptr.user ≠ sptr.user := fun same => Side.other_ne side (there.symm.trans (same ▸ here))
  apply sane.put (sound.exit acptr)
  · intro line sent
    rw [List.mem_singleton.mp sent]
    intro name user same
    obtain ⟨rfl, rfl⟩ := Prod.mk.inj (Option.some.inj same)
    exact ⟨here.trans (Side.other_other side).symm, there⟩
  · intro other
    by_cases killed : other = acptr.user
    · subst killed
      exact good_dropped (sane.good acptr.user) sound.unique victim there (decide_eq_true rfl)
    · by_cases same : other = sptr.user
      · subst same
        rw [view_home here, nameOf_exitClient, if_neg killed]
        have good := (sane.good sptr.user).send (own_eq sound.unique member here) [.act sptr.name] ⟨rfl, rfl⟩
        simpa [Line.item, differ, own_eq sound.unique member here, nameOf_some sound.unique member] using good
      · apply good_untouched (sane.good other)
        · rw [nameOf_exitClient, if_neg killed]
        · simp [Line.item, Ne.symm killed, Ne.symm same]
        · simp [Line.kills, Ne.symm killed]

theorem Sane.operKill (sane : Sane home world) (member : sptr ∈ (world.servers side).clients) (own : sptr.myConnect = true)
    (nick : Name) : Sane home (perform world (.kill side sptr nick)) := by
  simp only [perform, Server.operKill]
  split
  · apply sane.put (sane.sound side)
    · exact fun _ sent => absurd sent List.not_mem_nil
    · exact fun user => good_untouched (sane.good user) rfl rfl rfl
  · rename_i acptr found
    have victim : acptr ∈ (world.servers side).clients := by
      rcases Option.or_eq_some_iff.mp found with direct | ⟨_, chased⟩
      · exact (findClient_some direct).1
      · exact getHistory_mem chased
    split
    · rename_i here
      exact sane.quit victim here
    · rename_i remote
      exact sane.killRemote member own victim (Bool.eq_false_iff.mpr remote)

/-- Time goes by. -/
theorem Sane.tick (sane : Sane home world) (side : Side) (seconds : Nat) :
    Sane home (perform world (.tick side seconds)) := by
  have clients (at' : Side) : ((perform world (.tick side seconds)).servers at').clients = (world.servers at').clients := by
    rcases Side.eq_or_other at' side with rfl | rfl
    · simp [perform]
    · simp [perform]
  constructor
  · intro at'
    have sound := sane.sound at'
    constructor
    · rw [Server.Unique, clients]
      exact sound.unique
    · rw [clients]
      exact sound.distinct
    · rw [clients]
      exact sound.homes
  · exact sane.proper
  · intro user
    have same : (perform world (.tick side seconds)).view home user = world.view home user := by
      simp only [World.view, Server.nameOf, clients]
      rfl
    rw [same]
    exact sane.good user

end SolidIrcd.Kill
