import SolidIrcd.Conf.Attached

/-! What becomes of a connection: it gets an allow and a class, it is an operator and one no more, or it is a server. -/

namespace SolidIrcd.Blocks

open Scan (Text)
open Census (replace)
open Refs (Kind)

section

variable {state : State} {cptr : AClient}

/-- An allow is attached to a connection. -/
theorem Steady.attach (steady : Steady state) (member : cptr ∈ state.clients) (plain : cptr.status ≠ .server)
    (bare : cptr.allow = none) (inside : x ∈ state.allows) :
    Steady { state with
      allows := replace AAllow.ptr { x with clients := x.clients + 1 } state.allows
      clients := replace AClient.ptr { cptr with allow := some x.ptr } state.clients } := by
  have changed := steady.books.change { cptr with allow := some x.ptr } steady.shape.clients member rfl
  have more : replace AAllow.ptr { x with clients := x.clients + 1 } state.allows =
      allowKind.adjust x.ptr 1 state.allows :=
    replace_eq_adjust steady.books.allows.distinct inside 1
  have held := changed.allows.hold (fun ptr => tally AClient.allow
      (replace AClient.ptr { cptr with allow := some x.ptr } state.clients) ptr + nothing ptr)
    (List.mem_map_of_mem (f := allowKind.key) inside) fun other => by
      dsimp only
      rw [bare, one_none, one_some, nothing]
      show _ = _ + if other = x.ptr then 1 else 0
      omega
  have same (ptr : Ptr) : tally (fun allow => some allow.cls)
      (replace AAllow.ptr { x with clients := x.clients + 1 } state.allows) ptr =
        tally (fun allow => some allow.cls) state.allows ptr := by
    rw [tally_replace AAllow.ptr _ { x with clients := x.clients + 1 } steady.books.allows.distinct inside rfl]
    exact Int.sub_add_cancel _ _
  have shape := steady.shape.change { cptr with allow := some x.ptr } member rfl rfl
    fun linked => absurd linked plain
  refine ⟨⟨changed.ledger.congr (fun ptr => ?_) fun ptr => ?_, more ▸ held, ?_, changed.lost⟩, { shape with
    allowsFresh := fun allow present => ?_ }, steady.serves, steady.tidyClasses, ?_⟩
  · simp only [State.held, same, nothing]
    omega
  · simp [nothing]
  · convert changed.opers using 2 with ptr
    simp [nothing]
  · rcases Census.mem_replace present with rfl | ⟨before, _⟩
    · exact steady.shape.allowsFresh x inside
    · exact steady.shape.allowsFresh allow before
  · rw [more]
    exact steady.books.allows.tidy_hold steady.tidyAllows fun ptr =>
      Int.add_nonneg (tally_nonneg _ _ ptr) (Int.le_refl 0)

/-- The count of an operator block changes with its operators. -/
theorem Steady.opers (steady : Steady state) (member : cptr ∈ state.clients) (plain : cptr.status ≠ .server)
    (inside : x ∈ state.opers) (pointer : Option Ptr) (more : Int)
    (change : ∀ ptr, one pointer ptr = one cptr.oper ptr + if ptr = x.ptr then more else 0) :
    Steady { state with
      opers := replace AOper.ptr { x with opers := x.opers + more } state.opers
      clients := replace AClient.ptr { cptr with oper := pointer } state.clients } := by
  have changed := steady.books.change { cptr with oper := pointer } steady.shape.clients member rfl
  have adjusted : replace AOper.ptr { x with opers := x.opers + more } state.opers =
      operKind.adjust x.ptr more state.opers :=
    replace_eq_adjust steady.books.opers.distinct inside more
  have held := changed.opers.adjust (fun ptr => tally AClient.oper
      (replace AClient.ptr { cptr with oper := pointer } state.clients) ptr + nothing ptr)
    (List.mem_map_of_mem (f := operKind.key) inside) more fun other => by
      have step := change other
      dsimp only
      rw [step, nothing]
      show _ = _ + if other = x.ptr then more else 0
      omega
  have same (ptr : Ptr) : tally (fun aoper => some aoper.cls)
      (replace AOper.ptr { x with opers := x.opers + more } state.opers) ptr =
        tally (fun aoper => some aoper.cls) state.opers ptr := by
    rw [tally_replace AOper.ptr _ { x with opers := x.opers + more } steady.books.opers.distinct inside rfl]
    exact Int.sub_add_cancel _ _
  have shape := steady.shape.change { cptr with oper := pointer } member rfl rfl fun linked => absurd linked plain
  refine ⟨⟨changed.ledger.congr (fun ptr => ?_) fun ptr => ?_, ?_, adjusted ▸ held, changed.lost⟩, { shape with
    opersFresh := fun aoper present => ?_ }, steady.serves, steady.tidyClasses, steady.tidyAllows⟩
  · simp only [State.held, same, nothing]
    omega
  · simp [nothing]
  · convert changed.allows using 2 with ptr
    simp [nothing]
  · rcases Census.mem_replace present with rfl | ⟨before, _⟩
    · exact steady.shape.opersFresh x inside
    · exact steady.shape.opersFresh aoper before

/-- A client that changes but for what it is attached to. -/
theorem Steady.status (steady : Steady state) (member : cptr ∈ state.clients) (status : Status)
    (server : status = .server → cptr.aconn ≠ none ∧ cptr.allow = none ∧ cptr.oper = none) :
    Steady { state with clients := replace AClient.ptr { cptr with status := status } state.clients } := by
  have changed := steady.books.change { cptr with status := status } steady.shape.clients member rfl
  refine ⟨changed.congr (fun ptr => ?_) (fun ptr => ?_) (fun ptr => ?_) fun ptr => ?_,
    steady.shape.change { cptr with status := status } member rfl rfl server, steady.serves, steady.tidyClasses,
    steady.tidyAllows⟩ <;>
  simp [nothing]

/-- A Connect block is given to a connection. -/
theorem Steady.connect (steady : Steady state) (member : cptr ∈ state.clients) (plain : cptr.status ≠ .server)
    (inside : x ∈ state.connects) :
    Steady { state with
      connects := replace AConnect.ptr { x with acpt := some cptr.ptr } state.connects
      clients := replace AClient.ptr { cptr with aconn := some x.ptr } state.clients } := by
  have changed := steady.books.change { cptr with aconn := some x.ptr } steady.shape.clients member rfl
  have same (ptr : Ptr) : tally (fun aconn => some aconn.cls)
      (replace AConnect.ptr { x with acpt := some cptr.ptr } state.connects) ptr =
        tally (fun aconn => some aconn.cls) state.connects ptr := by
    rw [tally_replace AConnect.ptr _ { x with acpt := some cptr.ptr } steady.shape.connects inside rfl]
    exact Int.sub_add_cancel _ _
  refine ⟨⟨changed.ledger.congr (fun ptr => ?_) fun ptr => ?_, ?_, ?_, changed.lost⟩, { steady.shape with
    clients := Census.keys_replace AClient.ptr { cptr with aconn := some x.ptr } state.clients ▸ steady.shape.clients
    connects := Census.keys_replace AConnect.ptr { x with acpt := some cptr.ptr } state.connects ▸
      steady.shape.connects
    used := fun other present ptr points => ?_
    servers := fun other present linked => ?_
    clientsFresh := fun other present => ?_
    connectsFresh := fun aconn present => ?_ }, steady.serves, steady.tidyClasses, steady.tidyAllows⟩
  · simp only [State.held, same, nothing]
    omega
  · simp [nothing]
  · convert changed.allows using 2 with ptr
    simp [nothing]
  · convert changed.opers using 2 with ptr
    simp [nothing]
  · rcases Census.mem_replace present with rfl | ⟨before, differs⟩
    · obtain rfl : x.ptr = ptr := Option.some.inj points
      exact ⟨{ x with acpt := some cptr.ptr }, List.mem_map.mpr ⟨x, inside, if_pos rfl⟩, rfl, Option.some_ne_none _⟩
    · obtain ⟨aconn, there, rfl, acpt⟩ := steady.shape.used other before ptr points
      by_cases same : aconn.ptr = x.ptr
      · exact ⟨{ x with acpt := some cptr.ptr }, List.mem_map.mpr ⟨aconn, there, if_pos same⟩,
          same.symm, Option.some_ne_none _⟩
      · exact ⟨aconn, List.mem_map.mpr ⟨aconn, there, if_neg same⟩, rfl, acpt⟩
  · rcases Census.mem_replace present with rfl | ⟨before, _⟩
    · exact absurd linked plain
    · exact steady.shape.servers other before linked
  · rcases Census.mem_replace present with rfl | ⟨before, _⟩
    · exact steady.shape.clientsFresh cptr member
    · exact steady.shape.clientsFresh other before
  · rcases Census.mem_replace present with rfl | ⟨before, _⟩
    · exact steady.shape.connectsFresh x inside
    · exact steady.shape.connectsFresh aconn before

theorem Fresh.filter (fresh : Fresh clients) (stays : AClient → Bool) : Fresh (clients.filter stays) :=
  fun cptr member => fresh cptr (List.mem_of_mem_filter member)

theorem Fresh.replace (fresh : Fresh clients) (known : cptr.status = .unknown → cptr.allow = none ∧ cptr.oper = none) :
    Fresh (replace AClient.ptr cptr clients) := by
  intro other member
  rcases Census.mem_replace member with rfl | ⟨before, _⟩
  · exact known
  · exact fresh other before

theorem mem_changed (member : cptr ∈ state.clients) {new : AClient} (same : cptr.ptr = new.ptr) :
    new ∈ replace AClient.ptr new state.clients :=
  List.mem_map.mpr ⟨cptr, member, if_pos same⟩

/-- What is left when one that has changed has exited. -/
theorem filter_changed (new : AClient) (clients : List AClient) :
    (replace AClient.ptr new clients).filter (fun other => other.ptr ≠ new.ptr) =
      clients.filter fun other => other.ptr ≠ new.ptr := by
  induction clients with
  | nil => rfl
  | cons first rest ih =>
    rw [Census.replace] at ih ⊢
    by_cases same : first.ptr = new.ptr
    · rw [List.map_cons, if_pos same, List.filter_cons_of_neg (by simp),
        List.filter_cons_of_neg (by simpa using same), ih]
    · rw [List.map_cons, if_neg same, List.filter_cons_of_pos (by simpa using same),
        List.filter_cons_of_pos (by simpa using same), ih]

theorem State.alone (state : State) (plain : cptr.status ≠ .server) : state.Alone cptr :=
  fun linked => absurd linked plain

theorem Sound.exit (sound : Sound state) (member : cptr ∈ state.clients) (alone : state.Alone cptr) :
    ∃ after, exitClient state cptr = some after ∧ Sound after := by
  obtain ⟨after, exits, steady, clients, _⟩ := sound.toSteady.exit member alone
  exact ⟨after, exits, steady, clients ▸ sound.fresh.filter _⟩

theorem Steady.sound (steady : Steady state) (fresh : Fresh state.clients) (member : cptr ∈ state.clients)
    (known : cptr.status = .unknown → cptr.allow = none ∧ cptr.oper = none) :
    ∃ after, setEffectiveClass state cptr = some after ∧ Sound after := by
  obtain ⟨cl, after, sets, steady', clients, _⟩ := steady.effective member
  exact ⟨after, sets, steady', clients ▸ fresh.replace known⟩

/-- The class of an allow can be looked at. -/
theorem Steady.classAt (steady : Steady state) (inside : x ∈ state.allows) :
    ∃ cl ∈ state.classes, state.classAt x.cls = some cl := by
  have held : x.cls ∈ state.classes.map AClass.ptr := by
    apply steady.books.ledger.present
    have := tally_pos (fun allow : AAllow => some allow.cls) inside rfl
    have := tally_nonneg AClient.cls state.clients x.cls
    have := tally_nonneg (fun aoper : AOper => some aoper.cls) state.opers x.cls
    have := tally_nonneg (fun aconn : AConnect => some aconn.cls) state.connects x.cls
    have := steady.books.lost x.cls
    simp only [State.held, nothing]
    omega
  obtain ⟨cl, present, _, found⟩ := find_ptr held
  exact ⟨cl, present, found⟩

/-- Either no allow is attached, and nothing is changed, or one is. -/
theorem Steady.attachIline (steady : Steady state) (member : cptr ∈ state.clients) (plain : cptr.status ≠ .server)
    (bare : cptr.allow = none) (who : Who) :
    Blocks.attachIline state cptr who = some (state, none) ∨
      ∃ ptr after, Blocks.attachIline state cptr who = some (after, some { cptr with allow := some ptr }) ∧
        Steady after ∧ after.clients = replace AClient.ptr { cptr with allow := some ptr } state.clients := by
  unfold Blocks.attachIline
  split
  next => exact .inl rfl
  next allow found =>
    have inside := List.mem_of_find?_eq_some found
    obtain ⟨cl, _, class'⟩ := steady.classAt inside
    rw [class', Option.bind_eq_bind, Option.bind_some]
    by_cases full : cl.links ≥ cl.maxlinks
    · exact .inl (if_pos full)
    · exact .inr ⟨allow.ptr, _, if_neg full, steady.attach member plain bare inside, rfl⟩

/-- Whether it is let in or not, a connection that registers leaves the books right. -/
theorem Sound.register (sound : Sound state) (member : cptr ∈ state.clients) (unknown : cptr.status = .unknown)
    (who : Who) (passes : Bool) : ∃ after, registerUser state cptr who passes = some after ∧ Sound after := by
  have plain : cptr.status ≠ .server := by simp [unknown]
  rcases sound.toSteady.attachIline member plain (sound.fresh cptr member unknown).1 who with
    refused | ⟨ptr, state', attached, steady, clients⟩
  · obtain ⟨after, exits, sound'⟩ := sound.exit member (state.alone plain)
    exact ⟨after, by simp only [registerUser, refused, Option.bind_eq_bind, Option.bind_some, exits], sound'⟩
  · have there : { cptr with allow := some ptr } ∈ state'.clients := clients ▸ mem_changed member rfl
    cases passes with
    | false =>
      obtain ⟨after, exits, steady', left, _⟩ := steady.exit there (state'.alone plain)
      refine ⟨after, ?_, steady', ?_⟩
      · simp only [registerUser, attached, Option.bind_eq_bind, Option.bind_some, exits]
        rfl
      · rw [left, clients, filter_changed]
        exact sound.fresh.filter _
    | true =>
      have person := steady.status there .person (by simp)
      have fresh : Fresh (replace AClient.ptr { cptr with allow := some ptr, status := .person } state'.clients) := by
        rw [clients, Census.replace_replace (by rfl)]
        exact sound.fresh.replace (by simp)
      obtain ⟨after, sets, sound'⟩ := person.sound fresh (mem_changed there rfl) (by simp)
      refine ⟨after, ?_, sound'⟩
      simp only [registerUser, attached, Option.bind_eq_bind, Option.bind_some]
      exact sets

/-- A user becomes an operator. -/
theorem Sound.oper (sound : Sound state) (member : cptr ∈ state.clients) (person : cptr.status = .person)
    (bare : cptr.oper = none) (name username sockhost hostip : Text) :
    ∃ after, mOper state cptr name username sockhost hostip = some after ∧ Sound after := by
  unfold mOper
  split
  next => exact ⟨state, rfl, sound⟩
  next aoper found =>
    have steady := sound.toSteady.opers member (by simp [person]) (List.mem_of_find?_eq_some found) (some aoper.ptr) 1
      fun ptr => by rw [bare, one_none, one_some, Int.zero_add]
    exact steady.sound (sound.fresh.replace (by simp [person])) (mem_changed member rfl) (by simp [person])

/-- An operator is one no more. -/
theorem Sound.umode (sound : Sound state) (member : cptr ∈ state.clients) (person : cptr.status = .person)
    (points : cptr.oper = some ptr) : ∃ after, mUmode state cptr = some after ∧ Sound after := by
  obtain ⟨cl, state', sets, steady, clients, _, _, opers, _⟩ := sound.toSteady.effective member
  have there : { cptr with cls := some cl } ∈ state'.clients := clients ▸ mem_changed member rfl
  have found : state'.clientAt cptr.ptr = some { cptr with cls := some cl } := find_eq steady.shape.clients there
  have held : ptr ∈ state'.opers.map AOper.ptr := by
    apply steady.books.opers.live
    have := tally_pos AClient.oper there points
    show _ + (0 : Int) ≠ 0
    omega
  obtain ⟨aoper, inside, rfl, at'⟩ := find_ptr held
  have steady' := steady.opers there (by simp [person]) inside none (-1) fun other => by
    simp only [points, one_none, one_some]
    split_ifs <;> omega
  have fresh : Fresh (replace AClient.ptr { cptr with cls := some cl, oper := none } state'.clients) := by
    rw [clients, Census.replace_replace (by rfl)]
    exact sound.fresh.replace (by simp [person])
  obtain ⟨after, sets', sound'⟩ := steady'.sound fresh (mem_changed there rfl) (by simp [person])
  refine ⟨after, ?_, sound'⟩
  simp only [mUmode, sets, Option.bind_eq_bind, Option.bind_some, found, points, Int.sub_eq_add_neg]
  exact (congrArg (fun found => Option.bind found _) at').trans sets'

/-- A connection says that it is a server. -/
theorem Sound.check (sound : Sound state) (member : cptr ∈ state.clients) (unknown : cptr.status = .unknown)
    (name : Text) : ∃ after, checkServerInit state cptr name = some after ∧ Sound after := by
  have plain : cptr.status ≠ .server := by simp [unknown]
  unfold checkServerInit
  split
  next => exact sound.exit member (state.alone plain)
  next aconn found =>
    have known := sound.fresh cptr member
    have steady := sound.toSteady.connect member plain (List.mem_of_find?_eq_some found)
    exact steady.sound (sound.fresh.replace known) (mem_changed member rfl) known

/-- A connection is a server. -/
theorem Sound.establish (sound : Sound state) (member : cptr ∈ state.clients) (unknown : cptr.status = .unknown)
    (checked : cptr.aconn ≠ none) : ∃ after, doServerEstab state cptr = some after ∧ Sound after := by
  have steady := sound.toSteady.status member .server fun _ => ⟨checked, sound.fresh cptr member unknown⟩
  exact steady.sound (sound.fresh.replace nofun) (mem_changed member rfl) nofun

end

end SolidIrcd.Blocks
