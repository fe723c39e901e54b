import SolidIrcd.Conf.Clients

/-! The configuration is read again: what is in use stays, and the books stay right. -/

namespace SolidIrcd.Blocks

open Scan (Text)
open Census (replace)
open Refs (Kind)

/-- What of a class does not depend on what is read. -/
def AClass.view (cl : AClass) : Ptr × Text × Int × Int := (cl.ptr, cl.name, cl.links, cl.refs)

section

variable {classes after : List AClass} {held links : Ptr → Int}

theorem Ledger.view (ledger : Ledger classes held links) (same : after.map AClass.view = classes.map AClass.view) :
    Ledger after held links := by
  refine ⟨ledger.refs.view ?_, fun cl inside => ?_⟩
  · simpa [AClass.view, classKind, Function.comp_def] using congrArg (List.map fun view => (view.1, view.2.2.2)) same
  · obtain ⟨old, present, equal⟩ := List.mem_map.mp (same ▸ List.mem_map_of_mem (f := AClass.view) inside)
    simp only [AClass.view, Prod.mk.injEq] at equal
    rw [← equal.1, ← equal.2.2.1]
    exact ledger.links old present

end

/-- The old classes get what is read. -/
theorem updateClasses_view (news : List NewClass) (classes : List AClass)
    (distinct : (classes.map AClass.ptr).Nodup) :
    (updateClasses news classes).1.map AClass.view = classes.map AClass.view := by
  induction news generalizing classes with
  | nil => rfl
  | cons cl rest ih =>
    unfold updateClasses
    split
    next => exact ih classes distinct
    next old found =>
      have member := List.mem_of_find?_eq_some found
      have keys := Census.keys_replace AClass.ptr { old with limits := cl.limits, maxlinks := cl.maxlinks } classes
      exact (ih _ (keys ▸ distinct)).trans (Census.map_replace AClass.view distinct member rfl rfl)

/-- A class that is wanted stays so, and what is read is there under its name, or is still to be added. -/
theorem updateClasses_serves (news : List NewClass) (classes : List AClass)
    (distinct : (classes.map AClass.ptr).Nodup) (wanted : ∀ cl ∈ news, cl.maxlinks ≠ -1) :
    (∀ name, Serves classes name → Serves (updateClasses news classes).1 name) ∧
      ∀ cl ∈ news, Serves (updateClasses news classes).1 (some cl.name) ∨ cl ∈ (updateClasses news classes).2 := by
  induction news generalizing classes with
  | nil => exact ⟨fun _ serves => serves, fun cl member => absurd member List.not_mem_nil⟩
  | cons cl rest ih =>
    have wanted' : ∀ cl ∈ rest, cl.maxlinks ≠ -1 := fun cl member => wanted cl (List.mem_cons_of_mem _ member)
    unfold updateClasses
    split
    next =>
      obtain ⟨stays, read'⟩ := ih classes distinct wanted'
      refine ⟨stays, fun other member => ?_⟩
      rcases List.mem_cons.mp member with rfl | later
      · exact .inr List.mem_cons_self
      · exact (read' other later).imp_right (List.mem_cons_of_mem _)
    next old found =>
      have member := List.mem_of_find?_eq_some found
      have same : mycmp cl.name old.name = true := by simpa using List.find?_some found
      have keys := Census.keys_replace AClass.ptr { old with limits := cl.limits, maxlinks := cl.maxlinks } classes
      obtain ⟨stays, read'⟩ := ih _ (keys ▸ distinct) wanted'
      have up := wanted cl List.mem_cons_self
      have there : { old with limits := cl.limits, maxlinks := cl.maxlinks } ∈
          replace AClass.ptr { old with limits := cl.limits, maxlinks := cl.maxlinks } classes :=
        List.mem_map.mpr ⟨old, member, if_pos rfl⟩
      refine ⟨fun name serves => stays name ?_, fun other inside => ?_⟩
      · obtain ⟨ccl, inside, called, links⟩ := serves
        by_cases equal : ccl.ptr = old.ptr
        · obtain rfl := List.inj_on_of_nodup_map distinct inside member equal
          exact ⟨_, there, called, up⟩
        · exact ⟨ccl, List.mem_map.mpr ⟨ccl, inside, if_neg equal⟩, called, links⟩
      · rcases List.mem_cons.mp inside with rfl | later
        · exact .inl (stays _ ⟨_, there, same, up⟩)
        · exact (read' other later).imp_right (List.mem_cons_of_mem _)

section

variable {classes : List AClass} {held links : Ptr → Int} {next : Ptr}

/-- New classes that nobody holds yet are added. -/
theorem Ledger.addClasses (news : List NewClass) (ledger : Ledger classes held links)
    (fresh : ∀ cl ∈ classes, cl.ptr < next) (unused : ∀ ptr, next ≤ ptr → held ptr = 0 ∧ links ptr = 0) :
    Ledger (addClasses news classes next).1 held links ∧
      (∀ cl ∈ (addClasses news classes next).1, cl.ptr < (addClasses news classes next).2) ∧
      next ≤ (addClasses news classes next).2 ∧
      (∀ name, Serves classes name → Serves (addClasses news classes next).1 name) ∧
      ∀ cl ∈ news, cl.maxlinks ≠ -1 → Serves (addClasses news classes next).1 (some cl.name) := by
  induction news generalizing classes next with
  | nil => exact ⟨ledger, fresh, Nat.le_refl _, fun _ serves => serves, fun cl member => absurd member List.not_mem_nil⟩
  | cons cl rest ih =>
    unfold Blocks.addClasses
    split_ifs with marked
    · obtain ⟨ledger', fresh', more, stays, added⟩ := ih ledger fresh unused
      refine ⟨ledger', fresh', more, stays, fun other member up => ?_⟩
      rcases List.mem_cons.mp member with rfl | later
      · exact absurd marked up
      · exact added other later up
    · have new : next ∉ classes.map AClass.ptr := by
        intro member
        obtain ⟨ccl, inside, same⟩ := List.mem_map.mp member
        exact Nat.lt_irrefl next (same ▸ fresh ccl inside)
      have ledger' : Ledger (⟨next, cl.name, cl.limits, cl.maxlinks, 0, 0⟩ :: classes) held links := by
        refine ⟨ledger.refs.add _ new rfl, fun ccl member => ?_⟩
        rcases List.mem_cons.mp member with rfl | later
        · exact (unused next (Nat.le_refl _)).2.symm
        · exact ledger.links ccl later
      have fresh' : ∀ ccl ∈ (⟨next, cl.name, cl.limits, cl.maxlinks, 0, 0⟩ :: classes : List AClass),
          ccl.ptr < next + 1 := by
        intro ccl member
        rcases List.mem_cons.mp member with rfl | later
        · exact Nat.lt_succ_self next
        · exact Nat.lt_succ_of_lt (fresh ccl later)
      obtain ⟨ledger'', fresh'', more, stays, added⟩ := ih ledger' fresh' fun ptr above =>
        unused ptr (Nat.le_of_succ_le above)
      have first : Serves (⟨next, cl.name, cl.limits, cl.maxlinks, 0, 0⟩ :: classes) (some cl.name) :=
        ⟨_, List.mem_cons_self, mycmp_refl _, marked⟩
      refine ⟨ledger'', fresh'', Nat.le_of_succ_le more, fun name serves => stays name ?_, fun other member up => ?_⟩
      · obtain ⟨ccl, inside, called, up⟩ := serves
        exact ⟨ccl, List.mem_cons_of_mem _ inside, called, up⟩
      · rcases List.mem_cons.mp member with rfl | later
        · exact stays _ first
        · exact added other later up

end

/-- What is read has a class for the name. -/
def Reads (classes : List NewClass) (name : Option Text) : Prop := (findNewClass classes name).isSome = true

theorem Serves.called (serves : Serves classes (some other)) (same : mycmp (name.getD "default".toList) other = true) :
    Serves classes name := by
  obtain ⟨cl, inside, called, up⟩ := serves
  exact ⟨cl, inside, mycmp_trans same called, up⟩

section

variable {state : State}

/-- What nobody points to can be given to a new block. -/
theorem Books.unused (books : Books state nothing nothing nothing nothing) (shape : Shape state) (ptr : Ptr)
    (above : state.next ≤ ptr) : state.held ptr = 0 ∧ tally AClient.cls state.clients ptr = 0 := by
  have held : state.held ptr = 0 := by
    by_contra some
    have present := books.ledger.refs.live ptr (by simpa [nothing] using some)
    obtain ⟨cl, inside, rfl⟩ := List.mem_map.mp present
    exact absurd (shape.classesFresh cl inside) (Nat.not_lt.mpr above)
  refine ⟨held, ?_⟩
  have clients := tally_nonneg AClient.cls state.clients ptr
  have allows := tally_nonneg (fun allow : AAllow => some allow.cls) state.allows ptr
  have opers := tally_nonneg (fun aoper : AOper => some aoper.cls) state.opers ptr
  have connects := tally_nonneg (fun aconn : AConnect => some aconn.cls) state.connects ptr
  have lost := books.lost ptr
  unfold State.held at held
  omega

theorem Shape.grow (shape : Shape state) (more : state.next ≤ next) : Shape { state with next := next } :=
  { shape with
    clientsFresh := fun cptr member => Nat.lt_of_lt_of_le (shape.clientsFresh cptr member) more
    classesFresh := fun cl member => Nat.lt_of_lt_of_le (shape.classesFresh cl member) more
    allowsFresh := fun allow member => Nat.lt_of_lt_of_le (shape.allowsFresh allow member) more
    opersFresh := fun aoper member => Nat.lt_of_lt_of_le (shape.opersFresh aoper member) more
    connectsFresh := fun aconn member => Nat.lt_of_lt_of_le (shape.connectsFresh aconn member) more }

/-- After `merge_classes` there is a class for every name that is read. -/
theorem Books.mergeClasses (books : Books state nothing nothing nothing nothing) (shape : Shape state)
    (news : List NewClass) (wanted : ∀ cl ∈ news, cl.maxlinks ≠ -1) :
    Books (mergeClasses state news) nothing nothing nothing nothing ∧ Shape (mergeClasses state news) ∧
      classKind.Tidy (mergeClasses state news).classes ∧
      ∀ name, Reads news name → Serves (mergeClasses state news).classes name := by
  let marked := state.classes.map fun cl => { cl with maxlinks := -1 }
  have keys : marked.map AClass.ptr = state.classes.map AClass.ptr := by simp [marked, Function.comp_def]
  have distinct : (marked.map AClass.ptr).Nodup := keys ▸ books.ledger.refs.distinct
  have view : (updateClasses news marked).1.map AClass.view = state.classes.map AClass.view :=
    (updateClasses_view news marked distinct).trans (by simp [marked, AClass.view, Function.comp_def])
  have ledger := books.ledger.view view
  have ptrs : (updateClasses news marked).1.map AClass.ptr = state.classes.map AClass.ptr := by
    simpa [AClass.view, Function.comp_def] using congrArg (List.map Prod.fst) view
  have fresh : ∀ cl ∈ (updateClasses news marked).1, cl.ptr < state.next := by
    intro cl inside
    obtain ⟨old, before, same⟩ := List.mem_map.mp (ptrs ▸ List.mem_map_of_mem (f := AClass.ptr) inside)
    exact same ▸ shape.classesFresh old before
  obtain ⟨_, read'⟩ := updateClasses_serves news marked distinct wanted
  obtain ⟨ledger', fresh', more, stays, added⟩ := ledger.addClasses (updateClasses news marked).2 fresh
    fun ptr above => by
    obtain ⟨held, links⟩ := books.unused shape ptr above
    simp [held, links, nothing]
  have swept : Ledger (classKind.sweep (addClasses (updateClasses news marked).2 (updateClasses news marked).1
      state.next).1) (fun ptr => state.held ptr + nothing ptr) fun ptr =>
        tally AClient.cls state.clients ptr + nothing ptr :=
    ⟨ledger'.refs.sweep fun ptr => Int.add_nonneg (State.held_nonneg books.lost ptr) (Int.le_refl 0),
      fun cl inside => ledger'.links cl (List.mem_of_mem_filter inside)⟩
  have kin := kin_filter (addClasses (updateClasses news marked).2 (updateClasses news marked).1 state.next).1
    (fun cl => !classKind.gone cl) fun cl _ up => by simp [classKind, up]
  refine ⟨⟨swept, books.allows, books.opers, books.lost⟩, { shape.grow more with
    classesFresh := fun cl inside => fresh' cl (List.mem_of_mem_filter inside) }, Refs.tidy_sweep classKind _,
    fun name reads => kin.serves ?_⟩
  obtain ⟨cl, found⟩ := Option.isSome_iff_exists.mp reads
  have member := List.mem_of_find?_eq_some found
  have same : mycmp (name.getD "default".toList) cl.name = true := by simpa using List.find?_some found
  rcases read' cl member with serves | left
  · exact (stays _ serves).called same
  · exact (added cl left (wanted cl member)).called same

end

/-- How far a list of what is read has been merged. -/
structure Forward (state after : State) : Prop where
  books : Books after nothing nothing nothing nothing
  shape : Shape after
  kin : Kin state.classes after.classes
  tidy : classKind.Tidy state.classes → classKind.Tidy after.classes
  clients : after.clients = state.clients

theorem Forward.trans (first : Forward state middle) (second : Forward middle after) : Forward state after :=
  ⟨second.books, second.shape, first.kin.trans second.kin, fun tidy => second.tidy (first.tidy tidy),
    second.clients.trans first.clients⟩

section

variable {state : State}

theorem Books.joins (books : Books state nothing nothing nothing nothing) (serves : Serves state.classes name) :
    ∃ cl classes, findClass state.classes name = some cl ∧ changeClass state.classes cl.ptr 0 1 = some classes ∧
      Settled state.classes classes (fun ptr => state.held ptr + one (some cl.ptr) ptr)
        (tally AClient.cls state.clients) := by
  have ledger : Ledger state.classes state.held (tally AClient.cls state.clients) :=
    books.ledger.congr (fun ptr => Int.add_zero _) fun ptr => Int.add_zero _
  exact ledger.joins (State.held_nonneg books.lost) serves

theorem Books.moves (old : Ptr) (books : Books state nothing nothing nothing nothing)
    (holds : ∀ ptr, one (some old) ptr ≤ state.held ptr) (serves : Serves state.classes name) :
    ∃ dropped cl classes, dropClass state.classes old = some dropped ∧ findClass dropped name = some cl ∧
      changeClass dropped cl.ptr 0 1 = some classes ∧
      Settled state.classes classes (fun ptr => state.held ptr - one (some old) ptr + one (some cl.ptr) ptr)
        (tally AClient.cls state.clients) := by
  have ledger : Ledger state.classes (fun ptr => state.held ptr - one (some old) ptr + one (some old) ptr)
      (tally AClient.cls state.clients) :=
    books.ledger.congr (fun ptr => (Int.add_zero _).trans (Int.sub_add_cancel _ _).symm) fun ptr => Int.add_zero _
  exact ledger.moves old (fun ptr => Int.sub_nonneg_of_le (holds ptr)) serves

/-- The Connect blocks that are read are merged. -/
theorem Books.addConnects (news : List AConnect) (books : Books state nothing nothing nothing nothing)
    (shape : Shape state) (serves : ∀ aconn ∈ news, Serves state.classes aconn.className) :
    ∃ after, Blocks.addConnects news state = some after ∧ Forward state after := by
  induction news generalizing state with
  | nil => exact ⟨state, rfl, books, shape, Kin.refl _, id, rfl⟩
  | cons aconn rest ih =>
    have called := serves aconn List.mem_cons_self
    have later (classes : List AClass) (kin : Kin state.classes classes) :
        ∀ other ∈ rest, Serves classes other.className :=
      fun other member => kin.serves (serves other (List.mem_cons_of_mem _ member))
    cases found : findAConnect state.connects aconn.name with
    | some old =>
      have inside := List.mem_of_find?_eq_some found
      obtain ⟨dropped, cl, classes, drops, finds, takes, settled⟩ := books.moves old.cls (fun ptr => by
        have := one_le_tally (fun aconn : AConnect => some aconn.cls) inside ptr
        have := tally_nonneg AClient.cls state.clients ptr
        have := tally_nonneg (fun allow : AAllow => some allow.cls) state.allows ptr
        have := tally_nonneg (fun aoper : AOper => some aoper.cls) state.opers ptr
        have := books.lost ptr
        simp only [State.held]
        omega) called
      let new : AConnect := { old with
        host := aconn.host, apasswd := aconn.apasswd, cpasswd := aconn.cpasswd, source := aconn.source,
        className := aconn.className, port := aconn.port, flags := aconn.flags, cls := cl.ptr, legal := 1 }
      have books' : Books { state with classes := classes, connects := replace AConnect.ptr new state.connects }
          nothing nothing nothing nothing := by
        refine ⟨settled.ledger.congr (fun ptr => ?_) fun ptr => (Int.add_zero _).symm, books.allows, books.opers,
          books.lost⟩
        have change := tally_replace AConnect.ptr (fun aconn => some aconn.cls) new shape.connects inside rfl ptr
        simp only [State.held, nothing, new] at change ⊢
        omega
      have shape' : Shape { state with connects := replace AConnect.ptr new state.connects } := by
        refine { shape with
          connects := Census.keys_replace AConnect.ptr new state.connects ▸ shape.connects
          used := fun cptr member ptr points => ?_
          connectsFresh := fun other present => ?_ }
        · obtain ⟨owned, there, rfl, acpt⟩ := shape.used cptr member ptr points
          by_cases same : owned.ptr = old.ptr
          · obtain rfl := List.inj_on_of_nodup_map shape.connects there inside same
            exact ⟨new, List.mem_map.mpr ⟨owned, there, if_pos rfl⟩, rfl, acpt⟩
          · exact ⟨owned, List.mem_map.mpr ⟨owned, there, if_neg same⟩, rfl, acpt⟩
        · rcases Census.mem_replace present with rfl | ⟨before, _⟩
          · exact shape.connectsFresh old inside
          · exact shape.connectsFresh other before
      obtain ⟨after, adds, forward⟩ := ih books' (shape'.settle settled.kin) (later classes settled.kin)
      refine ⟨after, ?_, Forward.trans ⟨books', shape'.settle settled.kin, settled.kin, settled.tidy, rfl⟩ forward⟩
      simp only [Blocks.addConnects, found, drops, Option.bind_eq_bind, Option.bind_some, finds, takes]
      exact adds
    | none =>
      obtain ⟨cl, classes, finds, takes, settled⟩ := books.joins called
      let new : AConnect := { aconn with ptr := state.next, cls := cl.ptr, legal := 1, acpt := none }
      have books' : Books { state with
          classes := classes, connects := new :: state.connects, next := state.next + 1 }
          nothing nothing nothing nothing := by
        refine ⟨settled.ledger.congr (fun ptr => ?_) fun ptr => (Int.add_zero _).symm, books.allows, books.opers,
          books.lost⟩
        simp only [State.held, tally_cons, nothing, new]
        omega
      have grown := shape.grow (Nat.le_succ state.next)
      have shape' : Shape { state with connects := new :: state.connects, next := state.next + 1 } := by
        refine { grown with
          connects := List.nodup_cons.mpr ⟨fun present => ?_, shape.connects⟩
          used := fun cptr member ptr points => ?_
          connectsFresh := fun other present => ?_ }
        · obtain ⟨other, inside, (same : other.ptr = state.next)⟩ := List.mem_map.mp present
          exact Nat.lt_irrefl state.next (same ▸ shape.connectsFresh other inside)
        · obtain ⟨owned, there, found⟩ := shape.used cptr member ptr points
          exact ⟨owned, List.mem_cons_of_mem _ there, found⟩
        · rcases List.mem_cons.mp present with rfl | before
          · exact Nat.lt_succ_self state.next
          · exact grown.connectsFresh other before
      obtain ⟨after, adds, forward⟩ := ih books' (shape'.settle settled.kin) (later classes settled.kin)
      refine ⟨after, ?_, Forward.trans ⟨books', shape'.settle settled.kin, settled.kin, settled.tidy, rfl⟩ forward⟩
      simp only [Blocks.addConnects, found, finds, Option.bind_eq_bind, Option.bind_some, takes]
      exact adds

/-- The Connect blocks that are neither read nor in use go. -/
theorem Books.mergeConnects (news : List AConnect) (books : Books state nothing nothing nothing nothing)
    (shape : Shape state) (serves : ∀ aconn ∈ news, Serves state.classes aconn.className) :
    ∃ after, Blocks.mergeConnects state news = some after ∧ Forward state after := by
  let marked := state.connects.map fun aconn => { aconn with legal := -1 }
  have keys : marked.map AConnect.ptr = state.connects.map AConnect.ptr := by simp [marked, Function.comp_def]
  have pointers : marked.map (fun aconn => some aconn.cls) = state.connects.map fun aconn => some aconn.cls := by
    simp [marked, Function.comp_def]
  have books' : Books { state with connects := marked } nothing nothing nothing nothing :=
    ⟨books.ledger.congr (fun ptr => by simp only [State.held, tally_congr pointers]) fun _ => rfl, books.allows,
      books.opers, books.lost⟩
  have shape' : Shape { state with connects := marked } := by
    refine { shape with
      connects := keys ▸ shape.connects
      used := fun cptr member ptr points => ?_
      connectsFresh := fun other present => ?_ }
    · obtain ⟨owned, there, same, acpt⟩ := shape.used cptr member ptr points
      exact ⟨_, List.mem_map_of_mem there, same, acpt⟩
    · obtain ⟨old, before, rfl⟩ := List.mem_map.mp present
      exact shape.connectsFresh old before
  obtain ⟨middle, adds, forward⟩ := books'.addConnects news shape' serves
  have ledger : Ledger middle.classes (fun ptr => State.held { middle with connects := [] } ptr +
      tally (fun aconn => some aconn.cls) middle.connects ptr) (tally AClient.cls middle.clients) := by
    refine forward.books.ledger.congr (fun ptr => ?_) fun ptr => Int.add_zero _
    have empty : tally (fun aconn : AConnect => some aconn.cls) [] ptr = 0 := rfl
    simp only [State.held, nothing, empty]
    omega
  obtain ⟨classes, prunes, settled⟩ := ledger.prunes (fun aconn => aconn.legal == -1 && aconn.acpt.isNone)
    AConnect.cls middle.connects (State.held_nonneg (by exact forward.books.lost))
  let after : State := { middle with
    connects := middle.connects.filter fun aconn => !(aconn.legal == -1 && aconn.acpt.isNone)
    classes := classes }
  have paid : Books after nothing nothing nothing nothing := by
    refine ⟨settled.ledger.congr (fun ptr => ?_) fun ptr => (Int.add_zero _).symm, forward.books.allows,
      forward.books.opers, forward.books.lost⟩
    have empty : tally (fun aconn : AConnect => some aconn.cls) [] ptr = 0 := rfl
    simp only [State.held, nothing, empty, after]
    omega
  have shape'' : Shape after := by
    refine { forward.shape.settle settled.kin with
      connects := forward.shape.connects.sublist (List.filter_sublist.map _)
      used := fun cptr member ptr points => ?_
      connectsFresh := fun other present => forward.shape.connectsFresh other (List.mem_of_mem_filter present) }
    obtain ⟨owned, there, same, acpt⟩ := forward.shape.used cptr member ptr points
    exact ⟨owned, List.mem_filter.mpr ⟨there, by simp [Option.isSome_iff_ne_none, acpt]⟩, same, acpt⟩
  refine ⟨after, ?_, paid, shape'', forward.kin.trans settled.kin, fun tidy => settled.tidy (forward.tidy tidy),
    forward.clients⟩
  simp only [Blocks.mergeConnects, Option.bind_eq_bind]
  rw [adds, Option.bind_some, prunes]
  rfl

/-- What changes in the allows but for their classes and their clients. -/
theorem Books.relabel (marked : List AAllow) (books : Books state nothing nothing nothing nothing) (shape : Shape state)
    (same : marked.map (fun allow : AAllow => (allow.ptr, allow.clients, allow.cls)) =
      state.allows.map fun allow => (allow.ptr, allow.clients, allow.cls)) :
    Books { state with allows := marked } nothing nothing nothing nothing ∧ Shape { state with allows := marked } := by
  have pointers : marked.map (fun allow => some allow.cls) = state.allows.map fun allow => some allow.cls := by
    simpa [Function.comp_def] using congrArg (List.map fun view => some view.2.2) same
  have counts : marked.map (fun allow => (allow.ptr, allow.clients)) =
      state.allows.map fun allow => (allow.ptr, allow.clients) := by
    simpa [Function.comp_def] using congrArg (List.map fun view => (view.1, view.2.1)) same
  have keys : marked.map AAllow.ptr = state.allows.map AAllow.ptr := by
    simpa [Function.comp_def] using congrArg (List.map Prod.fst) same
  refine ⟨⟨books.ledger.congr (fun ptr => by simp only [State.held, tally_congr pointers]) fun _ => rfl,
    books.allows.view counts, books.opers, books.lost⟩, { shape with allowsFresh := fun allow present => ?_ }⟩
  obtain ⟨old, before, equal⟩ := List.mem_map.mp (keys ▸ List.mem_map_of_mem (f := AAllow.ptr) present)
  exact equal ▸ shape.allowsFresh old before

/-- An allow that nobody has yet is added. -/
theorem Books.newAllow (books : Books state nothing nothing nothing nothing) (shape : Shape state) (new : AAllow)
    (settled : Settled state.classes classes (fun ptr => state.held ptr + one (some new.cls) ptr)
      (tally AClient.cls state.clients)) (ptr : new.ptr = state.next) (unused : new.clients = 0) :
    Forward state { state with classes := classes, allows := new :: state.allows, next := state.next + 1 } := by
  have grown := (shape.grow (Nat.le_succ state.next)).settle settled.kin
  have fresh : new.ptr ∉ state.allows.map AAllow.ptr := by
    intro present
    obtain ⟨other, inside, same⟩ := List.mem_map.mp present
    exact Nat.lt_irrefl state.next ((same.trans ptr) ▸ shape.allowsFresh other inside)
  refine ⟨⟨settled.ledger.congr (fun ptr => ?_) fun ptr => (Int.add_zero _).symm, books.allows.add new fresh unused,
    books.opers, books.lost⟩, { grown with allowsFresh := fun other present => ?_ }, settled.kin, settled.tidy, rfl⟩
  · simp only [State.held, tally_cons, nothing]
    omega
  · rcases List.mem_cons.mp present with rfl | before
    · exact ptr ▸ Nat.lt_succ_self state.next
    · exact grown.allowsFresh other before

/-- The allows that are read are added. -/
theorem Books.addAllows (news : List AAllow) (books : Books state nothing nothing nothing nothing)
    (shape : Shape state) (serves : ∀ allow ∈ news, Serves state.classes allow.className) :
    ∃ after, Blocks.addAllows news state = some after ∧ Forward state after := by
  induction news generalizing state with
  | nil => exact ⟨state, rfl, books, shape, Kin.refl _, id, rfl⟩
  | cons allow rest ih =>
    obtain ⟨cl, classes, finds, takes, settled⟩ := books.joins (serves allow List.mem_cons_self)
    have later : ∀ other ∈ rest, Serves classes other.className :=
      fun other member => settled.kin.serves (serves other (List.mem_cons_of_mem _ member))
    simp only [Blocks.addAllows, finds, Option.bind_eq_bind, Option.bind_some, takes]
    split
    next =>
      have forward := books.newAllow shape
        { allow with ptr := state.next, cls := cl.ptr, legal := 0, clients := 0 } settled rfl rfl
      obtain ⟨after, adds, forward'⟩ := ih forward.books forward.shape later
      exact ⟨after, adds, forward.trans forward'⟩
    next ptr found =>
      have inside := List.mem_of_find?_eq_some found
      obtain ⟨books', shape'⟩ := books.relabel (replace AAllow.ptr { ptr with legal := 1 } state.allows) shape
        (Census.map_replace _ books.allows.distinct inside rfl rfl)
      have settled' : Settled state.classes classes (fun other => State.held { state with
          allows := replace AAllow.ptr { ptr with legal := 1 } state.allows } other + one (some cl.ptr) other)
          (tally AClient.cls state.clients) := by
        refine settled.congr (fun other => ?_) fun _ => rfl
        have change := tally_replace AAllow.ptr (fun allow => some allow.cls) { ptr with legal := 1 }
          books.allows.distinct inside rfl other
        simp only [State.held] at change ⊢
        omega
      have forward := books'.newAllow shape'
        { allow with ptr := state.next, cls := cl.ptr, legal := -1, clients := 0 } settled' rfl rfl
      obtain ⟨after, adds, forward'⟩ := ih forward.books forward.shape later
      exact ⟨after, adds, Forward.trans ⟨forward.books, forward.shape, forward.kin, forward.tidy, rfl⟩ forward'⟩

/-- The allows that are neither read nor in use go, and none is left of them. -/
theorem Books.mergeAllows (news : List AAllow) (books : Books state nothing nothing nothing nothing)
    (shape : Shape state) (serves : ∀ allow ∈ news, Serves state.classes allow.className) :
    ∃ after, Blocks.mergeAllows state news = some after ∧ Forward state after ∧ allowKind.Tidy after.allows := by
  obtain ⟨books', shape'⟩ := books.relabel (state.allows.map fun allow => { allow with legal := -1 }) shape
    (by simp [Function.comp_def])
  obtain ⟨middle, adds, forward⟩ := books'.addAllows news shape' serves
  have ledger : Ledger middle.classes (fun ptr => State.held { middle with allows := [] } ptr +
      tally (fun allow => some allow.cls) middle.allows ptr) (tally AClient.cls middle.clients) := by
    refine forward.books.ledger.congr (fun ptr => ?_) fun ptr => Int.add_zero _
    have empty : tally (fun allow : AAllow => some allow.cls) [] ptr = 0 := rfl
    simp only [State.held, nothing, empty]
    omega
  obtain ⟨classes, prunes, settled⟩ := ledger.prunes allowKind.gone AAllow.cls middle.allows
    (State.held_nonneg (by exact forward.books.lost))
  let after : State := { middle with allows := allowKind.sweep middle.allows, classes := classes }
  have paid : Books after nothing nothing nothing nothing := by
    refine ⟨settled.ledger.congr (fun ptr => ?_) fun ptr => (Int.add_zero _).symm, forward.books.allows.sweep fun ptr =>
      Int.add_nonneg (tally_nonneg _ _ ptr) (Int.le_refl 0), forward.books.opers, forward.books.lost⟩
    have empty : tally (fun allow : AAllow => some allow.cls) [] ptr = 0 := rfl
    simp only [State.held, nothing, empty, after, Kind.sweep]
    omega
  have shape'' : Shape after := { forward.shape.settle settled.kin with
    allowsFresh := fun other present => forward.shape.allowsFresh other (List.mem_of_mem_filter present) }
  refine ⟨after, ?_, ⟨paid, shape'', forward.kin.trans settled.kin, fun tidy => settled.tidy (forward.tidy tidy),
    forward.clients⟩, Refs.tidy_sweep allowKind _⟩
  simp only [Blocks.mergeAllows, Option.bind_eq_bind]
  rw [adds, Option.bind_some]
  exact (congrArg (fun found => Option.bind found _) prunes)

/-- The operators that are read are merged; nothing happens to the allows. -/
theorem Books.addOpers (news : List AOper) (books : Books state nothing nothing nothing nothing)
    (shape : Shape state) (serves : ∀ aoper ∈ news, Serves state.classes aoper.className) :
    ∃ after, Blocks.addOpers news state = some after ∧ Forward state after ∧ after.allows = state.allows := by
  induction news generalizing state with
  | nil => exact ⟨state, rfl, ⟨books, shape, Kin.refl _, id, rfl⟩, rfl⟩
  | cons aoper rest ih =>
    have called := serves aoper List.mem_cons_self
    have later (classes : List AClass) (kin : Kin state.classes classes) :
        ∀ other ∈ rest, Serves classes other.className :=
      fun other member => kin.serves (serves other (List.mem_cons_of_mem _ member))
    cases found : findOperByname state.opers aoper.nick with
    | some old =>
      have inside := List.mem_of_find?_eq_some found
      obtain ⟨dropped, cl, classes, drops, finds, takes, settled⟩ := books.moves old.cls (fun ptr => by
        have := one_le_tally (fun aoper : AOper => some aoper.cls) inside ptr
        have := tally_nonneg AClient.cls state.clients ptr
        have := tally_nonneg (fun allow : AAllow => some allow.cls) state.allows ptr
        have := tally_nonneg (fun aconn : AConnect => some aconn.cls) state.connects ptr
        have := books.lost ptr
        simp only [State.held]
        omega) called
      let new : AOper := { old with
        hosts := aoper.hosts, passwd := aoper.passwd, className := aoper.className, cls := cl.ptr,
        flags := aoper.flags, legal := 1 }
      have forward : Forward state { state with classes := classes, opers := replace AOper.ptr new state.opers } := by
        refine ⟨⟨settled.ledger.congr (fun ptr => ?_) fun ptr => (Int.add_zero _).symm, books.allows,
          books.opers.view (Census.map_replace _ books.opers.distinct inside rfl rfl), books.lost⟩,
          { shape.settle settled.kin with opersFresh := fun other present => ?_ }, settled.kin, settled.tidy, rfl⟩
        · have change := tally_replace AOper.ptr (fun aoper => some aoper.cls) new books.opers.distinct inside rfl ptr
          simp only [State.held, nothing, new] at change ⊢
          omega
        · rcases Census.mem_replace present with rfl | ⟨before, _⟩
          · exact shape.opersFresh old inside
          · exact shape.opersFresh other before
      obtain ⟨after, adds, forward', same⟩ := ih forward.books forward.shape (later classes settled.kin)
      refine ⟨after, ?_, forward.trans forward', same⟩
      simp only [Blocks.addOpers, found, drops, Option.bind_eq_bind, Option.bind_some, finds, takes]
      exact adds
    | none =>
      obtain ⟨cl, classes, finds, takes, settled⟩ := books.joins called
      let new : AOper := { aoper with ptr := state.next, cls := cl.ptr, legal := 1, opers := 0 }
      have grown := (shape.grow (Nat.le_succ state.next)).settle settled.kin
      have fresh : new.ptr ∉ state.opers.map AOper.ptr := by
        intro present
        obtain ⟨other, inside, (same : other.ptr = state.next)⟩ := List.mem_map.mp present
        exact Nat.lt_irrefl state.next (same ▸ shape.opersFresh other inside)
      have forward : Forward state { state with
          classes := classes, opers := new :: state.opers, next := state.next + 1 } := by
        refine ⟨⟨settled.ledger.congr (fun ptr => ?_) fun ptr => (Int.add_zero _).symm, books.allows,
          books.opers.add new fresh rfl, books.lost⟩, { grown with opersFresh := fun other present => ?_ },
          settled.kin, settled.tidy, rfl⟩
        · simp only [State.held, tally_cons, nothing, new]
          omega
        · rcases List.mem_cons.mp present with rfl | before
          · exact Nat.lt_succ_self state.next
          · exact grown.opersFresh other before
      obtain ⟨after, adds, forward', same⟩ := ih forward.books forward.shape (later classes settled.kin)
      refine ⟨after, ?_, forward.trans forward', same⟩
      simp only [Blocks.addOpers, found, finds, Option.bind_eq_bind, Option.bind_some, takes]
      exact adds

/-- What goes is counted on its own. -/
theorem tally_sweep (goes : AOper → Bool) (opers : List AOper) (ptr : Ptr) :
    tally (fun aoper => some aoper.cls) (opers.filter fun aoper => !goes aoper) ptr +
      Census.total (fun aoper : AOper => if goes aoper ∧ aoper.cls = ptr then 1 else 0) opers =
        tally (fun aoper => some aoper.cls) opers ptr := by
  induction opers with
  | nil => rfl
  | cons aoper rest ih =>
    rw [tally_cons, Census.total, one_some]
    cases up : goes aoper with
    | true =>
      rw [List.filter_cons_of_neg (by simp [up])]
      simp only [true_and, eq_comm (a := aoper.cls)]
      omega
    | false =>
      rw [List.filter_cons_of_pos (by simp [up]), tally_cons, one_some]
      simp only [Bool.false_eq_true, false_and, if_false]
      omega

/-- The operators that are neither read nor in use go; their classes are not told. -/
theorem Books.mergeOpers (news : List AOper) (books : Books state nothing nothing nothing nothing)
    (shape : Shape state) (serves : ∀ aoper ∈ news, Serves state.classes aoper.className) :
    ∃ after, Blocks.mergeOpers state news = some after ∧ Forward state after ∧ after.allows = state.allows := by
  let marked := state.opers.map fun aoper => { aoper with legal := -1 }
  have pointers : marked.map (fun aoper => some aoper.cls) = state.opers.map fun aoper => some aoper.cls := by
    simp [marked, Function.comp_def]
  have books' : Books { state with opers := marked } nothing nothing nothing nothing :=
    ⟨books.ledger.congr (fun ptr => by simp only [State.held, tally_congr pointers]) fun _ => rfl, books.allows,
      books.opers.map (fun aoper => { aoper with legal := -1 }) fun _ _ => ⟨rfl, rfl⟩, books.lost⟩
  have shape' : Shape { state with opers := marked } := by
    refine { shape with opersFresh := fun other present => ?_ }
    obtain ⟨old, before, rfl⟩ := List.mem_map.mp present
    exact shape.opersFresh old before
  obtain ⟨middle, adds, forward, same⟩ := books'.addOpers news shape' serves
  have told (ptr : Ptr) : 0 ≤ Census.total
      (fun aoper : AOper => if operKind.gone aoper ∧ aoper.cls = ptr then 1 else 0) middle.opers := by
    induction middle.opers with
    | nil => exact Int.le_refl 0
    | cons aoper rest ih =>
      rw [Census.total]
      split_ifs <;> omega
  let after : State := { middle with
    opers := operKind.sweep middle.opers
    lost := fun cl => middle.lost cl +
      Census.total (fun aoper : AOper => if operKind.gone aoper ∧ aoper.cls = cl then 1 else 0) middle.opers }
  have paid : Books after nothing nothing nothing nothing := by
    refine ⟨forward.books.ledger.congr (fun ptr => ?_) fun _ => rfl, forward.books.allows,
      forward.books.opers.sweep fun ptr => Int.add_nonneg (tally_nonneg _ _ ptr) (Int.le_refl 0),
      fun ptr => Int.add_nonneg (forward.books.lost ptr) (told ptr)⟩
    have split := tally_sweep operKind.gone middle.opers ptr
    simp only [State.held, after, Kind.sweep]
    omega
  have shape'' : Shape after := { forward.shape with
    opersFresh := fun other present => forward.shape.opersFresh other (List.mem_of_mem_filter present) }
  refine ⟨after, ?_, ⟨paid, shape'', forward.kin, forward.tidy, forward.clients⟩, same⟩
  simp only [Blocks.mergeOpers, Option.bind_eq_bind]
  rw [adds, Option.bind_some]
  rfl

/-- What comes of a configuration that is merged. -/
theorem Books.mergeConfs (conf : Conf) (books : Books state nothing nothing nothing nothing) (shape : Shape state)
    (wanted : ∀ cl ∈ conf.classes, cl.maxlinks ≠ -1) (default : Reads conf.classes none)
    (classes : setClasses conf = true) :
    ∃ after, Blocks.mergeConfs state conf = some after ∧ Steady after ∧ after.clients = state.clients := by
  simp only [setClasses, Bool.and_eq_true, List.all_eq_true] at classes
  obtain ⟨⟨connects, allows⟩, opers⟩ := classes
  obtain ⟨books₁, shape₁, tidy, serves⟩ := books.mergeClasses shape conf.classes wanted
  obtain ⟨two, merges, forward⟩ := books₁.mergeConnects conf.connects shape₁ fun aconn member =>
    serves _ (connects aconn member)
  obtain ⟨three, merges', forward', tidy'⟩ := forward.books.mergeAllows conf.allows forward.shape fun allow member =>
    forward.kin.serves (serves _ (allows allow member))
  have kin := forward.kin.trans forward'.kin
  obtain ⟨four, merges'', forward'', same⟩ := forward'.books.mergeOpers conf.opers forward'.shape fun aoper member =>
    kin.serves (serves _ (opers aoper member))
  refine ⟨four, ?_, ⟨forward''.books, forward''.shape, (kin.trans forward''.kin).serves (serves none default),
    forward''.tidy (forward'.tidy (forward.tidy tidy)), same ▸ tidy'⟩,
    forward''.clients.trans (forward'.clients.trans forward.clients)⟩
  simp only [Blocks.mergeConfs, merges, Option.bind_eq_bind, Option.bind_some, merges', merges'']

/-- Whatever is read, nothing that is in use is lost. -/
theorem Sound.rehash (sound : Sound state) (conf : Conf) (wanted : ∀ cl ∈ conf.classes, cl.maxlinks ≠ -1)
    (default : Reads conf.classes none) : ∃ after, Blocks.rehash state conf = some after ∧ Sound after := by
  unfold Blocks.rehash
  split
  next classes =>
    obtain ⟨after, merges, steady, clients⟩ := sound.books.mergeConfs conf sound.shape wanted default classes
    exact ⟨after, merges, steady, clients ▸ sound.fresh⟩
  next => exact ⟨state, rfl, sound⟩

end

end SolidIrcd.Blocks
