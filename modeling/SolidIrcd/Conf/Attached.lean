import SolidIrcd.Conf.Ledger

/-! The books are kept: what a block counts are those that are attached to it, whoever comes and goes. -/

namespace SolidIrcd.Blocks

open Scan (Text)
open Census (replace)
open Refs (Kind)

def allowKind : Kind AAllow Ptr where
  key := AAllow.ptr
  count := AAllow.clients
  gone := fun allow => allow.legal == -1 && decide (allow.clients ≤ 0)
  put := fun allow clients => { allow with clients := clients }
  key_put := fun _ _ => rfl
  count_put := fun _ _ => rfl
  gone_count := fun allow gone => by simp only [Bool.and_eq_true, decide_eq_true_eq] at gone; exact gone.2

def operKind : Kind AOper Ptr where
  key := AOper.ptr
  count := AOper.opers
  gone := fun aoper => aoper.legal == -1 && decide (aoper.opers ≤ 0)
  put := fun aoper opers => { aoper with opers := opers }
  key_put := fun _ _ => rfl
  count_put := fun _ _ => rfl
  gone_count := fun aoper gone => by simp only [Bool.and_eq_true, decide_eq_true_eq] at gone; exact gone.2

/-- How many hold a class. -/
def State.held (state : State) (ptr : Ptr) : Int :=
  tally AClient.cls state.clients ptr + tally (fun allow => some allow.cls) state.allows ptr +
    tally (fun aoper => some aoper.cls) state.opers ptr + tally (fun aconn => some aconn.cls) state.connects ptr +
    state.lost ptr

/-- The books, with what is owed by a client that is between two states: `cls` to the references of classes, `links` to
their connections, `allow` and `oper` to those blocks. -/
structure Books (state : State) (cls links allow oper : Ptr → Int) : Prop where
  ledger : Ledger state.classes (fun ptr => state.held ptr + cls ptr) fun ptr =>
    tally AClient.cls state.clients ptr + links ptr
  allows : allowKind.Held state.allows fun ptr => tally AClient.allow state.clients ptr + allow ptr
  opers : operKind.Held state.opers fun ptr => tally AClient.oper state.clients ptr + oper ptr
  lost : ∀ ptr, 0 ≤ state.lost ptr

/-- Of the blocks and the clients, all but the counts. -/
structure Shape (state : State) : Prop where
  clients : (state.clients.map AClient.ptr).Nodup
  connects : (state.connects.map AConnect.ptr).Nodup
  used : ∀ cptr ∈ state.clients, ∀ ptr, cptr.aconn = some ptr →
    ∃ aconn ∈ state.connects, aconn.ptr = ptr ∧ aconn.acpt ≠ none
  servers : ∀ cptr ∈ state.clients, cptr.status = .server → cptr.aconn ≠ none ∧ cptr.allow = none ∧ cptr.oper = none
  clientsFresh : ∀ cptr ∈ state.clients, cptr.ptr < state.next
  classesFresh : ∀ cl ∈ state.classes, cl.ptr < state.next
  allowsFresh : ∀ allow ∈ state.allows, allow.ptr < state.next
  opersFresh : ∀ aoper ∈ state.opers, aoper.ptr < state.next
  connectsFresh : ∀ aconn ∈ state.connects, aconn.ptr < state.next

/-- Nothing is owed. -/
def nothing (_ : Ptr) : Int := 0

/-- The books are right and nobody owes anything. -/
structure Steady (state : State) : Prop where
  books : Books state nothing nothing nothing nothing
  shape : Shape state
  serves : Serves state.classes none
  tidyClasses : classKind.Tidy state.classes
  tidyAllows : allowKind.Tidy state.allows

/-- A connection that is not registered has no allow and is no operator. -/
def Fresh (clients : List AClient) : Prop :=
  ∀ cptr ∈ clients, cptr.status = .unknown → cptr.allow = none ∧ cptr.oper = none

structure Sound (state : State) : Prop extends Steady state where
  fresh : Fresh state.clients

/-- What stays when the blocks of a client are cleared. -/
structure Kept (state after : State) : Prop where
  clients : after.clients = state.clients
  next : after.next = state.next
  kin : Kin state.classes after.classes
  tidyClasses : classKind.Tidy state.classes → classKind.Tidy after.classes
  tidyAllows : allowKind.Tidy state.allows → allowKind.Tidy after.allows

theorem Kept.refl (state : State) : Kept state state := ⟨rfl, rfl, Kin.refl _, id, id⟩

theorem Kept.trans (first : Kept state middle) (second : Kept middle after) : Kept state after :=
  ⟨second.clients.trans first.clients, second.next.trans first.next, first.kin.trans second.kin,
    fun tidy => second.tidyClasses (first.tidyClasses tidy), fun tidy => second.tidyAllows (first.tidyAllows tidy)⟩

section

variable {state : State} {cls links allow oper : Ptr → Int} {cptr : AClient}

theorem State.held_nonneg (lost : ∀ ptr, 0 ≤ state.lost ptr) (ptr : Ptr) : 0 ≤ state.held ptr := by
  have clients := tally_nonneg AClient.cls state.clients ptr
  have allows := tally_nonneg (fun allow : AAllow => some allow.cls) state.allows ptr
  have opers := tally_nonneg (fun aoper : AOper => some aoper.cls) state.opers ptr
  have connects := tally_nonneg (fun aconn : AConnect => some aconn.cls) state.connects ptr
  have := lost ptr
  unfold State.held
  omega

theorem Books.congr (books : Books state cls links allow oper) (cls' : ∀ ptr, cls ptr = other ptr)
    (links' : ∀ ptr, links ptr = others ptr) (allow' : ∀ ptr, allow ptr = another ptr)
    (oper' : ∀ ptr, oper ptr = last ptr) : Books state other others another last := by
  obtain rfl := funext cls'
  obtain rfl := funext links'
  obtain rfl := funext allow'
  obtain rfl := funext oper'
  exact books

/-- Other clients, and what is owed by them. -/
theorem Books.clients (books : Books state cls links allow oper) (clients : List AClient)
    (debt : (AClient → Option Ptr) → Ptr → Int)
    (change : ∀ field ptr, tally field clients ptr = tally field state.clients ptr - debt field ptr) :
    Books { state with clients := clients } (fun ptr => cls ptr + debt AClient.cls ptr)
      (fun ptr => links ptr + debt AClient.cls ptr) (fun ptr => allow ptr + debt AClient.allow ptr)
      (fun ptr => oper ptr + debt AClient.oper ptr) := by
  refine ⟨books.ledger.congr (fun ptr => ?_) fun ptr => ?_, ?_, ?_, books.lost⟩
  · simp only [State.held, change]
    omega
  · simp only [change]
    omega
  · convert books.allows using 2 with ptr
    simp only [change]
    omega
  · convert books.opers using 2 with ptr
    simp only [change]
    omega

/-- What a client owes when it changes. -/
theorem Books.change (new : AClient) (books : Books state cls links allow oper)
    (distinct : (state.clients.map AClient.ptr).Nodup) (member : cptr ∈ state.clients) (same : new.ptr = cptr.ptr) :
    Books { state with clients := replace AClient.ptr new state.clients }
      (fun ptr => cls ptr + (one cptr.cls ptr - one new.cls ptr))
      (fun ptr => links ptr + (one cptr.cls ptr - one new.cls ptr))
      (fun ptr => allow ptr + (one cptr.allow ptr - one new.allow ptr))
      (fun ptr => oper ptr + (one cptr.oper ptr - one new.oper ptr)) := by
  apply books.clients _ fun field ptr => one (field cptr) ptr - one (field new) ptr
  intro field ptr
  rw [tally_replace AClient.ptr field new distinct member same.symm]
  omega

/-- What a client owes when it is taken out of the list. -/
theorem Books.without (books : Books state cls links allow oper) (distinct : (state.clients.map AClient.ptr).Nodup)
    (member : cptr ∈ state.clients) :
    Books { state with clients := state.clients.filter fun other => other.ptr ≠ cptr.ptr }
      (fun ptr => cls ptr + one cptr.cls ptr) (fun ptr => links ptr + one cptr.cls ptr)
      (fun ptr => allow ptr + one cptr.allow ptr) (fun ptr => oper ptr + one cptr.oper ptr) := by
  apply books.clients _ fun field ptr => one (field cptr) ptr
  intro field ptr
  exact tally_remove AClient.ptr field distinct member ptr

/-- A block is gone, and gives up its class. -/
theorem Books.drop (cl : Ptr) (books : Books state (fun ptr => cls ptr + one (some cl) ptr) links allow oper)
    (owes : ∀ ptr, 0 ≤ cls ptr) :
    ∃ classes, dropClass state.classes cl = some classes ∧
      Books { state with classes := classes } cls links allow oper ∧ Kin state.classes classes ∧
      (classKind.Tidy state.classes → classKind.Tidy classes) := by
  have owing : Ledger state.classes (fun ptr => state.held ptr + cls ptr + one (some cl) ptr) fun ptr =>
      tally AClient.cls state.clients ptr + links ptr :=
    books.ledger.congr (fun ptr => (Int.add_assoc _ _ _).symm) fun _ => rfl
  obtain ⟨classes, drops, settled⟩ := owing.drop cl fun ptr =>
    Int.add_nonneg (State.held_nonneg books.lost ptr) (owes ptr)
  exact ⟨classes, drops, ⟨settled.ledger, books.allows, books.opers, books.lost⟩, settled.kin, settled.tidy⟩

theorem Shape.settle (shape : Shape state) (kin : Kin state.classes classes) :
    Shape { state with classes := classes } := by
  refine { shape with classesFresh := ?_ }
  intro cl' inside
  obtain ⟨cl, before, same, _⟩ := kin.sub cl' inside
  exact same ▸ shape.classesFresh cl before

/-- A client changes, and stays with its Connect block. -/
theorem Shape.change (new : AClient) (shape : Shape state) (member : cptr ∈ state.clients) (same : new.ptr = cptr.ptr)
    (conn : new.aconn = cptr.aconn)
    (server : new.status = .server → new.aconn ≠ none ∧ new.allow = none ∧ new.oper = none) :
    Shape { state with clients := replace AClient.ptr new state.clients } := by
  refine { shape with
    clients := Census.keys_replace AClient.ptr new state.clients ▸ shape.clients
    used := ?_
    servers := ?_
    clientsFresh := ?_ }
  · intro other inside ptr points
    rcases Census.mem_replace inside with rfl | ⟨before, _⟩
    · exact shape.used cptr member ptr (conn ▸ points)
    · exact shape.used other before ptr points
  · intro other inside up
    rcases Census.mem_replace inside with rfl | ⟨before, _⟩
    · exact server up
    · exact shape.servers other before up
  · intro other inside
    rcases Census.mem_replace inside with rfl | ⟨before, _⟩
    · exact same ▸ shape.clientsFresh cptr member
    · exact shape.clientsFresh other before

theorem Shape.without (shape : Shape state) (stays : AClient → Bool) :
    Shape { state with clients := state.clients.filter stays } :=
  { shape with
    clients := shape.clients.sublist (List.filter_sublist.map _)
    used := fun other inside => shape.used other (List.mem_of_mem_filter inside)
    servers := fun other inside => shape.servers other (List.mem_of_mem_filter inside)
    clientsFresh := fun other inside => shape.clientsFresh other (List.mem_of_mem_filter inside) }

end

section

variable {ω : Type} {kind : Kind ω Ptr} {objects : List ω} {object : ω}

/-- What is written into an object changes its count. -/
theorem replace_eq_adjust (distinct : (objects.map kind.key).Nodup) (member : object ∈ objects) (more : Int) :
    replace kind.key (kind.put object (kind.count object + more)) objects =
      kind.adjust (kind.key object) more objects := by
  apply List.map_congr_left
  intro other inside
  rw [kind.key_put]
  by_cases same : kind.key other = kind.key object
  · rw [if_pos same, if_pos same, List.inj_on_of_nodup_map distinct inside member same]
  · rw [if_neg same, if_neg same]

/-- An object is taken out of its list when it is to go, and else its count has changed. -/
theorem release_eq (distinct : (objects.map kind.key).Nodup) (member : object ∈ objects) :
    kind.release (kind.key object) objects =
      if kind.gone (kind.put object (kind.count object - 1)) = true then
        (replace kind.key (kind.put object (kind.count object - 1)) objects).filter fun other =>
          decide (kind.key other ≠ kind.key object)
      else replace kind.key (kind.put object (kind.count object - 1)) objects := by
  have adjusted := replace_eq_adjust distinct member (-1)
  rw [← Int.sub_eq_add_neg] at adjusted
  have only (other : ω) (inside : other ∈ replace kind.key (kind.put object (kind.count object - 1)) objects)
      (same : kind.key other = kind.key object) : other = kind.put object (kind.count object - 1) := by
    rcases Census.mem_replace inside with equal | ⟨_, differs⟩
    · exact equal
    · rw [kind.key_put] at differs
      exact absurd same differs
  rw [Kind.release, ← adjusted]
  split_ifs with gone
  · apply List.filter_congr
    intro other inside
    by_cases same : kind.key other = kind.key object
    · simp [only other inside same, kind.key_put, gone]
    · simp [same]
  · apply List.filter_eq_self.mpr
    intro other inside
    by_cases same : kind.key other = kind.key object
    · simp [only other inside same, gone]
    · simp [same]

end

section

variable {ω : Type} {kind : Kind ω Ptr} {objects : List ω} {holders : Ptr → Int}

theorem find_ptr {key : ω → Ptr} (present : ptr ∈ objects.map key) :
    ∃ object ∈ objects, key object = ptr ∧ objects.find? (fun other => key other = ptr) = some object := by
  cases found : objects.find? fun other => key other = ptr with
  | none =>
    obtain ⟨object, inside, same⟩ := List.mem_map.mp present
    exact absurd (List.find?_eq_none.mp found object inside) (by simpa using same)
  | some object =>
    exact ⟨object, List.mem_of_find?_eq_some found, by simpa using List.find?_some found, rfl⟩

theorem find_eq {key : ω → Ptr} (distinct : (objects.map key).Nodup) (inside : object ∈ objects) :
    objects.find? (fun other => key other = key object) = some object := by
  obtain ⟨found, member, same, eq⟩ := find_ptr (List.mem_map_of_mem (f := key) inside)
  rw [eq, List.inj_on_of_nodup_map distinct member inside same]

/-- One that holds an object lets go of it. -/
theorem lets_go (field : ω → Option Ptr) (ptr : Ptr)
    (held : kind.Held objects fun other => holders other + one (some ptr) other) (owes : ∀ other, 0 ≤ holders other)
    (same : ∀ object number, field (kind.put object number) = field object) :
    ∃ x ∈ objects, kind.key x = ptr ∧ objects.find? (fun other => kind.key other = ptr) = some x ∧
      (∀ other ∈ replace kind.key (kind.put x (kind.count x - 1)) objects, kind.key other ∈ objects.map kind.key) ∧
      if kind.gone (kind.put x (kind.count x - 1)) = true then
        kind.release ptr objects = (replace kind.key (kind.put x (kind.count x - 1)) objects).filter (fun other =>
          decide (kind.key other ≠ ptr)) ∧ kind.Held (kind.release ptr objects) holders ∧
        ∀ other, tally field (kind.release ptr objects) other + one (field x) other = tally field objects other
      else
        kind.release ptr objects = replace kind.key (kind.put x (kind.count x - 1)) objects ∧
        kind.Held (kind.release ptr objects) holders ∧
        ∀ other, tally field (kind.release ptr objects) other = tally field objects other := by
  have present : ptr ∈ objects.map kind.key := by
    apply held.live
    have := owes ptr
    rw [one_some, if_pos rfl]
    omega
  obtain ⟨x, inside, rfl, found⟩ := find_ptr present
  have released := held.release holders present (fun other => by rw [one_some]) owes
  have splits := release_eq held.distinct inside
  have known : ∀ other ∈ replace kind.key (kind.put x (kind.count x - 1)) objects,
      kind.key other ∈ objects.map kind.key := by
    intro other member
    rw [← Census.keys_replace kind.key (kind.put x (kind.count x - 1)) objects]
    exact List.mem_map_of_mem member
  have kept (other : Ptr) : tally field (replace kind.key (kind.put x (kind.count x - 1)) objects) other =
      tally field objects other := by
    rw [tally_replace kind.key field _ held.distinct inside (kind.key_put x _).symm, same]
    omega
  refine ⟨x, inside, rfl, found, known, ?_⟩
  split_ifs at splits ⊢ with goes
  · refine ⟨splits, released, fun other => ?_⟩
    have there : kind.put x (kind.count x - 1) ∈ replace kind.key (kind.put x (kind.count x - 1)) objects :=
      List.mem_map.mpr ⟨x, inside, if_pos (kind.key_put x _).symm⟩
    have less := tally_remove kind.key field
      (Census.keys_replace kind.key (kind.put x (kind.count x - 1)) objects ▸ held.distinct) there other
    rw [kind.key_put, same, kept] at less
    rw [splits, less]
    omega
  · exact ⟨splits, released, fun other => splits ▸ kept other⟩

end

section

variable {state : State} {cls links allow oper : Ptr → Int} {cptr : AClient}

theorem Books.clearAllow (cptr : AClient)
    (books : Books state cls links (fun ptr => allow ptr + one cptr.allow ptr) oper) (shape : Shape state)
    (owes : ∀ ptr, 0 ≤ cls ptr) (owes' : ∀ ptr, 0 ≤ allow ptr) :
    ∃ after, Blocks.clearAllow state cptr = some after ∧ Books after cls links allow oper ∧ Shape after ∧
      Kept state after := by
  cases pointer : cptr.allow with
  | none =>
    refine ⟨state, by simp only [Blocks.clearAllow, pointer], ?_, shape, Kept.refl state⟩
    exact books.congr (fun _ => rfl) (fun _ => rfl) (fun ptr => by simp [pointer]) (fun _ => rfl)
  | some ptr =>
    rw [pointer] at books
    have held : allowKind.Held state.allows fun other =>
        tally AClient.allow state.clients other + allow other + one (some ptr) other := by
      simpa only [Int.add_assoc] using books.allows
    obtain ⟨x, inside, (at' : x.ptr = ptr), (found : state.allowAt ptr = some x), known, splits⟩ :=
      lets_go (fun allow => some allow.cls) ptr held
        (fun other => Int.add_nonneg (tally_nonneg _ _ _) (owes' other)) fun _ _ => rfl
    subst at'
    have fresh : ∀ allow ∈ replace AAllow.ptr { x with clients := x.clients - 1 } state.allows,
        allow.ptr < state.next := by
      intro allow member
      obtain ⟨old, before, (same : old.ptr = allow.ptr)⟩ := List.mem_map.mp (known allow member)
      exact same ▸ shape.allowsFresh old before
    have gone : allowKind.gone (allowKind.put x (allowKind.count x - 1)) = true ↔
        x.clients - 1 ≤ 0 ∧ x.legal = -1 := by
      simp [allowKind, and_comm]
    by_cases goes : x.clients - 1 ≤ 0 ∧ x.legal = -1
    · rw [if_pos (gone.mpr goes)] at splits
      obtain ⟨shrinks, held', fewer⟩ := splits
      have shape' : Shape { state with allows := allowKind.release x.ptr state.allows } :=
        { shape with allowsFresh := fun allow member => fresh allow (List.mem_of_mem_filter (shrinks ▸ member)) }
      have books' : Books { state with allows := allowKind.release x.ptr state.allows }
          (fun ptr => cls ptr + one (some x.cls) ptr) links allow oper := by
        refine ⟨books.ledger.congr (fun ptr => ?_) fun _ => rfl, held', books.opers, books.lost⟩
        have less := fewer ptr
        simp only [State.held]
        omega
      obtain ⟨classes, drops, books'', kin, tidy⟩ := books'.drop x.cls owes
      refine ⟨{ state with classes := classes, allows := allowKind.release x.ptr state.allows }, ?_,
        books'', shape'.settle kin, rfl, rfl, kin, tidy, fun tidy => tidy.release x.ptr⟩
      rw [shrinks]
      simp only [Blocks.clearAllow, pointer, found, Option.bind_eq_bind, Option.bind_some, if_pos goes, drops]
      rfl
    · rw [if_neg (gone.not.mpr goes)] at splits
      obtain ⟨shrinks, held', same⟩ := splits
      have books' : Books { state with allows := allowKind.release x.ptr state.allows } cls links allow oper :=
        ⟨books.ledger.congr (fun ptr => by simp only [State.held, same ptr]) fun _ => rfl, held', books.opers,
          books.lost⟩
      refine ⟨_, ?_, books', { shape with allowsFresh := fun allow member => fresh allow (shrinks ▸ member) }, rfl, rfl,
        Kin.refl _, id, fun tidy => tidy.release x.ptr⟩
      rw [shrinks]
      simp only [Blocks.clearAllow, pointer, found, Option.bind_eq_bind, Option.bind_some, if_neg goes]
      rfl

theorem Books.clearOper (cptr : AClient)
    (books : Books state cls links allow fun ptr => oper ptr + one cptr.oper ptr) (shape : Shape state)
    (owes : ∀ ptr, 0 ≤ cls ptr) (owes' : ∀ ptr, 0 ≤ oper ptr) :
    ∃ after, Blocks.clearOper state cptr = some after ∧ Books after cls links allow oper ∧ Shape after ∧
      Kept state after := by
  cases pointer : cptr.oper with
  | none =>
    refine ⟨state, by simp only [Blocks.clearOper, pointer], ?_, shape, Kept.refl state⟩
    exact books.congr (fun _ => rfl) (fun _ => rfl) (fun _ => rfl) fun ptr => by simp [pointer]
  | some ptr =>
    rw [pointer] at books
    have held : operKind.Held state.opers fun other =>
        tally AClient.oper state.clients other + oper other + one (some ptr) other := by
      simpa only [Int.add_assoc] using books.opers
    obtain ⟨x, inside, (at' : x.ptr = ptr), (found : state.operAt ptr = some x), known, splits⟩ :=
      lets_go (fun aoper => some aoper.cls) ptr held
        (fun other => Int.add_nonneg (tally_nonneg _ _ _) (owes' other)) fun _ _ => rfl
    subst at'
    have fresh : ∀ aoper ∈ replace AOper.ptr { x with opers := x.opers - 1 } state.opers,
        aoper.ptr < state.next := by
      intro aoper member
      obtain ⟨old, before, (same : old.ptr = aoper.ptr)⟩ := List.mem_map.mp (known aoper member)
      exact same ▸ shape.opersFresh old before
    have gone : operKind.gone (operKind.put x (operKind.count x - 1)) = true ↔
        x.legal = -1 ∧ x.opers - 1 ≤ 0 := by
      simp [operKind]
    by_cases goes : x.legal = -1 ∧ x.opers - 1 ≤ 0
    · rw [if_pos (gone.mpr goes)] at splits
      obtain ⟨shrinks, held', fewer⟩ := splits
      have shape' : Shape { state with opers := operKind.release x.ptr state.opers } :=
        { shape with opersFresh := fun aoper member => fresh aoper (List.mem_of_mem_filter (shrinks ▸ member)) }
      have books' : Books { state with opers := operKind.release x.ptr state.opers }
          (fun ptr => cls ptr + one (some x.cls) ptr) links allow oper := by
        refine ⟨books.ledger.congr (fun ptr => ?_) fun _ => rfl, books.allows, held', books.lost⟩
        have less := fewer ptr
        simp only [State.held]
        omega
      obtain ⟨classes, drops, books'', kin, tidy⟩ := books'.drop x.cls owes
      refine ⟨{ state with classes := classes, opers := operKind.release x.ptr state.opers }, ?_,
        books'', shape'.settle kin, rfl, rfl, kin, tidy, id⟩
      rw [shrinks]
      simp only [Blocks.clearOper, pointer, found, Option.bind_eq_bind, Option.bind_some, if_pos goes, drops]
      rfl
    · rw [if_neg (gone.not.mpr goes)] at splits
      obtain ⟨shrinks, held', same⟩ := splits
      have books' : Books { state with opers := operKind.release x.ptr state.opers } cls links allow oper :=
        ⟨books.ledger.congr (fun ptr => by simp only [State.held, same ptr]) fun _ => rfl, books.allows, held',
          books.lost⟩
      refine ⟨_, ?_, books', { shape with opersFresh := fun aoper member => fresh aoper (shrinks ▸ member) }, rfl, rfl,
        Kin.refl _, id, id⟩
      rw [shrinks]
      simp only [Blocks.clearOper, pointer, found, Option.bind_eq_bind, Option.bind_some, if_neg goes]
      rfl

/-- The Connect block of a server that is in the list no more, where nobody else has it. -/
theorem Books.clearConnect (books : Books state cls links allow oper) (shape : Shape state) (owes : ∀ ptr, 0 ≤ cls ptr)
    (owner : ∀ ptr, cptr.aconn = some ptr → ∃ aconn ∈ state.connects, aconn.ptr = ptr)
    (alone : ∀ other ∈ state.clients, ∀ ptr, cptr.aconn = some ptr → other.aconn ≠ some ptr) :
    ∃ after, Blocks.clearConnect state cptr = some after ∧ Books after cls links allow oper ∧ Shape after ∧
      Kept state after := by
  cases pointer : cptr.aconn with
  | none => exact ⟨state, by simp only [Blocks.clearConnect, pointer], books, shape, Kept.refl state⟩
  | some ptr =>
    obtain ⟨x, inside, rfl⟩ := owner ptr pointer
    have found : state.connectAt x.ptr = some x := find_eq shape.connects inside
    have others : ∀ other ∈ state.clients, ∀ aconn : AConnect, other.aconn = some aconn.ptr → aconn.ptr ≠ x.ptr :=
      fun other member aconn points same => alone other member x.ptr pointer (same ▸ points)
    have kept (other : Ptr) : tally (fun aconn => some aconn.cls)
        (replace AConnect.ptr { x with acpt := none } state.connects) other =
          tally (fun aconn => some aconn.cls) state.connects other := by
      rw [tally_replace AConnect.ptr _ { x with acpt := none } shape.connects inside rfl]
      exact Int.sub_add_cancel _ _
    have shape' : Shape { state with connects := replace AConnect.ptr { x with acpt := none } state.connects } := by
      refine { shape with
        connects := Census.keys_replace AConnect.ptr { x with acpt := none } state.connects ▸ shape.connects
        used := ?_
        connectsFresh := ?_ }
      · intro other member ptr points
        obtain ⟨owned, there, rfl, acpt'⟩ := shape.used other member ptr points
        exact ⟨owned, List.mem_map.mpr ⟨owned, there, if_neg (others other member owned points)⟩, rfl, acpt'⟩
      · intro aconn member
        rcases Census.mem_replace member with rfl | ⟨before, _⟩
        · exact shape.connectsFresh x inside
        · exact shape.connectsFresh aconn before
    by_cases goes : x.legal = -1
    · have there : { x with acpt := none } ∈ replace AConnect.ptr { x with acpt := none } state.connects :=
        List.mem_map.mpr ⟨x, inside, if_pos rfl⟩
      have fewer (other : Ptr) := tally_remove AConnect.ptr (fun aconn => some aconn.cls) shape'.connects there
        other
      have shape'' : Shape { state with
          connects := (replace AConnect.ptr { x with acpt := none } state.connects).filter fun aconn =>
            aconn.ptr ≠ x.ptr } := by
        refine { shape' with
          connects := shape'.connects.sublist (List.filter_sublist.map _)
          used := ?_
          connectsFresh := fun aconn member => shape'.connectsFresh aconn (List.mem_of_mem_filter member) }
        intro other member ptr points
        obtain ⟨owned, there, rfl, acpt'⟩ := shape.used other member ptr points
        have differs := others other member owned points
        exact ⟨owned, List.mem_filter.mpr ⟨List.mem_map.mpr ⟨owned, there, if_neg differs⟩, by simpa using differs⟩,
          rfl, acpt'⟩
      have books' : Books { state with
          connects := (replace AConnect.ptr { x with acpt := none } state.connects).filter fun aconn =>
            aconn.ptr ≠ x.ptr } (fun ptr => cls ptr + one (some x.cls) ptr) links allow oper := by
        refine ⟨books.ledger.congr (fun ptr => ?_) fun _ => rfl, books.allows, books.opers, books.lost⟩
        have less := fewer ptr
        have same := kept ptr
        simp only [State.held] at less ⊢
        omega
      obtain ⟨classes, drops, books'', kin, tidy⟩ := books'.drop x.cls owes
      refine ⟨{ state with
          classes := classes
          connects := (replace AConnect.ptr { x with acpt := none } state.connects).filter fun aconn =>
            aconn.ptr ≠ x.ptr }, ?_, books'', shape''.settle kin, rfl, rfl, kin, tidy, id⟩
      simp only [Blocks.clearConnect, pointer, found, Option.bind_eq_bind, Option.bind_some, if_pos goes, drops]
    · refine ⟨{ state with connects := replace AConnect.ptr { x with acpt := none } state.connects }, ?_,
        ⟨books.ledger.congr (fun ptr => by simp only [State.held, kept ptr]) fun _ => rfl, books.allows, books.opers,
          books.lost⟩, shape', rfl, rfl, Kin.refl _, id, id⟩
      simp only [Blocks.clearConnect, pointer, found, Option.bind_eq_bind, Option.bind_some, if_neg goes]

/-- `clear_conflinks` pays all that a client owes. -/
theorem Books.clearConflinks (cptr : AClient)
    (books : Books state (one cptr.cls) (one cptr.cls) (one cptr.allow) (one cptr.oper)) (shape : Shape state)
    (owner : ∀ ptr, cptr.aconn = some ptr → ∃ aconn ∈ state.connects, aconn.ptr = ptr)
    (alone : cptr.status = .server → ∀ other ∈ state.clients, ∀ ptr, cptr.aconn = some ptr → other.aconn ≠ some ptr)
    (server : cptr.status = .server → cptr.allow = none ∧ cptr.oper = none) :
    ∃ after, Blocks.clearConflinks state cptr = some after ∧ Books after nothing nothing nothing nothing ∧
      Shape after ∧ Kept state after := by
  obtain ⟨classes, leaves, settled⟩ := Ledger.leave cptr.cls books.ledger (State.held_nonneg books.lost)
  have kept : Kept state { state with classes := classes } := ⟨rfl, rfl, settled.kin, settled.tidy, id⟩
  have books' : Books { state with classes := classes } nothing nothing (one cptr.allow) (one cptr.oper) :=
    ⟨settled.ledger.congr (fun ptr => (Int.add_zero _).symm) fun ptr => (Int.add_zero _).symm, books.allows,
      books.opers, books.lost⟩
  have shape' := shape.settle settled.kin
  have free (ptr : Ptr) : 0 ≤ nothing ptr := Int.le_refl 0
  by_cases linked : cptr.status = .server
  · obtain ⟨allow, oper⟩ := server linked
    obtain ⟨after, clears, paid, formed, kept'⟩ := books'.clearConnect shape' free owner (alone linked)
    refine ⟨after, ?_, ?_, formed, kept.trans kept'⟩
    · simp only [Blocks.clearConflinks, leaves, Option.bind_eq_bind, Option.bind_some, if_pos linked, clears]
    · exact paid.congr (fun _ => rfl) (fun _ => rfl) (fun ptr => by rw [allow, one_none]; rfl)
        fun ptr => by rw [oper, one_none]; rfl
  · have owed : Books { state with classes := classes } nothing nothing (fun ptr => nothing ptr + one cptr.allow ptr)
        (one cptr.oper) :=
      books'.congr (fun _ => rfl) (fun _ => rfl) (fun ptr => (Int.zero_add _).symm) fun _ => rfl
    obtain ⟨middle, clears, paid, shape'', kept'⟩ := owed.clearAllow cptr shape' free free
    have owed' : Books middle nothing nothing nothing fun ptr => nothing ptr + one cptr.oper ptr :=
      paid.congr (fun _ => rfl) (fun _ => rfl) (fun _ => rfl) fun ptr => (Int.zero_add _).symm
    obtain ⟨after, clears', paid', formed, kept''⟩ := owed'.clearOper cptr shape'' free free
    refine ⟨after, ?_, paid', formed, kept.trans (kept'.trans kept'')⟩
    simp only [Blocks.clearConflinks, leaves, Option.bind_eq_bind, Option.bind_some, if_neg linked, clears, clears']

/-- Nobody else has the Connect block of this server. -/
def State.Alone (state : State) (cptr : AClient) : Prop :=
  cptr.status = .server → ∀ other ∈ state.clients, ∀ ptr, cptr.aconn = some ptr → other.aconn = some ptr →
    other.ptr = cptr.ptr

/-- Whoever exits, the books are right. -/
theorem Steady.exit (steady : Steady state) (member : cptr ∈ state.clients) (alone : state.Alone cptr) :
    ∃ after, exitClient state cptr = some after ∧ Steady after ∧
      after.clients = state.clients.filter (fun other => other.ptr ≠ cptr.ptr) ∧ after.next = state.next := by
  have owed := steady.books.without steady.shape.clients member
  obtain ⟨after, clears, paid, shape, kept⟩ := Books.clearConflinks cptr
    (owed.congr (fun ptr => Int.zero_add _) (fun ptr => Int.zero_add _) (fun ptr => Int.zero_add _)
      fun ptr => Int.zero_add _)
    (steady.shape.without _) (fun ptr points =>
      have ⟨aconn, inside, same, _⟩ := steady.shape.used cptr member ptr points
      ⟨aconn, inside, same⟩)
    (fun linked other inside ptr points points' => by
      obtain ⟨before, differs⟩ := List.mem_filter.mp inside
      exact of_decide_eq_true differs (alone linked other before ptr points points'))
    fun linked => (steady.shape.servers cptr member linked).2
  exact ⟨after, clears, ⟨paid, shape, kept.kin.serves steady.serves, kept.tidyClasses steady.tidyClasses,
    kept.tidyAllows steady.tidyAllows⟩, kept.clients, kept.next⟩

/-- A class is found for a client, whatever it is attached to. -/
theorem Steady.effectiveClass (steady : Steady state) (member : cptr ∈ state.clients)
    (ledger : Ledger classes held links) (kin : Kin state.classes classes)
    (blocks : ∀ ptr, tally (fun allow => some allow.cls) state.allows ptr +
      tally (fun aoper => some aoper.cls) state.opers ptr + tally (fun aconn => some aconn.cls) state.connects ptr ≤
        held ptr) :
    ∃ cl ∈ classes.map AClass.ptr, Blocks.effectiveClass { state with classes := classes } cptr = some cl := by
  have allows := tally_nonneg (fun allow : AAllow => some allow.cls) state.allows
  have opers := tally_nonneg (fun aoper : AOper => some aoper.cls) state.opers
  have connects := tally_nonneg (fun aconn : AConnect => some aconn.cls) state.connects
  by_cases linked : cptr.status = .server
  · obtain ⟨ptr, points⟩ := Option.ne_none_iff_exists'.mp (steady.shape.servers cptr member linked).1
    obtain ⟨aconn, inside, rfl, _⟩ := steady.shape.used cptr member ptr points
    have found : state.connectAt aconn.ptr = some aconn := find_eq steady.shape.connects inside
    refine ⟨aconn.cls, ledger.present ?_, ?_⟩
    · have := tally_pos (fun aconn : AConnect => some aconn.cls) inside rfl
      have := allows aconn.cls
      have := opers aconn.cls
      have := blocks aconn.cls
      omega
    · simp only [Blocks.effectiveClass, if_pos linked, points, Option.bind_eq_bind, Option.bind_some]
      exact congrArg (fun found => Option.bind found fun aconn => some aconn.cls) found
  · cases points : cptr.oper with
    | some ptr =>
      have held : ptr ∈ state.opers.map AOper.ptr := by
        apply steady.books.opers.live
        have := tally_pos AClient.oper member points
        show _ + (0 : Int) ≠ 0
        omega
      obtain ⟨aoper, inside, _, found⟩ := find_ptr held
      refine ⟨aoper.cls, ledger.present ?_, ?_⟩
      · have := tally_pos (fun aoper : AOper => some aoper.cls) inside rfl
        have := allows aoper.cls
        have := connects aoper.cls
        have := blocks aoper.cls
        omega
      · simp only [Blocks.effectiveClass, if_neg linked, points]
        exact congrArg (Option.map AOper.cls) found
    | none =>
      cases points' : cptr.allow with
      | some ptr =>
        have held : ptr ∈ state.allows.map AAllow.ptr := by
          apply steady.books.allows.live
          have := tally_pos AClient.allow member points'
          show _ + (0 : Int) ≠ 0
          omega
        obtain ⟨allow, inside, _, found⟩ := find_ptr held
        refine ⟨allow.cls, ledger.present ?_, ?_⟩
        · have := tally_pos (fun allow : AAllow => some allow.cls) inside rfl
          have := opers allow.cls
          have := connects allow.cls
          have := blocks allow.cls
          omega
        · simp only [Blocks.effectiveClass, if_neg linked, points, points']
          exact congrArg (Option.map AAllow.cls) found
      | none =>
        obtain ⟨cl, inside, found⟩ := find_serves (kin.serves steady.serves)
        refine ⟨cl.ptr, List.mem_map_of_mem inside, ?_⟩
        simp only [Blocks.effectiveClass, if_neg linked, points, points', found]
        rfl

/-- `set_effective_class` puts a client into a class, and the books are right. -/
theorem Steady.effective (steady : Steady state) (member : cptr ∈ state.clients) :
    ∃ cl after, setEffectiveClass state cptr = some after ∧ Steady after ∧
      after.clients = replace AClient.ptr { cptr with cls := some cl } state.clients ∧ after.next = state.next ∧
      after.allows = state.allows ∧ after.opers = state.opers ∧ after.connects = state.connects := by
  have between : Books { state with clients := replace AClient.ptr { cptr with cls := none } state.clients }
      (one cptr.cls) (one cptr.cls) nothing nothing :=
    (steady.books.change { cptr with cls := none } steady.shape.clients member rfl).congr
      (fun ptr => by simp [nothing]) (fun ptr => by simp [nothing]) (fun ptr => by simp [nothing])
      fun ptr => by simp [nothing]
  have positive := State.held_nonneg between.lost
  obtain ⟨classes, leaves, settled⟩ := Ledger.leave cptr.cls between.ledger positive
  obtain ⟨cl, present, found⟩ := steady.effectiveClass member settled.ledger settled.kin fun ptr => by
    have clients := tally_nonneg AClient.cls (replace AClient.ptr { cptr with cls := none } state.clients) ptr
    have lost := steady.books.lost ptr
    simp only [State.held]
    omega
  obtain ⟨classes', takes, settled'⟩ := settled.ledger.takes cl present 1 positive
  have there : { cptr with cls := none } ∈ replace AClient.ptr { cptr with cls := none } state.clients :=
    List.mem_map.mpr ⟨cptr, member, if_pos rfl⟩
  have owed : Books { state with
      classes := classes'
      clients := replace AClient.ptr { cptr with cls := none } state.clients }
      (one (some cl)) (one (some cl)) nothing nothing :=
    ⟨settled'.ledger.congr (fun _ => rfl) fun ptr => by rw [one_some], between.allows, between.opers, between.lost⟩
  have paid := owed.change { cptr with cls := some cl }
    (Census.keys_replace AClient.ptr { cptr with cls := none } state.clients ▸ steady.shape.clients) there rfl
  have again : replace AClient.ptr { cptr with cls := some cl }
      (replace AClient.ptr { cptr with cls := none } state.clients) =
        replace AClient.ptr { cptr with cls := some cl } state.clients := Census.replace_replace rfl
  dsimp only at paid
  rw [again] at paid
  have paid' : Books { state with
      classes := classes'
      clients := replace AClient.ptr { cptr with cls := some cl } state.clients } nothing nothing nothing nothing :=
    paid.congr (fun ptr => by rw [one_none, nothing]; omega) (fun ptr => by rw [one_none, nothing]; omega)
      (fun ptr => by simp [nothing]) fun ptr => by simp [nothing]
  have kin := settled.kin.trans settled'.kin
  have shape := (steady.shape.change { cptr with cls := some cl } member rfl rfl
    (steady.shape.servers cptr member)).settle kin
  refine ⟨cl, _, ?_, ⟨paid', shape, kin.serves steady.serves, settled'.tidy (settled.tidy steady.tidyClasses),
    steady.tidyAllows⟩, rfl, rfl, rfl, rfl, rfl⟩
  simp only [setEffectiveClass, leaves, Option.bind_eq_bind, Option.bind_some, found, takes]

end

end SolidIrcd.Blocks
