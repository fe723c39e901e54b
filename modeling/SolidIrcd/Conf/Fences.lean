import SolidIrcd.Conf.Parser

/-! When the parser of configuration files stays inside its lines and its array, and passes on values only. -/

namespace SolidIrcd.Conf

open Scan (Text)

/-- A value is there, unless the token has none. -/
def CVar.Valued (var : CVar) : Prop := var.value.isSome ∨ ∃ item, var.type = some item ∧ item.var = .none

/-- The variables that a function is given, and the NULL behind them, find room, and all have their values. -/
def Item.Sound : Item → Prop
  | .block _ vars => vars.length < maxValues ∧ ∀ var ∈ vars, var.Valued
  | .included _ => True

/-- Nothing was read or written outside, nothing without a value was passed on, and no file is accepted that ends inside
a construct. -/
structure Safe (state : State) : Prop where
  inside : state.astray = false
  found : state.outcome ≠ .lost
  sound : ∀ item ∈ state.made, item.Sound
  whole : state.outcome = .accepted → state.block = none ∧ state.including = 0 ∧ state.quote = false

/-- What the place where a `parse_block` stands needs. -/
def Frame.Fenced (env : Env) (made : List Item) (frame : Frame) : Prop :=
  match frame.phase with
  -- a semicolon does not close a variable that has no value yet
  | .semicolon (';' :: _) => frame.block.strings = false → ∀ var ∈ frame.pending, var.Valued
  -- a block ends on the line on which it was called, and no string of it waits for its semicolon
  | .ending (';' :: _) =>
    (frame.own = true → env.func (made ++ [Item.block frame.block (frame.vars ++ frame.pending.toList)]) = false) ∧
      (frame.block.strings = true → ∀ var ∈ frame.pending, var.Valued)
  -- there is room for another variable
  | .variable _ => frame.vars.length < maxValues - 1
  | _ => True

/-- What the place where the parser stands needs. -/
def State.Fenced (env : Env) (lineMax : Nat) (state : State) : Prop :=
  match state.stack, state.phase with
  | frame :: _, _ => frame.Fenced env state.made
  -- the file does not end behind the name of a block, inside an include or inside a comment
  | [], .top cur => state.line lineMax cur = none → state.clear = false →
      state.block = none ∧ state.including = 0 ∧ state.quote = false
  -- the name of a file that can be included ends on its line
  | [], .including cur => (unquoted cur).takeWhile (!filenameEnd ·) ≠ [] →
      (env.initconf state.made ((unquoted cur).takeWhile (!filenameEnd ·)) state.quote).isSome →
        ∃ c ∈ unquoted cur, filenameEnd c = true
  -- the name of a block ends on its line
  | [], .name cur => state.block = none → ∃ c ∈ cur, nameEnd c = true
  | [], _ => True

/-- Where a block of tokens has no token at hand, where it has one, and where it never is. -/
def BlockPhase.Fits (item : Option SConf) (done : Bool) : BlockPhase → Prop
  | .ending _ => item = none
  | .token _ => item = none ∧ done = false
  | .variable _ => item ≠ none
  | .string _ => False
  | _ => True

/-- What holds of every call of `parse_block`, wherever it stands. -/
structure Frame.Kept (frame : Frame) : Prop where
  vars : ∀ var ∈ frame.vars, var.Valued
  room : (frame.vars ++ frame.pending.toList).length < maxValues
  typed : frame.block.strings = false → ∀ var ∈ frame.pending, var.type = frame.item
  idle : frame.block.strings = false → frame.item = none → frame.pending = none
  ends : frame.block.strings = false → frame.done = true → frame.item = none

structure Frame.Held (frame : Frame) : Prop where
  kept : frame.Kept
  fits : frame.block.strings = false → frame.phase.Fits frame.item frame.done

structure Good (state : State) : Prop where
  safe : Safe state
  held : ∀ frame ∈ state.stack, frame.Held

/-- Good, and the parser goes on. -/
structure Ready (state : State) : Prop where
  running : state.outcome = .running
  inside : state.astray = false
  sound : ∀ item ∈ state.made, item.Sound
  held : ∀ frame ∈ state.stack, frame.Held

section

variable {env : Env} {lineMax : Nat} {frame next other : Frame} {below : List Frame}
  {state after : State} {value : Option Text}

/-! One call of `parse_block` -/

/-- The flags, the line and the place of a call do not matter. -/
theorem Frame.Kept.adapt (kept : frame.Kept)
    (same : (other.block, other.vars, other.pending, other.item, other.done) =
      (frame.block, frame.vars, frame.pending, frame.item, frame.done)) : other.Kept := by
  simp only [Prod.mk.injEq] at same
  obtain ⟨block, vars, pending, item, done⟩ := same
  constructor
  · rw [vars]
    exact kept.vars
  · rw [vars, pending]
    exact kept.room
  · rw [block, pending, item]
    exact kept.typed
  · rw [block, item, pending]
    exact kept.idle
  · rw [block, done, item]
    exact kept.ends

/-- At its loop nothing more is asked of a call. -/
theorem Frame.Kept.top (kept : frame.Kept) (cur : Option Text) : Frame.Held { frame with phase := .top cur } :=
  ⟨kept.adapt rfl, fun _ => trivial⟩

/-- A nested block came back. -/
theorem Frame.Held.back (held : frame.Held) (cur : Option Text) : Frame.Held { frame with phase := .top cur, b2 := none } :=
  ⟨held.kept.adapt rfl, fun _ => trivial⟩

theorem length_pending (pending : Option CVar) (change : CVar → CVar) :
    (pending.map change).toList.length = pending.toList.length := by
  cases pending <;> rfl

/-- A variable that is delimited has its value, or none at all. -/
theorem Frame.Kept.store (kept : frame.Kept)
    (valued : value.isSome = true ∨ frame.block.strings = false ∧ ∃ item, frame.item = some item ∧ item.var = .none) :
    (frame.store value).Kept where
  vars := by
    intro var member
    rcases List.mem_append.mp member with stored | last
    · exact kept.vars var stored
    · obtain ⟨old, waits, rfl⟩ := Option.map_eq_some_iff.mp (Option.mem_toList.mp last)
      rcases valued with some' | ⟨strings, item, is, bare⟩
      · exact .inl some'
      · exact .inr ⟨item, (kept.typed strings old waits).trans is, bare⟩
  room := by
    have room := kept.room
    simp only [Frame.store, List.length_append, length_pending, Option.toList_none, List.length_nil] at room ⊢
    exact room
  typed _ _ none := nomatch none
  idle _ _ := rfl
  ends _ _ := rfl

theorem Frame.Kept.load (kept : frame.Kept) (value : Option Text) : (frame.load value).Kept where
  vars := kept.vars
  room := by
    have room := kept.room
    simp only [Frame.load, List.length_append, length_pending] at room ⊢
    exact room
  typed strings var member := by
    obtain ⟨old, waits, rfl⟩ := Option.map_eq_some_iff.mp member
    exact kept.typed strings old waits
  idle strings none := by
    rw [Frame.load, kept.idle strings none]
    rfl
  ends := kept.ends

theorem Frame.Kept.clear (kept : frame.Kept) (clear : Bool) : Frame.Kept { frame with clear := clear } := kept.adapt rfl

theorem delimit_kept {value : Text} (kept : frame.Kept) (turn : frame.delimit value cur = some (next, rest)) : next.Kept := by
  unfold Frame.delimit at turn
  split at turn
  · obtain ⟨rfl, -⟩ := Prod.mk.inj (Option.some.inj turn)
    exact (kept.load _).clear true
  · obtain ⟨rfl, -⟩ := Prod.mk.inj (Option.some.inj turn)
    exact kept.store (.inl rfl)

theorem bare_kept (kept : frame.Kept) (strings : frame.block.strings = false)
    (item : frame.item = some token) (bare : token.var = .none)
    (turn : frame.bare cur = some (next, rest)) : next.Kept := by
  have stored : (frame.store none).Kept := kept.store (.inr ⟨strings, token, item, bare⟩)
  unfold Frame.bare at turn
  split at turn
  · obtain ⟨rfl, -⟩ := Prod.mk.inj (Option.some.inj turn)
    exact stored.adapt rfl
  · split at turn
    · obtain ⟨rfl, -⟩ := Prod.mk.inj (Option.some.inj turn)
      exact stored
    · obtain ⟨rfl, -⟩ := Prod.mk.inj (Option.some.inj turn)
      exact (kept.load _).clear true

theorem quoted_kept (kept : frame.Kept) (turn : frame.quoted cur = some (next, rest)) : next.Kept := by
  unfold Frame.quoted at turn
  split at turn
  · split at turn
    · cases turn
    · exact delimit_kept kept turn
  · obtain ⟨rfl, -⟩ := Prod.mk.inj (Option.some.inj turn)
    exact kept

theorem int_kept (kept : frame.Kept) (turn : frame.int cur = some (next, rest)) : next.Kept := by
  unfold Frame.int at turn
  split at turn
  · obtain ⟨rfl, -⟩ := Prod.mk.inj (Option.some.inj turn)
    exact kept.clear true
  · split at turn
    · obtain ⟨rfl, -⟩ := Prod.mk.inj (Option.some.inj turn)
      exact kept.clear true
    · dsimp only at turn
      split at turn
      · obtain ⟨rfl, -⟩ := Prod.mk.inj (Option.some.inj turn)
        exact (kept.store (.inl rfl)).clear _
      · cases turn

theorem name_kept (kept : frame.Kept) (turn : frame.name cur = some (next, rest)) : next.Kept := by
  unfold Frame.name at turn
  split at turn
  · obtain ⟨rfl, -⟩ := Prod.mk.inj (Option.some.inj turn)
    exact kept.clear true
  · dsimp only at turn
    split at turn
    · obtain ⟨rfl, -⟩ := Prod.mk.inj (Option.some.inj turn)
      exact kept.clear true
    · exact delimit_kept kept turn

theorem value_kept (kept : frame.Kept) (strings : frame.block.strings = false) (turn : frame.value cur = some (next, rest)) :
    next.Kept := by
  unfold Frame.value at turn
  split at turn
  · cases turn
  next token item =>
    split at turn
    next bare => exact bare_kept kept strings item bare turn
    next => exact quoted_kept kept turn
    next => exact int_kept kept turn
    next => exact name_kept kept turn

theorem freestanding_kept (kept : frame.Kept) (turn : frame.freestanding cur = some (next, rest)) : next.Kept := by
  unfold Frame.freestanding at turn
  split at turn
  · split at turn
    · cases turn
    · split at turn
      · obtain ⟨rfl, -⟩ := Prod.mk.inj (Option.some.inj turn)
        exact kept.clear true
      · obtain ⟨rfl, -⟩ := Prod.mk.inj (Option.some.inj turn)
        exact kept.store (.inl rfl)
  · dsimp only at turn
    split at turn
    · obtain ⟨rfl, -⟩ := Prod.mk.inj (Option.some.inj turn)
      exact kept.clear true
    · split at turn
      · obtain ⟨rfl, -⟩ := Prod.mk.inj (Option.some.inj turn)
        exact (kept.load _).clear true
      · obtain ⟨rfl, -⟩ := Prod.mk.inj (Option.some.inj turn)
        exact kept.store (.inl rfl)
      · cases turn

theorem freeform_kept (kept : frame.Kept) (turn : frame.freeform cur = some (next, rest)) : next.Kept := by
  have flagged : Frame.Kept { frame with i := frame.i || cur.head? == some '"' } := kept.adapt rfl
  exact freestanding_kept flagged turn

theorem start_held (block : TConf) (strict : Bool) (cur : Option Text) : (Frame.start block strict cur).Held where
  kept :=
    { vars := fun _ member => absurd member List.not_mem_nil
      room := (by decide : 0 < maxValues)
      typed := fun _ _ none => nomatch none
      idle := fun _ _ => rfl
      ends := fun _ _ => rfl }
  fits _ := trivial

theorem undelimited_fits (kept : frame.Kept) (strings : frame.block.strings = false) (cur : Text) :
    (frame.undelimited cur).Fits frame.item frame.done := by
  unfold Frame.undelimited
  rw [strings]
  split
  next done => exact kept.ends strings done
  next working =>
    rw [if_neg Bool.false_ne_true]
    split
    · trivial
    · split
      · trivial
      next unnamed => exact ⟨by simpa using unnamed, by simpa using working⟩

/-! The whole parser -/

theorem Good.ready (good : Good state) (running : state.outcome = .running) : Ready state :=
  ⟨running, good.safe.inside, good.safe.sound, good.held⟩

theorem Ready.good (ready : Ready state) : Good state where
  safe :=
    { inside := ready.inside
      found := fun lost => nomatch ready.running.symm.trans lost
      sound := ready.sound
      whole := fun accepted => nomatch ready.running.symm.trans accepted }
  held := ready.held

theorem Ready.same (ready : Ready state) (same : (after.astray, after.outcome, after.made, after.stack) =
    (state.astray, state.outcome, state.made, state.stack)) : Ready after := by
  simp only [Prod.mk.injEq] at same
  obtain ⟨astray, outcome, made, stack⟩ := same
  exact ⟨outcome ▸ ready.running, astray ▸ ready.inside, made ▸ ready.sound, stack ▸ ready.held⟩

theorem Ready.enter (ready : Ready state) (held : frame.Held) (callers : ∀ frame ∈ below, frame.Held) :
    Good (state.enter frame below) :=
  Ready.good ⟨ready.running, ready.inside, ready.sound, List.forall_mem_cons.mpr ⟨held, callers⟩⟩

theorem Ready.reject (ready : Ready state) : Good state.reject :=
  ⟨⟨ready.inside, nofun, ready.sound, nofun⟩, ready.held⟩

theorem Ready.fail (ready : Ready state) (stack : List Frame) (held : ∀ frame ∈ stack, frame.Held) :
    Good (state.fail stack) := by
  induction stack with
  | nil => exact ready.reject
  | cons frame below ih =>
    cases below with
    | nil => exact ready.reject
    | cons caller below =>
      obtain ⟨-, caller_held, callers⟩ := by simpa only [List.forall_mem_cons] using held
      rw [State.fail]
      split
      · exact ih (List.forall_mem_cons.mpr ⟨caller_held, callers⟩)
      · exact ready.enter (caller_held.back none) callers

theorem Ready.goTo (ready : Ready state) (cur : Text) (phase : Text → Phase) : Good (state.goTo cur phase) := by
  unfold State.goTo
  split
  · apply Ready.good
    exact ready.same rfl
  · apply Ready.good
    exact ready.same rfl

theorem Ready.turnTo (ready : Ready state) (kept : frame.Kept) (callers : ∀ frame ∈ below, frame.Held) (cur : Text)
    {phase : Text → BlockPhase} (fits : frame.block.strings = false → ∀ cur, (phase cur).Fits frame.item frame.done) :
    Good (state.turnTo frame below cur phase) := by
  unfold State.turnTo
  split
  · exact Ready.enter (ready.same rfl) (kept.top none) callers
  next quote cur _ => exact Ready.enter (ready.same rfl) ⟨kept.adapt rfl, fun strings => fits strings cur⟩ callers

theorem line_state (line : state.line lineMax cur = some (fresh, text, after)) :
    (after.astray, after.outcome, after.made, after.stack) = (state.astray, state.outcome, state.made, state.stack) := by
  unfold State.line at line
  split at line
  · simp only [Option.some.injEq, Prod.mk.injEq] at line
    rw [← line.2.2]
  · obtain ⟨pair, -, same⟩ := Option.map_eq_some_iff.mp line
    simp only [Prod.mk.injEq] at same
    rw [← same.2.2]

/-- What stops a scan is there. -/
theorem dropWhile_stops {stop : Char → Bool} {cur : Text} (stops : ∃ c ∈ cur, stop c = true) :
    cur.dropWhile (!stop ·) ≠ [] := by
  obtain ⟨c, member, stops⟩ := stops
  intro none
  have kept := List.dropWhile_eq_nil_iff.mp none c member
  simp [stops] at kept

theorem include_good (fenced : state.Fenced env lineMax) (outside : state.stack = []) (phase : state.phase = .including cur)
    (ready : Ready state) : Good (state.include env cur) := by
  have ends := fenced
  simp only [State.Fenced, outside, phase] at ends
  unfold State.include
  dsimp only
  split
  · exact ready.reject
  next some' =>
    cases included : env.initconf state.made ((unquoted cur).takeWhile (!filenameEnd ·)) state.quote with
    | none => exact ready.reject
    | some quote =>
      have stops := dropWhile_stops (ends some' (by rw [included]; rfl))
      dsimp only
      split
      next none => exact absurd none stops
      next =>
        apply Ready.goTo
        refine ⟨ready.running, ready.inside, fun item member => ?_, ready.held⟩
        rcases List.mem_append.mp member with before | last
        · exact ready.sound item before
        · rw [List.mem_singleton.mp last]
          trivial

theorem named_good (fenced : state.Fenced env lineMax) (outside : state.stack = []) (phase : state.phase = .name cur)
    (unnamed : state.block = none) (ready : Ready state) : Good (state.named cur) := by
  simp only [State.Fenced, outside, phase] at fenced
  have stops := dropWhile_stops (fenced unnamed)
  unfold State.named
  dsimp only
  split
  next none => exact absurd none stops
  next stop after _ =>
    have cleared : Ready { state with clear := state.clear || stop == '{' } := ready.same rfl
    split
    · split
      · exact cleared.reject
      · apply Ready.goTo
        exact cleared.same rfl
    · split
      · exact cleared.reject
      · apply Ready.goTo
        exact cleared.same rfl

theorem initconf_good (fenced : state.Fenced env lineMax) (outside : state.stack = []) (ready : Ready state) :
    Good (state.initconf env lineMax) := by
  unfold State.initconf
  split
  next cur phase =>
    split
    next none =>
      simp only [State.Fenced, outside, phase] at fenced
      split
      next => exact ⟨⟨ready.inside, nofun, ready.sound, nofun⟩, ready.held⟩
      next closed => exact ⟨⟨ready.inside, nofun, ready.sound, fun _ => fenced none (by simpa using closed)⟩, ready.held⟩
    next read text after line => exact Ready.goTo (ready.same (line_state line)) _ _
  next cur phase => exact include_good fenced outside phase ready
  next cur phase =>
    split
    · apply Ready.goTo
      exact ready.same rfl
    · exact ready.reject
  next cur phase =>
    split
    · exact ready.goTo _ _
    next unnamed => exact named_good fenced outside phase (by simpa using unnamed) ready
  next cur phase =>
    split
    · split
      · refine Ready.good ⟨ready.running, ready.inside, ready.sound, fun frame member => ?_⟩
        rw [List.mem_singleton.mp member]
        exact start_held _ _ _
      · exact ready.reject
    · exact ready.reject
  next => exact ready.reject

/-- The function is given what has its values, and a cursor that is returned is in the caller's line. -/
theorem finish_good (fenced : frame.Fenced env state.made) (phase : frame.phase = .ending (';' :: cur)) (ready : Ready state)
    (held : frame.Held) (callers : ∀ frame ∈ below, frame.Held) : Good (state.finish env frame below cur) := by
  have fits := held.fits
  unfold Frame.Fenced at fenced
  rw [phase] at fenced fits
  obtain ⟨own, pending⟩ := fenced
  have passed : ∀ item ∈ state.made ++ [Item.block frame.block (frame.vars ++ frame.pending.toList)], item.Sound := by
    intro item member
    rcases List.mem_append.mp member with before | last
    · exact ready.sound item before
    · rw [List.mem_singleton.mp last]
      refine ⟨held.kept.room, fun var member => ?_⟩
      rcases List.mem_append.mp member with stored | waits
      · exact held.kept.vars var stored
      · cases strings : frame.block.strings with
        | false =>
          rw [held.kept.idle strings (fits strings)] at waits
          exact absurd waits List.not_mem_nil
        | true => exact pending strings var (Option.mem_toList.mp waits)
  unfold State.finish
  dsimp only
  split
  next takes =>
    have inside : (state.astray || frame.own) = false := by
      rw [ready.inside, Bool.false_or]
      exact Bool.eq_false_iff.mpr fun own' => absurd takes (by simp [own own'])
    split
    · exact Ready.good ⟨ready.running, inside, passed, fun _ member => absurd member List.not_mem_nil⟩
    next caller below =>
      obtain ⟨caller_held, callers⟩ := List.forall_mem_cons.mp callers
      have returned : Ready { state with astray := state.astray || frame.own, made := _ } :=
        ⟨ready.running, inside, passed, ready.held⟩
      exact returned.enter (caller_held.back _) callers
  · have refused : Ready { state with made := state.made ++ [Item.block frame.block (frame.vars ++ frame.pending.toList)] } :=
      ⟨ready.running, ready.inside, passed, ready.held⟩
    exact refused.fail _ (List.forall_mem_cons.mpr ⟨held, callers⟩)

/-- The variable that waits for its semicolon has its value. -/
theorem semicolon_kept (kept : frame.Kept) (valued : ∀ var ∈ frame.pending, var.Valued) :
    Frame.Kept { frame with
      clear := false, vars := frame.vars ++ (frame.pending.map fun var => { var with loaded := 3 }).toList,
      pending := none, item := none } where
  vars := by
    intro var member
    rcases List.mem_append.mp member with stored | last
    · exact kept.vars var stored
    · obtain ⟨old, waits, rfl⟩ := Option.map_eq_some_iff.mp (Option.mem_toList.mp last)
      exact valued old waits
  room := by
    have room := kept.room
    simp only [List.length_append, length_pending, Option.toList_none, List.length_nil] at room ⊢
    exact room
  typed _ _ none := nomatch none
  idle _ _ := rfl
  ends _ _ := rfl

/-- A token comes when the last one is done with. -/
theorem choose_kept (kept : frame.Kept) (free : frame.block.strings = false → frame.item = none ∧ frame.done = false)
    (item : SConf) (skip : Bool) : Frame.Kept { frame with skip := skip, item := some item, phase := phase } where
  vars := kept.vars
  room := kept.room
  typed strings var waits := by
    rw [kept.idle strings (free strings).1] at waits
    cases waits
  idle _ none := nomatch none
  ends strings done := by
    rw [(free strings).2] at done
    cases done

theorem close_kept (kept : frame.Kept) (free : frame.block.strings = false → frame.item = none) :
    Frame.Kept { frame with done := true } where
  vars := kept.vars
  room := kept.room
  typed := kept.typed
  idle := kept.idle
  ends strings _ := free strings

/-- A variable that is begun takes the place of the one that waits. -/
theorem begin_kept (kept : frame.Kept) (room : frame.vars.length < maxValues - 1)
    (chosen : frame.block.strings = false → frame.item ≠ none) :
    Frame.Kept { frame with pending := some ⟨frame.item, none, 1⟩, phase := phase } where
  vars := kept.vars
  room := by
    rw [List.length_append]
    exact Nat.add_lt_of_lt_sub room
  typed _ var is := by
    rw [← Option.some.inj is]
  idle strings none := absurd none (chosen strings)
  ends := kept.ends

theorem parseBlock_good (fenced : frame.Fenced env state.made) (ready : Ready state) (held : frame.Held)
    (callers : ∀ frame ∈ below, frame.Held) : Good (state.parseBlock env lineMax frame below) := by
  have both : ∀ other ∈ frame :: below, other.Held := List.forall_mem_cons.mpr ⟨held, callers⟩
  unfold State.parseBlock
  split
  next cur phase =>
    split
    · exact ready.fail _ both
    next fresh text after line =>
      have reading : Frame.Kept { frame with own := frame.own || fresh } := held.kept.adapt rfl
      refine Ready.turnTo (ready.same (line_state line)) reading callers _ fun strings cur => ?_
      split
      · trivial
      · exact undelimited_fits reading strings cur
  next cur phase =>
    split
    next cur =>
      unfold Frame.Fenced at fenced
      rw [phase] at fenced
      dsimp only
      split
      next strings =>
        refine ready.turnTo (held.kept.clear false) callers _ fun strings' => ?_
        rw [strings] at strings'
        cases strings'
      next strings =>
        have strings : frame.block.strings = false := by simpa using strings
        have delimited := semicolon_kept held.kept (fenced strings)
        exact ready.turnTo delimited callers _ fun _ cur => undelimited_fits delimited strings cur
    next => exact ready.fail _ both
  next cur phase =>
    split
    next cur => exact finish_good fenced phase ready held callers
    next => exact ready.fail _ both
  next strict cur phase =>
    split
    next cur b2 nested =>
      exact Ready.enter (ready.same rfl) (start_held _ _ _)
        (List.forall_mem_cons.mpr ⟨⟨held.kept.adapt rfl, fun _ => trivial⟩, callers⟩)
    next => exact ready.fail _ both
  next cur phase =>
    have free := held.fits
    rw [phase] at free
    split
    · exact ready.turnTo (close_kept held.kept fun strings => (free strings).1) callers _ fun strings _ => (free strings).1
    · split
      · exact ready.fail _ both
      next stop after _ =>
        dsimp only
        split
        · apply Ready.turnTo ready _ callers
          · exact fun _ _ => trivial
          · exact held.kept.adapt rfl
        · split
          · exact ready.fail _ (List.forall_mem_cons.mpr ⟨⟨held.kept.adapt rfl, by rw [phase]; exact free⟩, callers⟩)
          next item _ => exact ready.enter ⟨choose_kept held.kept free item _, fun _ => nofun⟩ callers
  next cur phase =>
    have never := held.fits
    rw [phase] at never
    split
    · exact ready.turnTo (close_kept held.kept fun strings => (never strings).elim) callers _
        fun strings _ => (never strings).elim
    · exact ready.enter ⟨held.kept.adapt rfl, fun strings => (never strings).elim⟩ callers
  next cur phase =>
    unfold Frame.Fenced at fenced
    rw [phase] at fenced
    have chosen := held.fits
    rw [phase] at chosen
    have inside : (state.astray || decide (maxValues - 1 ≤ frame.vars.length)) = false := by
      rw [ready.inside, Bool.false_or]
      exact decide_eq_false (Nat.not_le.mpr fenced)
    have stored : Ready { state with astray := state.astray || decide (maxValues - 1 ≤ frame.vars.length) } :=
      ⟨ready.running, inside, ready.sound, ready.held⟩
    exact stored.enter ⟨begin_kept held.kept fenced chosen, fun _ => trivial⟩ callers
  next cur phase =>
    dsimp only
    split
    · apply Ready.fail _ _ both
      exact ready.same rfl
    next next rest turn =>
      refine Ready.enter (ready.same rfl) (Frame.Kept.top ?_ rest) callers
      split at turn
      · exact freeform_kept held.kept turn
      next strings => exact value_kept held.kept (by simpa using strings) turn
  next => exact ready.fail _ both

theorem step_good (fenced : state.Fenced env lineMax) (ready : Ready state) : Good (state.step env lineMax) := by
  unfold State.step
  split
  next outside => exact initconf_good fenced outside ready
  next frame below stack =>
    have held : ∀ other ∈ frame :: below, other.Held := stack ▸ ready.held
    obtain ⟨inner, callers⟩ := List.forall_mem_cons.mp held
    simp only [State.Fenced, stack] at fenced
    exact parseBlock_good fenced ready inner callers

theorem start_good (quote : Bool) (file : Text) : Good (.start quote file) :=
  Ready.good ⟨rfl, rfl, fun _ member => absurd member List.not_mem_nil, fun _ member => absurd member List.not_mem_nil⟩

/-- A file all of whose parts meet what the place needs is read inside its lines, and only values are passed on. -/
theorem parser_safe {quote : Bool} {file : Text}
    (run : (parser env lineMax).Run (fun state _ => state.Fenced env lineMax) (.start quote file) state) : Safe state :=
  (run.invariant Good (fun _ _ running fenced good => step_good fenced (good.ready running)) (start_good quote file)).safe

/-- Every block is taken, and no file is included. -/
def Env.taking : Env := ⟨fun _ => true, fun _ _ _ => none⟩

def portLine : Text := "PORT { PORT 7; };".toList

theorem portLine_allows : (parser .taking 2048).Allows (fun state _ => state.Fenced .taking 2048) (.start false portLine)
    (List.replicate 12 ()) := by
  refine ⟨rfl, ?_, rfl, ?_, rfl, ?_, rfl, ?_, rfl, ?_, rfl, ?_, rfl, ?_, rfl, ?_, rfl, ?_, rfl, ?_, rfl, ?_, rfl, ?_, trivial⟩
  · exact fun none => nomatch none
  · exact fun _ => ⟨' ', by decide⟩
  · trivial
  · trivial
  · trivial
  · exact Nat.zero_lt_succ _
  · trivial
  · trivial
  · trivial
  · exact ⟨nofun, nofun⟩
  · exact fun none => nomatch none
  · exact fun _ _ => ⟨rfl, rfl, rfl⟩

theorem parser_safe_portLine :
    ((List.replicate 12 ()).foldl (parser .taking 2048).perform (.start false portLine)).outcome = .accepted ∧
      Safe ((List.replicate 12 ()).foldl (parser .taking 2048).perform (.start false portLine)) :=
  ⟨rfl, parser_safe (Machine.Run.of_list _ (.refl _) portLine_allows)⟩

/-- Behind the name of a block that is the last word of a file, the NUL of the line does not stop the scan. -/
theorem last_word_lost : ¬ ∀ (env : Env) (lineMax : Nat) (quote : Bool) (file : Text) (state : State),
    (parser env lineMax).Run Machine.Any (.start quote file) state → Safe state := by
  intro always
  have run : (parser .taking 2048).Run Machine.Any (.start false "PORT".toList)
      ([(), ()].foldl (parser .taking 2048).perform (.start false "PORT".toList)) :=
    Machine.Run.of_list [(), ()] (.refl _) ⟨rfl, trivial, rfl, trivial, trivial⟩
  exact (always .taking 2048 false "PORT".toList _ run).found rfl

end

end SolidIrcd.Conf
