import SolidIrcd.Transport.Transparent

/-! A handler that answers the lines of a link as the lines themselves tell is handed just the lines that were
sent, and `dopacket` leaves the link where it leaves it without the handler. -/

namespace SolidIrcd.Transport

variable {τ D I : Type} (zlib : Zlib D I) (key : Bytes) (parse : τ → Bytes → τ × Verdict I)

/-- The state in which lines leave a handler. -/
def handle (state : τ) (lines : List Bytes) : τ := lines.foldl (fun state line => (parse state line).1) state

/-- A handler answers every line as `hand` does. -/
def Follows : τ → List Bytes → Prop
  | _, [] => True
  | state, line :: lines => (parse state line).2 = (hand zlib key [] line).2 ∧ Follows (parse state line).1 lines

section

variable {zlib key parse} {receiver receiver' : Receiver I}

theorem handle_append (state : τ) (first second : List Bytes) :
    handle parse state (first ++ second) = handle parse (handle parse state first) second :=
  List.foldl_append

theorem Follows.of_append (follows : Follows zlib key parse state (lines ++ more)) :
    Follows zlib key parse state lines ∧ Follows zlib key parse (handle parse state lines) more := by
  induction lines generalizing state with
  | nil => exact ⟨trivial, follows⟩
  | cons line lines ih => exact ⟨⟨follows.1, (ih follows.2).1⟩, (ih follows.2).2⟩

/-- How a scan goes on behind a line. -/
def behindLine (parse : τ → Bytes → τ × Verdict I) (bytes : Bytes) (state : τ) : Verdict I → τ × Bytes × Stop I
  | .flushBuffer => (state, [], .flushed)
  | .zipNextBuffer session => (state, [], .zip session bytes)
  | .rc4NextBuffer cipher => (state, [], .rc4 cipher bytes)
  | .other => scan parse state [] bytes

theorem scan_eol (eol : isEol g = true) (some : buffer ≠ []) :
    scan parse state buffer (g :: bytes) = behindLine parse bytes (parse state buffer).1 (parse state buffer).2 := by
  rw [scan, if_pos eol, if_neg some]
  rcases parse state buffer with ⟨state', verdict⟩
  cases verdict <;> rfl

/-- Where a scan stops that hands over some lines: only a line that begins a stage stops it, and then it is the last. -/
def Stops (zlib : Zlib D I) (key : Bytes) (handed : List Bytes) (buffer bytes : Bytes) (lines : List Bytes) :
    Stop I → Prop
  | .done => dkeyDone ∉ lines
  | .flushed => False
  | .zip _ _ => dkeyDone ∉ lines ∧ svinfoZip ∈ lines
  | .rc4 cipher rest => cipher = rc4Initstate key ∧ (∃ before, lines = before ++ [dkeyDone]) ∧
    ∃ front, bytes = front ++ rest ∧ scan (hand zlib key) handed buffer front = (handed ++ lines, [], .rc4 cipher [])

/-- One more byte that only fills the buffer, or ends a line that begins no stage. -/
theorem Stops.step (stops : Stops zlib key (handed ++ lines) buffer' bytes more stop)
    (unstaged : dkeyDone ∉ lines)
    (stepped : ∀ bytes, scan (hand zlib key) handed buffer (g :: bytes) =
      scan (hand zlib key) (handed ++ lines) buffer' bytes) :
    Stops zlib key handed buffer (g :: bytes) (lines ++ more) stop := by
  cases stop with
  | done => exact fun inside => (List.mem_append.mp inside).elim unstaged stops
  | flushed => exact stops
  | zip session rest =>
    exact ⟨fun inside => (List.mem_append.mp inside).elim unstaged stops.1, List.mem_append_right _ stops.2⟩
  | rc4 cipher rest =>
    obtain ⟨initial, ⟨before, last⟩, front, split, stopped⟩ := stops
    refine ⟨initial, ⟨lines ++ before, by rw [last, List.append_assoc]⟩, g :: front, by rw [split, List.cons_append], ?_⟩
    rw [stepped, stopped, List.append_assoc]

/-- The lines of a scan, and the same scan with a handler that follows them. -/
theorem scan_hand (scanned : scan (hand zlib key) handed buffer bytes = (handed', buffer', stop)) :
    ∃ lines, handed' = handed ++ lines ∧ Stops zlib key handed buffer bytes lines stop ∧
      ∀ (parse : τ → Bytes → τ × Verdict I) state, Follows zlib key parse state lines →
        scan parse state buffer bytes = (handle parse state lines, buffer', stop) := by
  induction bytes generalizing handed buffer with
  | nil =>
    obtain ⟨rfl, rfl, rfl⟩ := scanned
    exact ⟨[], (List.append_nil _).symm, List.not_mem_nil, fun _ _ _ => rfl⟩
  | cons g bytes ih =>
    by_cases eol : isEol g = true
    · by_cases blank : buffer = []
      · have stepped {σ : Type} (parse : σ → Bytes → σ × Verdict I) (state : σ) (bytes : Bytes) :
            scan parse state buffer (g :: bytes) = scan parse state [] bytes := by
          rw [scan, if_pos eol, if_pos blank]
        rw [stepped] at scanned
        obtain ⟨lines, same, stops, onward⟩ := ih scanned
        rw [← List.append_nil handed] at stops
        refine ⟨lines, same, stops.step List.not_mem_nil fun bytes => ?_, fun parse state follows => ?_⟩
        · rw [stepped, List.append_nil]
        · rw [stepped]
          exact onward parse state follows
      · have stepped {σ : Type} (parse : σ → Bytes → σ × Verdict I) (state : σ) (bytes : Bytes) :
            scan parse state buffer (g :: bytes) = behindLine parse bytes (parse state buffer).1 (parse state buffer).2 :=
          scan_eol eol blank
        rw [stepped] at scanned
        by_cases done : buffer = dkeyDone
        · simp only [hand, if_pos done, behindLine, Prod.mk.injEq] at scanned
          obtain ⟨first, second, third⟩ := scanned
          subst first second third
          refine ⟨[buffer], rfl, ⟨rfl, ⟨[], by rw [done, List.nil_append]⟩, [g], rfl, ?_⟩, fun parse state follows => ?_⟩
          · rw [stepped]
            simp only [hand, if_pos done, behindLine]
          · have answer := follows.1
            rw [hand, if_pos done] at answer
            rw [stepped, answer]
            rfl
        · by_cases zipped : buffer = svinfoZip
          · simp only [hand, if_neg done, if_pos zipped, behindLine, Prod.mk.injEq] at scanned
            obtain ⟨first, second, third⟩ := scanned
            subst first second third
            refine ⟨[buffer], rfl, ⟨?_, ?_⟩, fun parse state follows => ?_⟩
            · rw [List.mem_singleton]
              exact fun same => done same.symm
            · rw [zipped]
              exact List.mem_singleton_self _
            · have answer := follows.1
              rw [hand, if_neg done, if_pos zipped] at answer
              rw [stepped, answer]
              rfl
          · simp only [hand, if_neg done, if_neg zipped, behindLine] at scanned
            obtain ⟨lines, same, stops, onward⟩ := ih scanned
            refine ⟨[buffer] ++ lines, by rw [same, List.append_assoc],
              stops.step (fun inside => done (List.mem_singleton.mp inside).symm) fun bytes => ?_,
              fun parse state follows => ?_⟩
            · rw [stepped]
              simp only [hand, if_neg done, if_neg zipped, behindLine]
            · have answer := follows.1
              rw [hand, if_neg done, if_neg zipped] at answer
              rw [stepped, answer]
              exact onward parse _ follows.2
    · have stepped {σ : Type} (parse : σ → Bytes → σ × Verdict I) (state : σ) (bytes : Bytes) :
          scan parse state buffer (g :: bytes) =
            scan parse state (if buffer.length < bufSize - 1 then buffer ++ [g] else buffer) bytes := by
        rw [scan, if_neg eol]
      rw [stepped] at scanned
      obtain ⟨lines, same, stops, onward⟩ := ih scanned
      rw [← List.append_nil handed] at stops
      refine ⟨lines, same, stops.step List.not_mem_nil fun bytes => ?_, fun parse state follows => ?_⟩
      · rw [stepped, List.append_nil]
      · rw [stepped]
        exact onward parse state follows

/-- What calls of a pass over a text come to under `hand`, they come to under a handler that follows it. -/
def Led (zlib : Zlib D I) (key : Bytes) (parse : τ → Bytes → τ × Verdict I) (handed : List Bytes)
    (result : Option (Outcome (List Bytes) I)) (receiver : Receiver I) (real : τ → Option (Outcome τ I)) : Prop :=
  ∀ receiver' handed', result = some (.kept receiver' handed') →
    ∃ lines, handed' = handed ++ lines ∧ (dkeyDone ∉ lines → receiver'.rc4In = receiver.rc4In) ∧
      ∀ state, Follows zlib key parse state lines → real state = some (.kept receiver' (handle parse state lines))

theorem process_hand (parse : τ → Bytes → τ × Verdict I) (calls : Nat) :
    (∀ receiver handed text nbuf, Led zlib key parse handed
      (process zlib (hand zlib key) calls receiver handed text nbuf) receiver
      fun state => process zlib parse calls receiver state text nbuf) ∧
    ∀ receiver handed bytes, Led zlib key parse handed (zcontinue zlib (hand zlib key) calls receiver handed bytes)
      receiver fun state => zcontinue zlib parse calls receiver state bytes := by
  induction calls with
  | zero =>
    constructor
    · intro receiver handed bytes nbuf receiver' handed' result
      cases result
    · intro receiver handed bytes receiver' handed' result
      cases result
  | succ calls ih =>
    obtain ⟨processes, continues⟩ := ih
    constructor
    · intro receiver handed text nbuf receiver' handed' result
      rcases scanned : scan (hand zlib key) handed receiver.buffer text with ⟨handed₁, buffer, stop⟩
      obtain ⟨lines, rfl, stops, onward⟩ := scan_hand (τ := τ) scanned
      simp only [process, scanned] at result
      cases stop with
      | flushed => exact stops.elim
      | done =>
        cases rest : nbuf with
        | none =>
          simp only [rest] at result
          obtain ⟨rfl, rfl⟩ := Outcome.kept.inj (Option.some.inj result)
          refine ⟨lines, rfl, fun _ => rfl, fun state follows => ?_⟩
          simp only [process, onward parse state follows]
        | some nbuf =>
          simp only [rest] at result
          obtain ⟨more, rfl, same, behind⟩ := continues _ _ _ _ _ result
          refine ⟨lines ++ more, List.append_assoc .., fun absent => same fun inside => absent ?_, fun state follows => ?_⟩
          · exact List.mem_append_right _ inside
          · obtain ⟨first, second⟩ := follows.of_append
            simp only [process, onward parse state first, handle_append]
            exact behind _ second
      | rc4 cipher rest =>
        obtain ⟨more, rfl, -, behind⟩ := processes _ _ _ _ _ _ result
        refine ⟨lines ++ more, List.append_assoc .., fun absent => absurd ?_ absent, fun state follows => ?_⟩
        · obtain ⟨-, ⟨before, last⟩, -⟩ := stops
          rw [last]
          simp
        · obtain ⟨first, second⟩ := follows.of_append
          simp only [process, onward parse state first, handle_append]
          exact behind _ second
      | zip session rest =>
        by_cases empty : rest = []
        · simp only [if_pos empty] at result
          obtain ⟨more, rfl, same, behind⟩ := processes _ _ _ _ _ _ result
          refine ⟨lines ++ more, List.append_assoc .., fun absent => same fun inside => absent ?_, fun state follows => ?_⟩
          · exact List.mem_append_right _ inside
          · obtain ⟨first, second⟩ := follows.of_append
            simp only [process, onward parse state first, handle_append]
            simp only [if_pos empty]
            exact behind _ second
        · simp only [if_neg empty] at result
          cases inflated : zipInput zlib session rest with
          | none => simp [inflated] at result
          | some given =>
            simp only [inflated] at result
            obtain ⟨more, rfl, same, behind⟩ := processes _ _ _ _ _ _ result
            refine ⟨lines ++ more, List.append_assoc .., fun absent => same fun inside => absent ?_,
              fun state follows => ?_⟩
            · exact List.mem_append_right _ inside
            · obtain ⟨first, second⟩ := follows.of_append
              simp only [process, onward parse state first, handle_append]
              simp only [if_neg empty, inflated]
              exact behind _ second
    · intro receiver handed bytes receiver' handed' result
      rw [zcontinue] at result
      cases zipIn : receiver.zipIn with
      | none =>
        simp only [zipIn] at result
        obtain ⟨lines, rfl, same, behind⟩ := processes _ _ _ _ _ _ result
        refine ⟨lines, rfl, same, fun state follows => ?_⟩
        simp only [zcontinue, zipIn]
        exact behind state follows
      | some session =>
        simp only [zipIn] at result
        cases inflated : zipInput zlib session bytes with
        | none => simp [inflated] at result
        | some given =>
          simp only [inflated] at result
          obtain ⟨lines, rfl, same, behind⟩ := processes _ _ _ _ _ _ result
          refine ⟨lines, rfl, same, fun state follows => ?_⟩
          simp only [zcontinue, zipIn, inflated]
          exact behind state follows

/-- More calls than enough change nothing. -/
theorem process_succ (calls : Nat) :
    (∀ receiver state text nbuf (outcome : Outcome τ I), process zlib parse calls receiver state text nbuf = some outcome →
      process zlib parse (calls + 1) receiver state text nbuf = some outcome) ∧
    ∀ receiver state bytes (outcome : Outcome τ I), zcontinue zlib parse calls receiver state bytes = some outcome →
      zcontinue zlib parse (calls + 1) receiver state bytes = some outcome := by
  induction calls with
  | zero =>
    constructor
    · intro receiver state text nbuf outcome result
      cases result
    · intro receiver state bytes outcome result
      cases result
  | succ calls ih =>
    obtain ⟨processes, continues⟩ := ih
    constructor
    · intro receiver state text nbuf outcome result
      rw [process] at result ⊢
      rcases scanned : scan parse state receiver.buffer text with ⟨state', buffer, stop⟩
      rw [scanned] at result
      cases stop with
      | flushed => exact result
      | done =>
        cases rest : nbuf with
        | none =>
          rw [rest] at result
          exact result
        | some nbuf =>
          rw [rest] at result
          exact continues _ _ _ _ result
      | rc4 cipher rest => exact processes _ _ _ _ _ result
      | zip session rest =>
        by_cases empty : rest = []
        · simp only [if_pos empty] at result ⊢
          exact processes _ _ _ _ _ result
        · simp only [if_neg empty] at result ⊢
          cases inflated : zipInput zlib session rest with
          | none =>
            rw [inflated] at result
            exact result
          | some given =>
            rw [inflated] at result
            exact processes _ _ _ _ _ result
    · intro receiver state bytes outcome result
      rw [zcontinue] at result ⊢
      cases zipIn : receiver.zipIn with
      | none =>
        rw [zipIn] at result
        exact processes _ _ _ _ _ result
      | some session =>
        simp only [zipIn] at result ⊢
        cases inflated : zipInput zlib session bytes with
        | none =>
          rw [inflated] at result
          exact result
        | some given =>
          rw [inflated] at result
          exact processes _ _ _ _ _ result

theorem dopacket_le (more : calls ≤ calls') (result : dopacket zlib parse calls receiver state chunk = some outcome) :
    dopacket zlib parse calls' receiver state chunk = some outcome := by
  induction more with
  | refl => exact result
  | step _ ih => exact (process_succ _).2 _ _ _ _ ih

/-- One read with a handler that follows the lines. -/
theorem dopacket_hand (parse : τ → Bytes → τ × Verdict I)
    (result : dopacket zlib (hand zlib key) calls receiver handed chunk = some (.kept receiver' handed')) :
    ∃ lines, handed' = handed ++ lines ∧ (dkeyDone ∉ lines → receiver'.rc4In = (crypt receiver.rc4In chunk).1) ∧
      ∀ state, Follows zlib key parse state lines →
        dopacket zlib parse calls receiver state chunk = some (.kept receiver' (handle parse state lines)) :=
  (process_hand parse calls).2 _ _ _ _ _ result

/-- One more read. -/
theorem dopackets_snoc
    (first : dopackets zlib key calls receiver handed chunks = some (.kept receiver' handed'))
    (second : dopacket zlib (hand zlib key) calls receiver' handed' chunk = some (.kept receiver'' handed'')) :
    dopackets zlib key calls receiver handed (chunks ++ [chunk]) = some (.kept receiver'' handed'') := by
  induction chunks generalizing receiver handed with
  | nil =>
    obtain ⟨rfl, rfl⟩ := Outcome.kept.inj (Option.some.inj first)
    rw [List.nil_append, dopackets, second]
    rfl
  | cons read chunks ih =>
    rw [dopackets] at first
    rw [List.cons_append, dopackets]
    cases result : dopacket zlib (hand zlib key) calls receiver handed read with
    | none =>
      rw [result] at first
      cases first
    | some outcome =>
      rw [result] at first
      cases outcome with
      | kept receiver handed => exact ih first
      | exited handed => cases first

/-- What is absorbed later is handed over later. -/
theorem Absorbs.hands {final : Receiver I × List Bytes}
    (absorbs : Absorbs zlib (hand zlib key) receiver handed bytes final) : ∃ lines, final.2 = handed ++ lines := by
  have absorbed (turns : Nat) : ∀ (receiver : Receiver I) handed text,
      absorb zlib (hand zlib key) turns receiver handed text = some final → ∃ lines, final.2 = handed ++ lines := by
    induction turns with
    | zero =>
      intro receiver handed text same
      cases same
    | succ turns ih =>
      intro receiver handed text same
      rw [absorb] at same
      rcases scanned : scan (hand zlib key) handed receiver.buffer text with ⟨handed', buffer, stop⟩
      obtain ⟨lines, rfl, -, -⟩ := scan_hand (τ := Unit) scanned
      rw [scanned] at same
      cases stop with
      | flushed => cases same
      | done =>
        obtain rfl := Option.some.inj same
        exact ⟨lines, rfl⟩
      | rc4 cipher rest =>
        dsimp only at same
        split at same
        · cases same
        · obtain ⟨more, behind⟩ := ih _ _ _ same
          exact ⟨lines ++ more, by rw [behind, List.append_assoc]⟩
      | zip session rest =>
        dsimp only at same
        split at same
        · cases same
        · split at same
          · cases same
          · obtain ⟨more, behind⟩ := ih _ _ _ same
            exact ⟨lines ++ more, by rw [behind, List.append_assoc]⟩
  obtain ⟨turns, remains⟩ := absorbs
  unfold Remains at remains
  split at remains
  · exact absorbed _ _ _ _ remains.2
  · obtain ⟨_, _, -, absorbed'⟩ := remains
    exact absorbed _ _ _ _ absorbed'

end

end SolidIrcd.Transport
