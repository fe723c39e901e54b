import SolidIrcd.Transport.Dopacket

/-! A stream that arrives in one read with room for all of its text, next to the same stream in many reads:
`dopacket` comes to the same lines, but for what `inflate` still holds back. -/

namespace SolidIrcd.Transport

variable {τ D I : Type} (zlib : Zlib D I) (parse : τ → Bytes → τ × Verdict I)

/-- The whole of a text, with every change of stage at most once and in order. -/
def absorb : Nat → Receiver I → τ → Bytes → Option (Receiver I × τ)
  | 0, _, _, _ => none
  | turns + 1, receiver, state, text =>
    match scan parse state receiver.buffer text with
    | (state, buffer, .done) => some ({ receiver with buffer := buffer }, state)
    | (_, _, .flushed) => none
    | (state, buffer, .rc4 cipher rest) =>
      if receiver.rc4In.isSome ∨ receiver.zipIn.isSome then none
      else
        absorb turns { receiver with buffer := buffer, rc4In := some (rc4ProcessStream cipher rest).1 } state
          (rc4ProcessStream cipher rest).2
    | (state, buffer, .zip session rest) =>
      if receiver.zipIn.isSome then none
      else
        match zlib.feed session rest with
        | none => none
        | some (session, text) => absorb turns { receiver with buffer := buffer, zipIn := some session } state text

/-- What is left to absorb: a text that has come out already, what `zip_input` did not take, and the bytes to come. -/
def Remains (receiver : Receiver I) (state : τ) (text : Bytes) (nbuf : Option Bytes) (bytes : Bytes) (turns : Nat)
    (final : Receiver I × τ) : Prop :=
  match receiver.zipIn with
  | none =>
    nbuf = none ∧ absorb zlib parse turns { receiver with rc4In := (crypt receiver.rc4In bytes).1 } state
      (text ++ (crypt receiver.rc4In bytes).2) = some final
  | some session =>
    ∃ last more, zlib.feed session (nbuf.getD [] ++ (crypt receiver.rc4In bytes).2) = some (last, more) ∧
      absorb zlib parse turns { receiver with rc4In := (crypt receiver.rc4In bytes).1, zipIn := some last } state
        (text ++ more) = some final

/-- The link comes to `final` when the bytes have arrived and nothing is held back. -/
def Absorbs (receiver : Receiver I) (state : τ) (bytes : Bytes) (final : Receiver I × τ) : Prop :=
  ∃ turns, Remains zlib parse receiver state [] none bytes turns final

section

variable {zlib parse} {state : τ} {receiver : Receiver I}

/-- A scan goes on where it stopped. -/
theorem scan_append (first second : Bytes) :
    scan parse state buffer (first ++ second) =
      match scan parse state buffer first with
      | (state, buffer, .done) => scan parse state buffer second
      | (state, buffer, .flushed) => (state, buffer, .flushed)
      | (state, buffer, .zip session rest) => (state, buffer, .zip session (rest ++ second))
      | (state, buffer, .rc4 cipher rest) => (state, buffer, .rc4 cipher (rest ++ second)) := by
  induction first generalizing state buffer with
  | nil => rfl
  | cons g first ih =>
    rw [List.cons_append, scan, scan]
    by_cases eol : isEol g = true
    · rw [if_pos eol, if_pos eol]
      by_cases blank : buffer = []
      · rw [if_pos blank, if_pos blank, ih]
      · rw [if_neg blank, if_neg blank]
        rcases parse state buffer with ⟨state', verdict⟩
        cases verdict with
        | other => exact ih
        | _ => rfl
    · rw [if_neg eol, if_neg eol, ih]

theorem crypt_append (rc4In : Option Rc4) (first second : Bytes) :
    crypt rc4In (first ++ second) =
      ((crypt (crypt rc4In first).1 second).1,
        (crypt rc4In first).2 ++ (crypt (crypt rc4In first).1 second).2) := by
  cases rc4In with
  | none => rfl
  | some cipher => simp only [crypt, rc4_append]

/-- Text that has been scanned to its end is absorbed. -/
theorem absorb_done (receiver : Receiver I)
    (scanned : scan parse state receiver.buffer text = (state', buffer, .done)) (turns : Nat) (zlib : Zlib D I)
    (more : Bytes) :
    absorb zlib parse turns receiver state (text ++ more) =
      absorb zlib parse turns { receiver with buffer := buffer } state' more := by
  cases turns with
  | zero => rfl
  | succ turns => simp only [absorb, scan_append, scanned]

/-- How much there is to take, and to give for it. -/
def weight (zlib : Zlib D I) (session : I) (bytes : Bytes) : Nat :=
  bytes.length + ((zlib.feed session bytes).map fun given => given.2.length).getD 0

/-- `zip_input` loses nothing, and leaves less than there was. -/
theorem zipInput_spec (lawful : zlib.Lawful) (nonempty : bytes ≠ [])
    (fed : zlib.feed session (bytes ++ coming) = some (last, given)) :
    ∃ session' text nbuf more, zipInput zlib session bytes = some (session', text, nbuf) ∧
      (∀ left, nbuf = some left → left ≠ []) ∧ given = text ++ more ∧
      zlib.feed session' (nbuf.getD [] ++ coming) = some (last, more) ∧
      (∀ left, nbuf = some left → weight zlib session' left < weight zlib session bytes) := by
  rw [lawful.splits] at fed
  obtain ⟨⟨middle, front⟩, first, rest⟩ := Option.bind_eq_some_iff.mp fed
  obtain ⟨⟨final, back⟩, second, same⟩ := Option.map_eq_some_iff.mp rest
  obtain ⟨rfl, rfl⟩ : final = last ∧ front ++ back = given := Prod.mk.inj same
  obtain ⟨session', taken, part, inflated, within, fits, progress, left, room⟩ :=
    lawful.inflates session bytes middle front first nonempty
  obtain ⟨⟨middle', front'⟩, after, same⟩ := Option.map_eq_some_iff.mp left
  obtain ⟨rfl, rfl⟩ : middle' = middle ∧ part ++ front' = front := Prod.mk.inj same
  have onward : zlib.feed session' (bytes.drop taken ++ coming) = some (final, front' ++ back) := by
    rw [lawful.splits, after]
    simp only [Option.bind_some, second, Option.map_some]
  unfold zipInput
  simp only [inflated]
  by_cases all : taken < bytes.length
  · have full := room all
    rw [if_pos all, if_neg (not_not.mpr full)]
    refine ⟨session', part, some (bytes.drop taken), front' ++ back, rfl, ?_, List.append_assoc _ _ _, onward, ?_⟩
    · intro left same
      rw [← Option.some.inj same]
      exact fun none => absurd (List.drop_eq_nil_iff.mp none) (Nat.not_le.mpr all)
    · intro left same
      rw [← Option.some.inj same, weight, weight, first, after]
      simp only [Option.map_some, Option.getD_some, List.length_append, List.length_drop, full]
      have positive : 0 < zipInBufSize := by decide
      omega
  · rw [if_neg all]
    refine ⟨session', part, none, front' ++ back, rfl, nofun, List.append_assoc _ _ _, ?_, nofun⟩
    rwa [List.drop_eq_nil_of_le (Nat.le_of_not_lt all)] at onward

/-- With calls enough, a pass over a text leaves the link where it can absorb the rest. -/
def Keeps (zlib : Zlib D I) (parse : τ → Bytes → τ × Verdict I) (result : Nat → Option (Outcome τ I)) (bytes : Bytes)
    (final : Receiver I × τ) : Prop :=
  ∃ receiver state least, (∀ calls, least ≤ calls → result calls = some (.kept receiver state)) ∧
    Absorbs zlib parse receiver state bytes final

theorem remains_done (scanned : scan parse state receiver.buffer text = (state', buffer, .done)) :
    Remains zlib parse receiver state text nbuf bytes turns final ↔
      Remains zlib parse { receiver with buffer := buffer } state' [] nbuf bytes turns final := by
  unfold Remains
  cases zip : receiver.zipIn with
  | none =>
    have same := absorb_done { receiver with rc4In := (crypt receiver.rc4In bytes).1, zipIn := none } scanned turns zlib
    simp only [same, List.nil_append]
  | some session =>
    have same (last : I) :=
      absorb_done { receiver with rc4In := (crypt receiver.rc4In bytes).1, zipIn := some last } scanned turns zlib
    simp only [same, List.nil_append]

/-- What is absorbed exits no link. -/
theorem Remains.unflushed (remains : Remains zlib parse receiver state text nbuf bytes turns final) :
    scan parse state receiver.buffer text ≠ (state', buffer, .flushed) := by
  intro scanned
  unfold Remains at remains
  cases turns with
  | zero =>
    split at remains
    · cases remains.2
    · obtain ⟨_, _, _, absorbed⟩ := remains
      cases absorbed
  | succ turns =>
    split at remains
    · simp [absorb, scan_append, scanned] at remains
    · obtain ⟨_, _, _, absorbed⟩ := remains
      simp [absorb, scan_append, scanned] at absorbed

/-- The rest of a text behind a change to ciphering. -/
theorem Remains.rc4 (remains : Remains zlib parse receiver state text nbuf bytes (turns + 1) final)
    (scanned : scan parse state receiver.buffer text = (state', buffer, .rc4 cipher rest)) :
    nbuf = none ∧ Remains zlib parse { receiver with buffer := buffer, rc4In := some (rc4ProcessStream cipher rest).1 }
      state' (rc4ProcessStream cipher rest).2 none bytes turns final := by
  unfold Remains at remains ⊢
  cases zip : receiver.zipIn with
  | some session =>
    simp only [zip] at remains
    obtain ⟨last, more, fed, absorbed⟩ := remains
    simp [absorb, scan_append, scanned] at absorbed
  | none =>
    simp only [zip] at remains ⊢
    obtain ⟨none, absorbed⟩ := remains
    refine ⟨none, ?_⟩
    cases cipherIn : receiver.rc4In with
    | some before => simp [absorb, scan_append, scanned, cipherIn, crypt] at absorbed
    | none => simpa [absorb, scan_append, scanned, cipherIn, crypt, rc4_append] using absorbed

/-- The rest of a text behind a change to compression. -/
theorem Remains.zip (remains : Remains zlib parse receiver state text nbuf bytes (turns + 1) final)
    (scanned : scan parse state receiver.buffer text = (state', buffer, .zip session rest)) :
    nbuf = none ∧ ∃ last given, zlib.feed session (rest ++ (crypt receiver.rc4In bytes).2) = some (last, given) ∧
      absorb zlib parse turns
        { buffer := buffer, rc4In := (crypt receiver.rc4In bytes).1, zipIn := some last } state' given = some final := by
  unfold Remains at remains
  cases zip : receiver.zipIn with
  | some session =>
    simp only [zip] at remains
    obtain ⟨last, more, fed, absorbed⟩ := remains
    simp [absorb, scan_append, scanned] at absorbed
  | none =>
    simp only [zip] at remains
    obtain ⟨none, absorbed⟩ := remains
    refine ⟨none, ?_⟩
    simp only [absorb, scan_append, scanned, Option.isSome_none, Bool.false_eq_true, if_false]
      at absorbed
    cases fed : zlib.feed session (rest ++ (crypt receiver.rc4In bytes).2) with
    | none => simp [fed] at absorbed
    | some result =>
      simp only [fed] at absorbed
      exact ⟨result.1, result.2, rfl, absorbed⟩

private theorem more_calls (enough : least + 1 ≤ calls) : ∃ rest, calls = rest + 1 ∧ least ≤ rest := by
  obtain ⟨rest, rfl⟩ := Nat.exists_eq_add_of_le enough
  exact ⟨least + rest, by omega, Nat.le_add_right _ _⟩

/-- A text is gone through, with what `zip_input` did not take of it. -/
theorem process_keeps (lawful : zlib.Lawful) (turns bound : Nat) (receiver : Receiver I) (state : τ) (text : Bytes)
    (nbuf : Option Bytes) (remains : Remains zlib parse receiver state text nbuf bytes turns final)
    (left : ∀ rest, nbuf = some rest → rest ≠ [])
    (light : ∀ session rest, receiver.zipIn = some session → nbuf = some rest → weight zlib session rest < bound) :
    Keeps zlib parse (fun calls => process zlib parse calls receiver state text nbuf) bytes final := by
  induction turns generalizing bound receiver state text nbuf with
  | zero =>
    unfold Remains at remains
    split at remains
    · cases remains.2
    · obtain ⟨_, _, _, absorbed⟩ := remains
      cases absorbed
  | succ turns ih =>
    induction bound using Nat.strong_induction_on generalizing receiver state text nbuf with
    | _ bound ih' =>
    rcases scanned : scan parse state receiver.buffer text with ⟨state', buffer, stop⟩
    cases stop with
    | flushed => exact absurd scanned remains.unflushed
    | rc4 cipher rest =>
      obtain ⟨rfl, behind⟩ := remains.rc4 scanned
      obtain ⟨receiver', state', least, goes, after⟩ :=
        ih 0 _ _ _ none behind (fun _ same => nomatch same) fun _ _ _ same => nomatch same
      refine ⟨receiver', state', least + 1, fun calls enough => ?_, after⟩
      obtain ⟨calls, rfl, least'⟩ := more_calls enough
      simp only [process, scanned]
      exact goes calls least'
    | zip session rest =>
      obtain ⟨rfl, last, given, fed, absorbed⟩ := remains.zip scanned
      by_cases empty : rest = []
      · have remains : Remains zlib parse { receiver with buffer := buffer, zipIn := some session } state' [] none bytes
            turns final := ⟨last, given, by simpa [empty] using fed, by simpa using absorbed⟩
        obtain ⟨receiver', state', least, goes, after⟩ :=
          ih 0 _ _ _ none remains (fun _ same => nomatch same) fun _ _ _ same => nomatch same
        refine ⟨receiver', state', least + 1, fun calls enough => ?_, after⟩
        obtain ⟨calls, rfl, least'⟩ := more_calls enough
        simp only [process, scanned, if_pos empty]
        exact goes calls least'
      · obtain ⟨session', text', nbuf, more, taken, left, rfl, onward, lighter⟩ := zipInput_spec lawful empty fed
        have remains : Remains zlib parse { receiver with buffer := buffer, zipIn := some session' } state' text' nbuf
            bytes turns final := ⟨last, more, onward, absorbed⟩
        obtain ⟨receiver', state', least, goes, after⟩ :=
          ih (weight zlib session rest) _ _ _ _ remains left fun other left same some => by
            rw [← Option.some.inj same]
            exact lighter left some
        refine ⟨receiver', state', least + 1, fun calls enough => ?_, after⟩
        obtain ⟨calls, rfl, least'⟩ := more_calls enough
        simp only [process, scanned, if_neg empty, taken]
        exact goes calls least'
    | done =>
      have remains := (remains_done scanned).mp remains
      cases rest : nbuf with
      | none =>
        refine ⟨_, _, 1, fun calls enough => ?_, turns + 1, rest ▸ remains⟩
        obtain ⟨calls, rfl, _⟩ := more_calls enough
        simp only [process, scanned]
      | some again =>
        cases zip : receiver.zipIn with
        | none =>
          unfold Remains at remains
          simp [zip, rest] at remains
        | some session =>
          unfold Remains at remains
          simp only [zip, rest, Option.getD_some, List.nil_append] at remains
          obtain ⟨last, given, fed, absorbed⟩ := remains
          obtain ⟨session', text', nbuf', more, taken, left', rfl, onward, lighter⟩ :=
            zipInput_spec lawful (left again rest) fed
          have remains : Remains zlib parse { receiver with buffer := buffer, zipIn := some session' } state' text' nbuf'
              bytes (turns + 1) final := ⟨last, more, onward, absorbed⟩
          obtain ⟨receiver', state', least, goes, after⟩ :=
            ih' (weight zlib session again)
              (light session again zip rest) _ _ _ _ remains left' fun other left same some => by
              rw [← Option.some.inj same]
              exact lighter left some
          refine ⟨receiver', state', least + 2, fun calls enough => ?_, after⟩
          obtain ⟨once, rfl, enough'⟩ := more_calls enough
          obtain ⟨calls, rfl, least'⟩ := more_calls enough'
          simp only [process, scanned, zcontinue, zip, taken]
          exact goes calls least'

theorem length_crypt (rc4In : Option Rc4) (bytes : Bytes) : (crypt rc4In bytes).2.length = bytes.length := by
  cases rc4In with
  | none => rfl
  | some cipher => exact length_rc4 cipher bytes

/-- One read of `dopacket`: the link goes on to absorb what comes behind it. -/
theorem dopacket_keeps (lawful : zlib.Lawful) (absorbs : Absorbs zlib parse receiver state (chunk ++ bytes) final)
    (nonempty : chunk ≠ []) :
    Keeps zlib parse (fun calls => dopacket zlib parse calls receiver state chunk) bytes final := by
  obtain ⟨turns, remains⟩ := absorbs
  unfold Remains at remains
  rw [crypt_append] at remains
  cases zip : receiver.zipIn with
  | none =>
    simp only [zip, true_and, List.nil_append] at remains
    have behind : Remains zlib parse { receiver with rc4In := (crypt receiver.rc4In chunk).1, zipIn := none } state
        (crypt receiver.rc4In chunk).2 none bytes turns final := ⟨rfl, remains⟩
    obtain ⟨receiver', state', least, goes, after⟩ :=
      process_keeps lawful turns 0 _ state _ none behind (fun _ same => nomatch same) fun _ _ _ same => nomatch same
    refine ⟨receiver', state', least + 1, fun calls enough => ?_, after⟩
    obtain ⟨calls, rfl, least'⟩ := more_calls enough
    simp only [dopacket, zcontinue, zip]
    exact goes calls least'
  | some session =>
    simp only [zip, Option.getD_none, List.nil_append] at remains
    obtain ⟨last, given, fed, absorbed⟩ := remains
    have some : (crypt receiver.rc4In chunk).2 ≠ [] := by
      apply List.ne_nil_of_length_pos
      rw [length_crypt]
      exact List.length_pos_of_ne_nil nonempty
    obtain ⟨session', text, nbuf, more, taken, left, rfl, onward, lighter⟩ := zipInput_spec lawful some fed
    have behind : Remains zlib parse
        { receiver with rc4In := (crypt receiver.rc4In chunk).1, zipIn := Option.some session' } state text nbuf bytes
        turns final := ⟨last, more, onward, absorbed⟩
    obtain ⟨receiver', state', least, goes, after⟩ :=
      process_keeps lawful turns (weight zlib session (crypt receiver.rc4In chunk).2) _ state _ nbuf
        behind left fun other left same some => by
        rw [← Option.some.inj same]
        exact lighter left some
    refine ⟨receiver', state', least + 1, fun calls enough => ?_, after⟩
    obtain ⟨calls, rfl, least'⟩ := more_calls enough
    simp only [dopacket, zcontinue, zip, taken]
    exact goes calls least'

/-- Absorbing goes on where it ended. -/
theorem absorb_extend (lawful : zlib.Lawful) (absorbed : absorb zlib parse turns receiver state text = some middle)
    (remains : Remains zlib parse middle.1 middle.2 [] none bytes turns' final) :
    ∃ turns, Remains zlib parse receiver state text none bytes turns final := by
  induction turns generalizing receiver state text with
  | zero => cases absorbed
  | succ turns ih =>
    rw [absorb] at absorbed
    rcases scanned : scan parse state receiver.buffer text with ⟨state', buffer, stop⟩
    simp only [scanned] at absorbed
    cases stop with
    | flushed => cases absorbed
    | done =>
      rw [← Option.some.inj absorbed] at remains
      exact ⟨turns', (remains_done scanned).mpr remains⟩
    | rc4 cipher rest =>
      dsimp only at absorbed
      by_cases staged : receiver.rc4In.isSome ∨ receiver.zipIn.isSome
      · rw [if_pos staged] at absorbed
        cases absorbed
      · rw [if_neg staged] at absorbed
        obtain ⟨more, onward⟩ := ih absorbed
        simp only [not_or, Bool.not_eq_true, Option.isSome_eq_false_iff, Option.isNone_iff_eq_none] at staged
        obtain ⟨plain, unzipped⟩ := staged
        refine ⟨more + 1, ?_⟩
        unfold Remains at onward ⊢
        simp only [unzipped, plain, crypt, true_and, absorb, scan_append, scanned,
          Option.isSome_none, Bool.false_eq_true, or_self, if_false, rc4_append] at onward ⊢
        exact onward
    | zip session rest =>
      dsimp only at absorbed
      by_cases staged : receiver.zipIn.isSome
      · rw [if_pos staged] at absorbed
        cases absorbed
      · rw [if_neg staged] at absorbed
        simp only [Bool.not_eq_true, Option.isSome_eq_false_iff, Option.isNone_iff_eq_none] at staged
        cases fed : zlib.feed session rest with
        | none => simp [fed] at absorbed
        | some given =>
          simp only [fed] at absorbed
          obtain ⟨more, last, text', onward, behind⟩ := ih absorbed
          refine ⟨more + 1, ?_⟩
          unfold Remains
          simp only [Option.getD_none, List.nil_append] at onward
          simp only [staged, true_and, absorb, scan_append, scanned, Option.bind_some, Option.isSome_none,
            Bool.false_eq_true, if_false, lawful.splits, fed, onward, Option.map_some]
          exact behind

theorem Absorbs.append (lawful : zlib.Lawful) (first : Absorbs zlib parse receiver state bytes middle)
    (second : Absorbs zlib parse middle.1 middle.2 more final) : Absorbs zlib parse receiver state (bytes ++ more) final := by
  obtain ⟨turns, remains⟩ := first
  obtain ⟨turns', behind⟩ := second
  unfold Remains at remains
  unfold Absorbs Remains
  rw [crypt_append]
  cases zip : receiver.zipIn with
  | none =>
    simp only [zip, true_and, List.nil_append] at remains ⊢
    obtain ⟨turns, onward⟩ := absorb_extend lawful remains behind
    exact ⟨turns, onward.2⟩
  | some session =>
    simp only [zip, Option.getD_none, List.nil_append] at remains ⊢
    obtain ⟨last, given, fed, absorbed⟩ := remains
    obtain ⟨turns, last', given', fed', absorbed'⟩ := absorb_extend lawful absorbed behind
    simp only [Option.getD_none, List.nil_append] at fed'
    exact ⟨turns, last', given ++ given', by simp [lawful.splits, fed, fed'], absorbed'⟩

end

end SolidIrcd.Transport
