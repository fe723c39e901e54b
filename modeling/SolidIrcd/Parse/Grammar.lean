import SolidIrcd.Parse.Params
import SolidIrcd.Parse.CursorSafety

/-! What `parse` makes of a command: middle parameters, each behind spaces, and at most
one trailing parameter. -/

namespace SolidIrcd.Parse

open Scan

def spaces (count : Nat) : Text := List.replicate count ' '

/-- Middle parameters, with a run of spaces in front of each. -/
inductive Middles : Text → List Text → Prop where
  | nil : Middles [] []
  | cons (gap : Nat) (word : Word middle) (rest : Middles text middles) :
    Middles (spaces (gap + 1) ++ middle ++ text) (middle :: middles)

/-- The parameters behind a command that allows `limit` of them. A colon introduces the
trailing one, or it is the last that is allowed. -/
inductive Grammar (limit : Nat) : Text → List Text → Prop where
  | plain (blanks : Nat) (rest : Middles text middles) (few : middles.length < limit) :
    Grammar limit (text ++ spaces blanks) middles
  | colon (gap : Nat) (trailing : Text) (rest : Middles text middles) (few : middles.length < limit) :
    Grammar limit (text ++ spaces (gap + 1) ++ ':' :: trailing) (middles ++ [trailing])
  | last (gap : Nat) (rest : Middles text middles) (full : middles.length + 1 = limit) (nonempty : trailing ≠ [])
      (noSpace : trailing.head? ≠ some ' ') (noColon : trailing.head? ≠ some ':') :
    Grammar limit (text ++ spaces (gap + 1) ++ trailing) (middles ++ [trailing])

theorem Grammar.length_le (grammar : Grammar limit text parameters) : parameters.length ≤ limit := by
  cases grammar with
  | plain _ _ few => exact Nat.le_of_lt few
  | colon _ _ _ few => simpa using Nat.succ_le_of_lt few
  | last _ _ full => simp [full]

theorem Middles.solid (middles : Middles text parameters) : ∀ parameter ∈ parameters, ' ' ∉ parameter := by
  induction middles with
  | nil => simp
  | cons gap word rest ih =>
    intro parameter member
    rcases List.mem_cons.mp member with rfl | later
    · exact word.solid
    · exact ih parameter later

/-- Only a trailing parameter may hold a space. -/
theorem Grammar.solid (grammar : Grammar limit text parameters) : ∀ parameter ∈ parameters.dropLast, ' ' ∉ parameter := by
  cases grammar with
  | plain _ rest => exact fun parameter member => rest.solid parameter (List.dropLast_subset _ member)
  | colon _ _ rest => simpa using rest.solid
  | last _ rest => simpa using rest.solid

/-- One more middle parameter in front. -/
theorem Grammar.cons (gap : Nat) (word : Word middle) (grammar : Grammar limit text parameters) :
    Grammar (limit + 1) (spaces (gap + 1) ++ middle ++ text) (middle :: parameters) := by
  cases grammar with
  | plain blanks rest few =>
    have longer := Grammar.plain blanks (rest.cons gap word) (Nat.succ_lt_succ few)
    simpa using longer
  | colon gap' trailing rest few =>
    have longer := Grammar.colon gap' trailing (rest.cons gap word) (Nat.succ_lt_succ few)
    simpa using longer
  | last gap' rest full nonempty noSpace noColon =>
    have longer := Grammar.last gap' (rest.cons gap word) (congrArg Nat.succ full) nonempty noSpace noColon
    simpa using longer

private theorem takeWhile_spaces (text : Text) :
    text.takeWhile (· == ' ') = spaces (text.takeWhile (· == ' ')).length := by
  refine List.eq_replicate_of_mem ?_
  intro c member
  simpa using List.mem_takeWhile_imp member

/-- A text that opens with a space starts with a run of them. -/
private theorem spaces_split (opens : text.head? = some ' ') :
    ∃ gap, text = spaces (gap + 1) ++ text.dropWhile (· == ' ') := by
  cases text with
  | nil => simp at opens
  | cons c rest =>
    obtain rfl : c = ' ' := by simpa using opens
    refine ⟨(rest.takeWhile (· == ' ')).length, ?_⟩
    conv_lhs => rw [← List.takeWhile_append_dropWhile (p := (· == ' ')) (l := rest)]
    rw [takeWhile_spaces rest]
    simp [spaces, List.replicate_succ]

private theorem head_dropWhile_ne (text : Text) : (text.dropWhile (· == ' ')).head? ≠ some ' ' := by
  have stop := List.head?_dropWhile_not (· == ' ') text
  intro space
  simp [space] at stop

private theorem dropWhile_opens (text : Text) :
    text.dropWhile (· != ' ') = [] ∨ (text.dropWhile (· != ' ')).head? = some ' ' := by
  have stop := List.head?_dropWhile_not (· != ' ') text
  cases rest : text.dropWhile (· != ' ') with
  | nil => exact .inl rfl
  | cons c others => exact .inr (by simpa [rest] using stop)

/-- The parameter loop reads the grammar. -/
theorem params_grammar (room : Nat) (text : Text) (opens : text = [] ∨ text.head? = some ' ') :
    Grammar (max 1 room) text (params room text) := by
  induction room using Nat.strongRecOn generalizing text with
  | _ room ih =>
    have few : ([] : List Text).length < max 1 room := Nat.lt_of_lt_of_le Nat.one_pos (Nat.le_max_left 1 room)
    rcases opens with rfl | space
    · rw [params_nil]
      exact .plain 0 .nil few
    · obtain ⟨gap, split⟩ := spaces_split space
      have notSpace := head_dropWhile_ne text
      rw [params]
      cases rest : text.dropWhile (· == ' ') with
      | nil =>
        rw [rest] at split
        rw [split, List.append_nil]
        exact .plain (gap + 1) .nil few
      | cons first others =>
        rw [rest] at split notSpace
        simp only
        by_cases colon : first = ':'
        · rw [if_pos colon, split, colon]
          exact .colon gap others .nil few
        · rw [if_neg colon]
          have noColon : (first :: others).head? ≠ some ':' := by simpa using colon
          cases room with
          | zero =>
            rw [split]
            exact .last gap .nil rfl (List.cons_ne_nil _ _) notSpace noColon
          | succ room =>
            cases room with
            | zero =>
              rw [split]
              exact .last gap .nil rfl (List.cons_ne_nil _ _) notSpace noColon
            | succ room =>
              have word : Word ((first :: others).takeWhile (· != ' ')) := by
                have space : first ≠ ' ' := by simpa using notSpace
                refine ⟨by simp [space], fun member => ?_, by simp [space, colon]⟩
                simpa using List.mem_takeWhile_imp member
              have later := ih (room + 1) (Nat.lt_succ_self _) _ (dropWhile_opens (first :: others))
              have whole := later.cons gap word
              rw [List.append_assoc, List.takeWhile_append_dropWhile, ← split] at whole
              have limit : max 1 (room + 1) + 1 = max 1 (room + 2) := by omega
              exact limit ▸ whole

section Loop

variable {bytes after : Text}

private theorem take_blank (order : first ≤ stop) (bound : stop ≤ bytes.length) :
    (blank bytes first stop).take first = bytes.take first := by
  rw [blank, List.append_assoc, List.take_append_of_le_length, List.take_take, Nat.min_self]
  rw [List.length_take]
  omega

private theorem blank_first (order : first < stop) (bound : stop ≤ bytes.length) :
    (blank bytes first stop)[first]? = some nul := by
  have front : (bytes.take first).length = first := by
    rw [List.length_take]
    omega
  rw [blank, List.append_assoc, List.getElem?_append_right (by omega), front, Nat.sub_self,
    List.getElem?_append_left (by rw [List.length_replicate]; omega)]
  simp [List.getElem?_replicate]
  omega

private theorem blank_nothing (bytes : Text) (first : Nat) : blank bytes first first = bytes := by
  simp [blank]

/-- Where a scan for spaces starts, there is one, or it does not move. -/
private theorem scan_space (room : bytes[s]? = some c) : scan (· == ' ') bytes s = s ↔ c ≠ ' ' := by
  obtain ⟨inside, here⟩ := List.getElem?_eq_some_iff.mp room
  rw [scan, List.drop_eq_getElem_cons inside, here]
  by_cases space : c = ' ' <;> simp [space]

private theorem getElem?_of_take (same : after.take stop = bytes.take stop) (below : i < stop) : after[i]? = bytes[i]? := by
  have both := congrArg (fun text : Text => text[i]?) same
  simpa [List.getElem?_take, below] using both

/-- Blanking a run of spaces. -/
private theorem blank_frame (ended : Ended bytes last) (bound : s ≤ last) :
    (blank bytes s (scan (· == ' ') bytes s)).take s = bytes.take s ∧
      (bytes[s]? = some ' ' ∨ bytes[s]? = some nul → (blank bytes s (scan (· == ' ') bytes s))[s]? = some nul) := by
  have startBound : scan (· == ' ') bytes s ≤ last := scan_le _ ended (by decide) bound
  have size := ended.lt_length
  refine ⟨take_blank (le_scan ..) (by omega), ?_⟩
  rintro (space | stop)
  · have moves : scan (· == ' ') bytes s ≠ s := fun stays => (scan_space space).mp stays rfl
    have start := le_scan (· == ' ') bytes s
    exact blank_first (by omega) (by omega)
  · rw [(scan_space stop).mpr (by decide), blank_nothing]
    exact stop

/-- The loop writes nothing in front of `s`, and a NUL over a space there. -/
theorem paramLoop_frame (room : Nat) (ended : Ended bytes last) (bound : s ≤ last) :
    (paramLoop room bytes s).2.2.take s = bytes.take s ∧
      (bytes[s]? = some ' ' ∨ bytes[s]? = some nul → (paramLoop room bytes s).2.2[s]? = some nul) := by
  induction room using Nat.strongRecOn generalizing bytes s with
  | _ room ih =>
    have startBound : scan (· == ' ') bytes s ≤ last := scan_le _ ended (by decide) bound
    have blanked := ended.blank (le_scan (· == ' ') bytes s) startBound
    have frame := blank_frame ended bound
    rw [paramLoop.eq_def]
    simp only
    split
    · exact frame
    · rename_i more
      split
      · exact frame
      · match room with
        | 0 => exact frame
        | 1 => exact frame
        | room + 2 =>
          have start := le_scan (· == ' ') bytes s
          have stop := le_scan (skipped ' ') (blank bytes s (scan (· == ' ') bytes s)) (scan (· == ' ') bytes s)
          have later := (ih (room + 1) (by omega) blanked (scan_le (skipped ' ') blanked (by simp [skipped]) startBound)).1
          simp only
          generalize scan (skipped ' ') (blank bytes s (scan (· == ' ') bytes s)) (scan (· == ' ') bytes s) = stop' at *
          constructor
          · have front := congrArg (List.take s) later
            rw [List.take_take, List.take_take, Nat.min_eq_left (Nat.le_trans start stop)] at front
            exact front.trans frame.1
          · intro opens
            have moves : s < scan (· == ' ') bytes s := by
              rcases opens with space | ends
              · exact Nat.lt_of_le_of_ne start fun stays => (scan_space space).mp stays.symm rfl
              · rw [(scan_space ends).mpr (by decide), blank_nothing] at more
                exact absurd ends more
            rw [getElem?_of_take later (by omega)]
            exact frame.2 opens

/-- What stands in front of a NUL that replaced the byte at `stop`. -/
private theorem textAt_of_take (same : after.take stop = bytes.take stop) (ended : after[stop]? = some nul)
    (order : start ≤ stop) (clean : nul ∉ (bytes.drop start).take (stop - start)) :
    textAt after start = (bytes.drop start).take (stop - start) := by
  obtain ⟨inside, here⟩ := List.getElem?_eq_some_iff.mp ended
  have front : (after.drop start).take (stop - start) = (bytes.drop start).take (stop - start) := by
    rw [List.take_drop, List.take_drop, Nat.add_sub_of_le order, same]
  have split : after.drop start = (bytes.drop start).take (stop - start) ++ nul :: after.drop (stop + 1) := by
    rw [← front]
    conv_lhs => rw [← List.take_append_drop (stop - start) (after.drop start)]
    rw [List.drop_drop, Nat.add_sub_of_le order, List.drop_eq_getElem_cons inside, here]
  rw [textAt, split]
  exact takeWhile_of_split clean _

private theorem scan_stop (ended : Ended bytes last) (bound : s ≤ last) :
    bytes[scan (skipped ' ') bytes s]? = some ' ' ∨ bytes[scan (skipped ' ') bytes s]? = some nul := by
  have stopBound := scan_le (skipped ' ') ended (by simp [skipped]) bound
  have inside := Nat.lt_of_le_of_lt stopBound ended.lt_length
  have stop := List.head?_dropWhile_not (skipped ' ') (bytes.drop s)
  rw [← drop_scan, List.drop_eq_getElem_cons inside] at stop
  rw [List.getElem?_eq_getElem inside]
  simp only [List.head?_cons, skipped, Bool.and_eq_false_iff, bne_eq_false_iff_eq] at stop
  exact stop.symm.imp (congrArg some) (congrArg some)

/-- The loop on the buffer stores pointers to the parameters of the text. -/
theorem paramLoop_params (room : Nat) (ended : Ended bytes last) (bound : s ≤ last) :
    (paramLoop room bytes s).2.1.map (textAt (paramLoop room bytes s).2.2) = params room (textAt bytes s) := by
  induction room using Nat.strongRecOn generalizing bytes s with
  | _ room ih =>
    have startBound : scan (· == ' ') bytes s ≤ last := scan_le _ ended (by decide) bound
    have blanked := ended.blank (le_scan (· == ' ') bytes s) startBound
    have size := ended.lt_length
    have start := le_scan (· == ' ') bytes s
    have text : textAt (blank bytes s (scan (· == ' ') bytes s)) (scan (· == ' ') bytes s) =
        (textAt bytes s).dropWhile (· == ' ') := by
      rw [textAt, drop_blank (by omega) start (Nat.le_refl _), ← textAt, textAt_scan (by decide)]
    rw [paramLoop.eq_def, params.eq_def]
    simp only
    rw [← text]
    generalize blank bytes s (scan (· == ' ') bytes s) = bytes' at *
    generalize scan (· == ' ') bytes s = start' at *
    obtain ⟨c, here⟩ : ∃ c, bytes'[start']? = some c :=
      ⟨_, List.getElem?_eq_getElem (Nat.lt_of_le_of_lt startBound blanked.lt_length)⟩
    by_cases ends : c = nul
    · have nothing : textAt bytes' start' = [] := by
        obtain ⟨inside, same⟩ := List.getElem?_eq_some_iff.mp here
        rw [textAt, List.drop_eq_getElem_cons inside, same, ends]
        rfl
      rw [if_pos (by rw [here, ends]), nothing]
      rfl
    · have cons := textAt_cons here ends
      have notEnd : bytes'[start']? ≠ some nul := by simpa [here] using ends
      rw [if_neg notEnd]
      by_cases colon : c = ':'
      · rw [if_pos (by rw [here, colon]), cons]
        simp [colon]
      · have notColon : bytes'[start']? ≠ some ':' := by simpa [here] using colon
        rw [if_neg notColon]
        match room with
        | 0 => simp [cons, colon]
        | 1 => simp [cons, colon]
        | room + 2 =>
          have order := le_scan (skipped ' ') bytes' start'
          have stopBound := scan_le (skipped ' ') blanked (by simp [skipped]) startBound
          have later := ih (room + 1) (by omega) blanked stopBound
          have rest : textAt bytes' (scan (skipped ' ') bytes' start') = (textAt bytes' start').dropWhile (· != ' ') := by
            rw [textAt_scan (by simp [skipped]), dropWhile_skipped (nul_not_mem_textAt _ _)]
          have word : (bytes'.drop start').take (scan (skipped ' ') bytes' start' - start') =
              (textAt bytes' start').takeWhile (· != ' ') := by
            rw [take_scan (by simp [skipped]), takeWhile_skipped (nul_not_mem_textAt _ _)]
          have frame := paramLoop_frame (room + 1) blanked stopBound
          have clean : nul ∉ (bytes'.drop start').take (scan (skipped ' ') bytes' start' - start') := by
            rw [word]
            exact fun member => nul_not_mem_textAt _ _ ((List.takeWhile_prefix _).subset member)
          have first := textAt_of_take frame.1 (frame.2 (scan_stop blanked startBound)) order clean
          rw [word] at first
          rw [rest] at later
          simp only [List.map_cons, first, later]
          simp [cons, colon]

end Loop

/-- The entry that decides how many parameters a command may have: none for a numeric. -/
def limit (mptr : Option Message) : Nat :=
  max 1 (min ((mptr.map Message.parameters).getD maxPara) maxPara - 1)

/-- The parameters of a run, as the handler sees them. -/
def Run.parameters (run : Run) : List Text := run.para.map (textAt run.bytes)

/-- What `parse` took a command word for. -/
inductive Entry (treeParse : Text → Option Message) (word : Text) : Option Message → Outcome → Prop where
  | numeric (digits : ∀ c ∈ word, isDigit c = true) (three : word.length = 3) (number : Nat) :
    Entry treeParse word none (.numeric number)
  | dispatch (known : treeParse word = some message) : Entry treeParse word (some message) (.dispatch message.cmd)
  | refused (known : treeParse word = some message) : Entry treeParse word (some message) .notRegistered

/-- A line that is the command text itself, or what a chain of `PRIVMSG raw` tunnels leads to. -/
inductive Reaches (treeParse : Text → Option Message) : Text → Text → Prop where
  | here : Reaches treeParse line line
  | raw (known : treeParse (line.takeWhile (· != ' ')) = some message) (private_ : message.func = .mPrivate)
      (tunnel : isRaw (afterFirst ' ' line) = true) (colon : ':' ∈ afterFirst ' ' line)
      (behind : Reaches treeParse (afterFirst ':' (afterFirst ' ' line)) target) : Reaches treeParse line target

/-- A run that has split a line into a command word and its parameters. -/
def Splits (treeParse : Text → Option Message) (text : Text) (run : Run) : Prop :=
  ∃ word behind mptr, Reaches treeParse text (word ++ behind) ∧ ' ' ∉ word ∧ (behind = [] ∨ behind.head? = some ' ') ∧
    Entry treeParse word mptr run.outcome ∧ Grammar (limit mptr) behind run.parameters

/-- The lines whose parameters were looked at. -/
def Outcome.isSplit : Outcome → Bool
  | .dispatch _ | .notRegistered | .numeric _ => true
  | _ => false

theorem finish_parameters (cptr : Client) (mptr : Option Message) (number : Nat) (ch : Ptr) {s : Option Nat}
    (ended : Ended bytes last) (bound : ∀ offset, s = some offset → offset ≤ last) :
    (finish cptr mptr number bytes ch s).parameters =
      params (min ((mptr.map Message.parameters).getD maxPara) maxPara - 1) ((s.map (textAt bytes)).getD []) := by
  have read (room : Nat) : (readParams room bytes s).2.1.map (textAt (readParams room bytes s).2.2) =
      params room ((s.map (textAt bytes)).getD []) := by
    cases s with
    | none => exact (params_nil room).symm
    | some offset => exact paramLoop_params room ended (bound offset rfl)
  unfold finish
  cases mptr with
  | none => exact read _
  | some message =>
    simp only
    split <;> exact read _

/-- Behind a command word that ends at `s`, or at the end of the line. -/
theorem finish_splits {treeParse : Text → Option Message} (cptr : Client) (mptr : Option Message)
    (number : Nat) (ch : Ptr) {s : Option Nat}
    {word behind : Text} (reaches : Reaches treeParse text (word ++ behind)) (solid : ' ' ∉ word)
    (ended : Ended bytes last) (bound : ∀ offset, s = some offset → offset ≤ last)
    (shape : s = none ∧ behind = [] ∨ ∃ offset, s = some offset ∧ behind = ' ' :: textAt bytes offset)
    (entry : Entry treeParse word mptr (finish cptr mptr number bytes ch s).outcome) :
    Splits treeParse text (finish cptr mptr number bytes ch s) := by
  refine ⟨word, behind, mptr, reaches, solid, ?_, entry, ?_⟩
  · rcases shape with ⟨-, rfl⟩ | ⟨offset, -, rfl⟩
    · exact .inl rfl
    · exact .inr rfl
  · rw [finish_parameters cptr mptr number ch ended bound]
    rcases shape with ⟨rfl, rfl⟩ | ⟨offset, rfl, rfl⟩
    · exact params_grammar _ [] (.inl rfl)
    · rw [Option.map_some, Option.getD_some, ← params_spaces]
      exact params_grammar _ _ (.inr rfl)

theorem finish_entry {treeParse : Text → Option Message} (known : treeParse word = some message) (cptr : Client)
    (number : Nat) (bytes : Text) (ch : Ptr) (s : Option Nat) :
    Entry treeParse word (some message) (finish cptr (some message) number bytes ch s).outcome := by
  unfold finish
  simp only
  split
  · exact .refused known
  · exact .dispatch known

private theorem textAt_drop (bytes : Text) (ch n : Nat) (inside : n ≤ (textAt bytes ch).length) :
    (textAt bytes ch).drop n = textAt bytes (ch + n) := by
  induction n generalizing ch with
  | zero => rfl
  | succ n ih =>
    cases text : textAt bytes ch with
    | nil => simp [text] at inside
    | cons c rest =>
      have nonNul : c ≠ nul := fun same => nul_not_mem_textAt bytes ch (by simp [text, same])
      have here : bytes[ch]? = some c := (head_textAt nonNul).mp (by simp [text])
      have next := textAt_cons here nonNul
      rw [text, List.cons.injEq] at next
      rw [text, List.length_cons, next.2] at inside
      rw [List.drop_succ_cons, next.2, ih (ch + 1) (Nat.le_of_succ_le_succ inside)]
      congr 1
      omega

private theorem digit_ne_space (digit : isDigit c = true) : c ≠ ' ' := by
  rintro rfl
  exact absurd digit (by decide)

/-- The command word of a numeric. -/
private theorem numeric_split (numeric : isNumeric text = true) :
    ∃ word rest, text = word ++ ' ' :: rest ∧ word.length = 3 ∧ ∀ c ∈ word, isDigit c = true := by
  match text with
  | [] | [_] | [_, _] | [_, _, _] => simp [isNumeric] at numeric
  | a :: b :: c :: d :: rest =>
    simp only [isNumeric, Bool.and_eq_true, beq_iff_eq] at numeric
    obtain ⟨⟨⟨rfl, first⟩, second⟩, third⟩ := numeric
    exact ⟨[a, b, c], rest, rfl, rfl, by simp [first, second, third]⟩

theorem reparse_splits (env : Env) (cptr : Client) (isPerson : Bool) {run : Run} (ended : Ended bytes last)
    (bound : ch ≤ last) (ran : reparse env cptr isPerson bytes ch = run) (split : run.outcome.isSplit = true) :
    Splits env.treeParse (textAt bytes ch) run := by
  generalize measured : bytes.length - ch = size
  induction size using Nat.strongRecOn generalizing bytes ch run with
  | _ size ih =>
    have same : isNumeric (textAt bytes ch) = isNumeric (bytes.drop ch) := isNumeric_takeWhile (bytes.drop ch)
    rw [reparse] at ran
    by_cases numeric : isNumeric (bytes.drop ch) = true
    · obtain ⟨word, rest, whole, three, digits⟩ := numeric_split (same.trans numeric)
      have four := textAt_drop bytes ch 4 (by simp only [whole, List.length_append, List.length_cons]; omega)
      rw [whole, List.drop_append, List.drop_of_length_le (by omega), three, List.nil_append, List.drop_succ_cons,
        List.drop_zero] at four
      have short := length_textAt_le ended bound
      simp only [whole, List.length_append, List.length_cons] at short
      have fourBound : ch + 4 ≤ last := by omega
      have behind : textAt (bytes.set (ch + 3) nul) (ch + 4) = rest := by
        rw [textAt_set_before nul (Nat.lt_succ_self _), four]
      rw [if_pos numeric] at ran
      subst ran
      rw [whole]
      exact finish_splits cptr none (numericOf (bytes.drop ch)) (.line ch) .here
        (fun member => digit_ne_space (digits _ member) rfl) (ended.set (ch + 3)) (by rintro _ ⟨⟩; exact fourBound)
        (.inr ⟨ch + 4, rfl, by rw [behind]⟩) (.numeric digits three _)
    · rw [if_neg numeric] at ran
      split at ran
      · rename_i missing
        have absent := (find_none_iff ended bound (by decide)).mp missing
        have whole : textAt bytes ch = textAt bytes ch ++ [] := (List.append_nil _).symm
        split at ran
        · subst ran
          cases split
        · rename_i message known
          subst ran
          rw [whole]
          exact finish_splits cptr (some message) 0 (.line ch) .here absent ended (by simp) (.inl ⟨rfl, rfl⟩)
            (finish_entry known ..)
      · rename_i space separated
        obtain ⟨front, parts, clean, position⟩ := textAt_of_find separated (by decide)
        have spaceBound := find_lt separated ended bound (by decide)
        have cutEnded := ended.set space
        have word : textAt (bytes.set space nul) ch = front := by
          rw [textAt_cut separated (by decide), parts, takeWhile_of_split clean]
        have behind : textAt (bytes.set space nul) (space + 1) = textAt bytes (space + 1) :=
          textAt_set_before nul (Nat.lt_succ_self space)
        have rest : afterFirst ' ' (textAt bytes ch) = textAt (bytes.set space nul) (space + 1) := by
          rw [parts, afterFirst_of_split clean, behind]
        have ending {message : Message} (known : env.treeParse front = some message) (pointer : Ptr) :
            Splits env.treeParse (textAt bytes ch)
              (finish cptr (some message) 0 (bytes.set space nul) pointer (some (space + 1))) := by
          rw [parts]
          exact finish_splits cptr (some message) 0 pointer .here clean cutEnded (by rintro _ ⟨⟩; exact spaceBound)
            (.inr ⟨space + 1, rfl, by rw [behind]⟩) (finish_entry known ..)
        simp only [word] at ran
        split at ran
        · subst ran
          cases split
        · rename_i message known
          split at ran
          · rename_i raw
            split at ran
            · rename_i colon tunnel
              obtain ⟨front', parts', clean', position'⟩ := textAt_of_find tunnel (by decide)
              have colonBound := find_lt tunnel cutEnded spaceBound (by decide)
              have inside := lt_length_of_find tunnel
              subst ran
              have deeper := ih (bytes.length - (colon + 1)) (by simp only [List.length_set] at inside; omega) cutEnded
                (Nat.succ_le_of_lt colonBound) rfl split (by simp)
              obtain ⟨word', behind', mptr, reaches, others⟩ := deeper
              refine ⟨word', behind', mptr, ?_, others⟩
              have chosen : ':' ∈ afterFirst ' ' (textAt bytes ch) := by
                rw [rest, parts']
                simp
              refine .raw (by rw [parts, takeWhile_of_split clean]; exact known) raw.1 (by rw [rest]; exact raw.2) chosen ?_
              rw [rest, parts', afterFirst_of_split clean']
              exact reaches
            · subst ran
              exact ending known _
          · subst ran
            exact ending known _

theorem command_splits (env : Env) (cptr : Client) (isPerson : Bool) (ended : Ended bytes last) (bound : ch ≤ last)
    (split : (command env cptr isPerson bytes ch).outcome.isSplit = true) :
    Splits env.treeParse (textAt bytes ch) (command env cptr isPerson bytes ch) := by
  unfold command at split ⊢
  split at split
  · cases split
  · rename_i more
    rw [if_neg more]
    have splits : Splits env.treeParse (textAt bytes ch) (reparse env cptr isPerson bytes ch) :=
      reparse_splits env cptr isPerson ended bound rfl split
    exact splits

theorem parse_splits (env : Env) (cptr : Client) (beyond : Text) {run : Run} (clean : nul ∉ text)
    (ran : parse env cptr (text ++ nul :: beyond) = run) (split : run.outcome.isSplit = true) :
    Splits env.treeParse (commandText env cptr text) run := by
  have ended := ended_terminated text beyond
  have whole := textAt_terminated clean beyond
  generalize text ++ nul :: beyond = bytes at ended whole ran
  have startBound : scan (· == ' ') bytes 0 ≤ text.length := scan_le _ ended (by decide) (Nat.zero_le _)
  have trimmed : textAt bytes (scan (· == ' ') bytes 0) = text.dropWhile (· == ' ') := by
    rw [textAt_scan (by decide), whole]
  unfold parse at ran
  unfold commandText
  by_cases dead : cptr.isDead = true
  · rw [if_pos dead] at ran
    subst ran
    cases split
  simp only [dead, Bool.false_eq_true, ↓reduceIte, ← trimmed, head_textAt (by decide : ':' ≠ nul)] at ran ⊢
  generalize scan (· == ' ') bytes 0 = ch at *
  by_cases colon : bytes[ch]? = some ':'
  · obtain ⟨rest, sender, afterPrefix, stopBound⟩ := sender_stands ended startBound colon
    have spaceBound := scan_le (· == ' ') ended (by decide) stopBound
    simp only [colon, ↓reduceIte, rest, sender] at ran ⊢
    rw [← afterPrefix]
    generalize ((textAt bytes (ch + 1)).takeWhile (· != ' ')).take hostLen = name at *
    by_cases served : name ≠ [] ∧ cptr.status = .server
    · rw [if_pos served] at ran
      cases looked : env.findClient name with
      | none =>
        rw [looked] at ran
        subst ran
        cases split
      | some origin =>
        rw [looked] at ran
        by_cases behind : origin.behindLink = true
        · simp only [behind, ↓reduceIte] at ran
          subst ran
          simp only [Option.map_some, Option.getD_some, behind, Bool.true_eq_false, and_false, if_false]
          exact command_splits env cptr origin.isPerson ended spaceBound split
        · simp only [behind, Bool.false_eq_true, ↓reduceIte] at ran
          subst ran
          cases split
    · rw [if_neg served] at ran
      have kept : ¬ (name ≠ [] ∧ cptr.status = .server ∧
          ((env.findClient name).map Origin.behindLink).getD false = false) :=
        fun dropped => served ⟨dropped.1, dropped.2.1⟩
      subst ran
      rw [if_neg kept]
      exact command_splits env cptr cptr.isPerson ended spaceBound split
  · simp only [colon, ↓reduceIte] at ran ⊢
    subst ran
    exact command_splits env cptr cptr.isPerson ended startBound split

/-- `parc`; `para` has room for `MAXPARA + 1` pointers, of which this one is set to NULL. -/
def Run.parc (run : Run) : Nat := run.para.length + 1

theorem limit_lt (mptr : Option Message) : limit mptr < maxPara := by
  have bound : min ((mptr.map Message.parameters).getD maxPara) maxPara ≤ maxPara := Nat.min_le_right ..
  have positive : 1 < maxPara := by decide
  simp only [limit]
  omega

/-- Whatever line `parse` splits, it splits by the grammar and stays within `para`. -/
theorem parse_grammar (env : Env) (cptr : Client) (beyond : Text) {run : Run} (clean : nul ∉ text)
    (ran : parse env cptr (text ++ nul :: beyond) = run) (split : run.outcome.isSplit = true) :
    Splits env.treeParse (commandText env cptr text) run ∧ 1 ≤ run.parc ∧ run.parc ≤ maxPara ∧
      run.parc < maxPara + 1 ∧ ∀ parameter ∈ run.parameters.dropLast, ' ' ∉ parameter := by
  have splits := parse_splits env cptr beyond clean ran split
  have read := splits
  obtain ⟨word, behind, mptr, -, -, -, -, grammar⟩ := read
  have few := grammar.length_le
  have bound := limit_lt mptr
  rw [Run.parameters, List.length_map] at few
  refine ⟨splits, Nat.succ_pos _, ?_, ?_, grammar.solid⟩
  · exact Nat.lt_of_le_of_lt few bound
  · exact Nat.succ_lt_succ (Nat.lt_of_le_of_lt few bound)

theorem parse_grammar_nick :
    let run := parse alone unregistered ("NICK  a b :c d".toList ++ [nul])
    Splits alone.treeParse (commandText alone unregistered "NICK  a b :c d".toList) run ∧ 1 ≤ run.parc ∧
      run.parc ≤ maxPara ∧ run.parc < maxPara + 1 ∧ ∀ parameter ∈ run.parameters.dropLast, ' ' ∉ parameter := by
  intro run
  exact parse_grammar alone unregistered [] (by decide) rfl (by decide +kernel)

end SolidIrcd.Parse
