import Mathlib.Logic.Function.Iterate
import SolidIrcd.Conf.Fences

/-! What a reader sees in a configuration file, and that the parser does not see the same in every layout of it. -/

namespace SolidIrcd.Conf

open Scan (Text)

inductive Token where
  | opening | closing | semicolon
  | quoted (text : Text)
  | word (text : Text)
  deriving DecidableEq, Repr

/-- The text behind a comment of any number of lines. -/
def skipComment : Text → Text
  | [] => []
  | '*' :: '/' :: rest => rest
  | _ :: rest => skipComment rest

/-- The text from the end of the line on. -/
def skipLine (text : Text) : Text := text.dropWhile (· ≠ '\n')

def wordEnd (c : Char) : Bool := c == ' ' || c == '\t' || c == '\n' || c == '{' || c == '}' || c == ';' || c == '"'

theorem length_skipComment_le (text : Text) : (skipComment text).length ≤ text.length := by
  induction text using skipComment.induct with
  | case1 => exact Nat.le_refl _
  | case2 rest => exact Nat.le_add_right rest.length 2
  | case3 c rest open' ih =>
    rw [skipComment.eq_3 _ _ open']
    exact Nat.le_succ_of_le ih

theorem length_dropWhile_le (keep : Char → Bool) (text : Text) : (text.dropWhile keep).length ≤ text.length :=
  (List.dropWhile_suffix keep).length_le

/-- The file without its layout: blanks, tabs, line breaks and comments between the tokens. -/
def tokens : Text → List Token
  | [] => []
  | ' ' :: rest => tokens rest
  | '\t' :: rest => tokens rest
  | '\n' :: rest => tokens rest
  | '#' :: rest => tokens (skipLine rest)
  | '/' :: '/' :: rest => tokens (skipLine rest)
  | '/' :: '*' :: rest => tokens (skipComment rest)
  | '{' :: rest => .opening :: tokens rest
  | '}' :: rest => .closing :: tokens rest
  | ';' :: rest => .semicolon :: tokens rest
  | '"' :: rest => .quoted (rest.takeWhile (· ≠ '"')) :: tokens (rest.dropWhile (· ≠ '"')).tail
  | c :: rest => .word (c :: rest.takeWhile (!wordEnd ·)) :: tokens (rest.dropWhile (!wordEnd ·))
termination_by text => text.length
decreasing_by
  all_goals simp only [List.length_cons, List.length_tail, skipLine]
  all_goals first
    | omega
    | exact Nat.lt_succ_of_le (length_dropWhile_le _ _)
    | exact Nat.lt_succ_of_le (Nat.le_succ_of_le (length_dropWhile_le _ _))
    | exact Nat.lt_succ_of_le (Nat.le_succ_of_le (length_skipComment_le _))
    | exact Nat.lt_succ_of_le ((Nat.sub_le _ _).trans (length_dropWhile_le _ _))

/-- Another layout of the same tokens. -/
def Relayout (file other : Text) : Prop := tokens other = tokens file

section

variable (env : Env) (lineMax : Nat)

/-- The file is accepted, and these are its blocks and files. -/
def Accepts (file : Text) (made : List Item) : Prop :=
  ∃ state, (parser env lineMax).Run Machine.Any (.start false file) state ∧ state.outcome = .accepted ∧ state.made = made

/-- Every layout of the file is accepted, with the same blocks and files. -/
def LayoutFree (file : Text) (made : List Item) : Prop := ∀ other, Relayout file other → Accepts env lineMax other made

/-- One step, unless the parser has stopped. -/
def State.turn (state : State) : State := if state.outcome = .running then state.step env lineMax else state

/-- The parser stops and does not accept the file. -/
def Refuses (file : Text) : Prop :=
  ∃ turns state, (State.turn env lineMax)^[turns] (.start false file) = state ∧
    (state.outcome = .rejected ∨ state.outcome = .lost)

end

section

variable {env : Env} {lineMax : Nat} {start state final : State} {file rest text : Text} {made : List Item} {c : Char}

/-! The parser comes to one end -/

theorem turn_stopped (stopped : state.outcome ≠ .running) (turns : Nat) : (State.turn env lineMax)^[turns] state = state :=
  Function.iterate_fixed (show state.turn env lineMax = state from if_neg stopped) turns

theorem run_turns (run : (parser env lineMax).Run Machine.Any start state) :
    ∃ turns, (State.turn env lineMax)^[turns] start = state := by
  induction run with
  | refl => exact ⟨0, rfl⟩
  | tail _ running _ ih =>
    obtain ⟨turns, same⟩ := ih
    refine ⟨turns + 1, ?_⟩
    rw [Function.iterate_succ_apply', same]
    exact if_pos running

theorem stopped_unique {first second : Nat} (one : (State.turn env lineMax)^[first] start = state)
    (stopped : state.outcome ≠ .running)
    (other : (State.turn env lineMax)^[second] start = final) (stopped' : final.outcome ≠ .running) : state = final := by
  rcases Nat.le_total first second with before | before
  · rw [← Nat.sub_add_cancel before, Function.iterate_add_apply, one, turn_stopped stopped] at other
    exact other
  · rw [← Nat.sub_add_cancel before, Function.iterate_add_apply, other, turn_stopped stopped'] at one
    exact one.symm

theorem Refuses.not_accepts (refuses : Refuses env lineMax file) : ¬ Accepts env lineMax file made := by
  rintro ⟨final, run, accepted, -⟩
  obtain ⟨turns, state, stops, refused⟩ := refuses
  obtain ⟨count, same⟩ := run_turns run
  have one := stopped_unique stops (by rcases refused with refused | refused <;> simp [refused]) same (by simp [accepted])
  rw [one, accepted] at refused
  exact refused.elim nofun nofun

/-! A file whose first word is no block's -/

/-- No block has this name, and it is not that of an include. -/
def Unknown (tok : Text) : Prop :=
    mycmp "INCLUDE".toList tok = false ∧ tconftab.find? (fun block => mycmp block.tok tok) = none

/-- Names of blocks have none but a few letters. -/
theorem unknown_of_mem {tok : Text} (member : c ∈ tok)
    (strange : ∀ name ∈ "INCLUDE".toList :: tconftab.map (·.tok), toUpper c ∉ name.map toUpper) : Unknown tok := by
  have different : ∀ name ∈ "INCLUDE".toList :: tconftab.map (·.tok), mycmp name tok = false := by
    intro name known
    rw [← Bool.not_eq_true, mycmp_iff]
    intro same
    exact strange name known (same ▸ List.mem_map_of_mem member)
  refine ⟨different _ List.mem_cons_self, List.find?_eq_none.mpr fun block known => ?_⟩
  rw [different _ (List.mem_cons_of_mem _ (List.mem_map_of_mem known))]
  exact Bool.false_ne_true

theorem named_unknown (unknown : text.dropWhile (!nameEnd ·) ≠ [] → Unknown (text.takeWhile (!nameEnd ·))) :
    (state.named text).outcome = .rejected ∨ (state.named text).outcome = .lost := by
  unfold State.named
  dsimp only
  split
  · exact .inr rfl
  next stops =>
    obtain ⟨included, found⟩ := unknown (by rw [stops]; exact List.cons_ne_nil _ _)
    rw [included, if_neg Bool.false_ne_true, found]
    exact .inl rfl

/-- A line of nothing but layout. -/
theorem turn_layout (line : fgets lineMax file = some (text, rest)) (layout : checkQuote false text = (false, none)) :
    State.turn env lineMax (.start false file) = .start false rest := by
  simp [State.turn, State.start, State.step, State.initconf, State.line, State.goTo, line, layout]

theorem turn_word (line : fgets lineMax file = some (text, rest)) (word : checkQuote false text = (false, some text)) :
    State.turn env lineMax (.start false file) = { State.start false rest with phase := .name text } := by
  simp [State.turn, State.start, State.step, State.initconf, State.line, State.goTo, line, word]

theorem turn_name : State.turn env lineMax { State.start false rest with phase := .name text } =
    { State.start false rest with phase := .name text }.named text := by
  simp [State.turn, State.start, State.step, State.initconf]

theorem refuses_of_word (line : fgets lineMax file = some (text, rest)) (word : checkQuote false text = (false, some text))
    (unknown : text.dropWhile (!nameEnd ·) ≠ [] → Unknown (text.takeWhile (!nameEnd ·))) : Refuses env lineMax file := by
  refine ⟨2, { State.start false rest with phase := .name text }.named text, ?_, named_unknown unknown⟩
  rw [Function.iterate_succ_apply, Function.iterate_one, turn_word line word, turn_name]

theorem Refuses.behind_layout (line : fgets lineMax file = some (text, rest)) (layout : checkQuote false text = (false, none))
    (refuses : Refuses env lineMax rest) : Refuses env lineMax file := by
  obtain ⟨turns, state, stops, refused⟩ := refuses
  refine ⟨turns + 1, state, ?_, refused⟩
  rw [Function.iterate_succ_apply, turn_layout line layout, stops]

/-! Lines -/

theorem cut_append {front : Text} (inside : ∀ c ∈ front, c ≠ '\n') : cut front.length (front ++ rest) = (front, rest) := by
  induction front with
  | nil => rw [List.length_nil, cut.eq_1, List.nil_append]
  | cons c front ih =>
    obtain ⟨other, inside⟩ := List.forall_mem_cons.mp inside
    rw [List.length_cons, List.cons_append, cut, if_neg other, ih inside]

theorem cut_leads (room : Nat) (file : Text) : (cut room file).1 <+: file := by
  induction room generalizing file with
  | zero => exact List.nil_prefix
  | succ room ih =>
    cases file with
    | nil => exact List.nil_prefix
    | cons c rest =>
      rw [cut]
      split
      · exact List.prefix_append [c] rest
      · exact List.prefix_cons_inj c |>.mpr (ih rest)

/-- The line of a file that begins with a character begins with it too. -/
theorem fgets_cons (room : 1 < lineMax) (text : c ≠ '\x00') (file : Text) :
    ∃ line rest, fgets lineMax (c :: file) = some (c :: line, rest) ∧ line <+: file := by
  obtain ⟨more, rfl⟩ : ∃ more, lineMax = more + 2 := ⟨lineMax - 2, (Nat.sub_add_cancel room).symm⟩
  rw [fgets, if_neg (List.cons_ne_nil c file), Nat.add_sub_cancel (more + 1) 1, cut]
  split
  · exact ⟨[], file, by simp [text], List.nil_prefix⟩
  · exact ⟨(cut more file).1.takeWhile (· ≠ '\x00'), (cut more file).2, by simp [text],
      (List.takeWhile_prefix _).trans (cut_leads more file)⟩

/-! A comment longer than a line -/

/-- A comment in front of the file that does not fit into a line: its last letter is on the next one. -/
def longComment (lineMax : Nat) (file : Text) : Text := '#' :: (List.replicate (lineMax - 2) 'x' ++ 'x' :: '\n' :: file)

theorem relayout_longComment (lineMax : Nat) (file : Text) : Relayout file (longComment lineMax file) := by
  have skipped : skipLine (List.replicate (lineMax - 2) 'x' ++ 'x' :: '\n' :: file) = '\n' :: file := by
    simp [skipLine]
  rw [Relayout, longComment, tokens, skipped, tokens]

theorem fgets_longComment (room : 1 < lineMax) (file : Text) :
    fgets lineMax (longComment lineMax file) = some ('#' :: List.replicate (lineMax - 2) 'x', 'x' :: '\n' :: file) := by
  have length : lineMax - 1 = ('#' :: List.replicate (lineMax - 2) 'x').length := by
    rw [List.length_cons, List.length_replicate]
    omega
  have first : cut (lineMax - 1) (longComment lineMax file) = ('#' :: List.replicate
    (lineMax - 2) 'x', 'x' :: '\n' :: file) := by
    rw [length, longComment, ← List.cons_append]
    exact cut_append (by simp)
  have whole : ('#' :: List.replicate (lineMax - 2) 'x').takeWhile (· ≠ '\x00') = '#' :: List.replicate (lineMax - 2) 'x' :=
    List.takeWhile_eq_self_iff.mpr (by simp)
  rw [fgets, first, whole]
  exact if_neg (List.cons_ne_nil _ _)

theorem refuses_longComment (room : 1 < lineMax) (file : Text) : Refuses env lineMax (longComment lineMax file) := by
  obtain ⟨line, rest, read, -⟩ := fgets_cons room (by decide : 'x' ≠ '\x00') ('\n' :: file)
  refine .behind_layout (fgets_longComment room file) rfl (refuses_of_word read (by simp [checkQuote]) fun _ => ?_)
  exact unknown_of_mem (by simp [nameEnd] : 'x' ∈ _) (by decide)

/-! A tab behind the name of a block -/

/-- Names of blocks and includes have letters only. -/
def Named (name : Text) : Prop := name ≠ [] ∧ ∀ c ∈ name, c.isAlpha = true

theorem letter_ne {other : Char} (letter : c.isAlpha = true) (strange : other.isAlpha = false) : c ≠ other :=
  fun same => Bool.false_ne_true (strange ▸ same ▸ letter)

theorem nameEnd_letter (letter : c.isAlpha = true) : nameEnd c = false := by
  simp [nameEnd, letter_ne letter]

theorem wordEnd_letter (letter : c.isAlpha = true) : wordEnd c = false := by
  simp [wordEnd, letter_ne letter]

theorem checkQuote_letter (letter : c.isAlpha = true) (text : Text) :
    checkQuote false (c :: text) = (false, some (c :: text)) := by
  have other : ∀ d : Char, d.isAlpha = false → c ≠ d := fun d => letter_ne letter
  rw [checkQuote.eq_def]
  split <;> simp_all

theorem takeWhile_letters {name : Text} (letters : ∀ c ∈ name, c.isAlpha = true) {stop : Char} (stops : wordEnd stop = true) :
    (name ++ stop :: rest).takeWhile (!wordEnd ·) = name ∧ (name ++ stop :: rest).dropWhile (!wordEnd ·) = stop :: rest := by
  have kept : ∀ c ∈ name, (!wordEnd c) = true := fun c member => by rw [wordEnd_letter (letters c member)]; rfl
  rw [List.takeWhile_append_of_pos kept, List.dropWhile_append_of_pos kept]
  simp [stops]

theorem tokens_letter (letter : c.isAlpha = true) (text : Text) :
    tokens (c :: text) = .word (c :: text.takeWhile (!wordEnd ·)) :: tokens (text.dropWhile (!wordEnd ·)) := by
  have other : ∀ d : Char, d.isAlpha = false → c ≠ d := fun d => letter_ne letter
  rw [tokens.eq_def]
  split <;> simp_all

theorem tokens_named {name : Text} (named : Named name) {stop : Char} (stops : wordEnd stop = true) :
    tokens (name ++ stop :: rest) = .word name :: tokens (stop :: rest) := by
  obtain ⟨c, name, rfl⟩ := List.exists_cons_of_ne_nil named.1
  obtain ⟨letter, letters⟩ := List.forall_mem_cons.mp named.2
  rw [List.cons_append, tokens_letter letter, (takeWhile_letters letters stops).1, (takeWhile_letters letters stops).2]

/-- The name of a block runs on over a tab. -/
theorem tab_mem_name {name : Text} (letters : ∀ c ∈ name, c.isAlpha = true) (line : text <+: name ++ '\t' :: rest)
    (stops : text.dropWhile (!nameEnd ·) ≠ []) : '\t' ∈ text.takeWhile (!nameEnd ·) := by
  induction name generalizing text with
  | nil =>
    cases text with
    | nil => exact absurd rfl stops
    | cons d text =>
      obtain ⟨rfl, -⟩ := List.cons_prefix_cons.mp line
      exact List.mem_cons_self
  | cons c name ih =>
    obtain ⟨letter, others⟩ := List.forall_mem_cons.mp letters
    have kept : (fun d => !nameEnd d) c = true := by simp [nameEnd_letter letter]
    cases text with
    | nil => exact absurd rfl stops
    | cons d text =>
      obtain ⟨same, tail⟩ := List.cons_prefix_cons.mp line
      have dropped : (c :: text).dropWhile (!nameEnd ·) = text.dropWhile (!nameEnd ·) := List.dropWhile_cons_of_pos kept
      have taken : (c :: text).takeWhile (!nameEnd ·) = c :: text.takeWhile (!nameEnd ·) := List.takeWhile_cons_of_pos kept
      rw [same, dropped] at stops
      rw [same, taken]
      exact List.mem_cons_of_mem _ (ih others tail stops)

theorem refuses_tab (room : 1 < lineMax) {name : Text} (named : Named name) (rest : Text) :
    Refuses env lineMax (name ++ '\t' :: rest) := by
  obtain ⟨c, name, rfl⟩ := List.exists_cons_of_ne_nil named.1
  have letter : c.isAlpha = true := named.2 c List.mem_cons_self
  obtain ⟨line, behind, read, front⟩ :=
    fgets_cons room (letter_ne letter (by decide : '\x00'.isAlpha = false)) (name ++ '\t' :: rest)
  refine refuses_of_word read (checkQuote_letter letter line) fun stops => ?_
  exact unknown_of_mem (tab_mem_name named.2 (List.cons_prefix_cons.mpr ⟨rfl, front⟩) stops) (by decide)

theorem tokens_rest {token : Token} {others : List Token} (first : tokens file = token :: others) :
    ∃ rest, tokens rest = others := by
  fun_induction tokens file with
  | case1 => cases first
  | case2 rest ih => exact ih first
  | case3 rest ih => exact ih first
  | case4 rest ih => exact ih first
  | case5 rest ih => exact ih first
  | case6 rest ih => exact ih first
  | case7 rest ih => exact ih first
  | _ => exact ⟨_, (List.cons.inj first).2⟩

/-- Whatever comes first in a file, with a tab behind the name of its first block it is refused. -/
theorem relayout_refused (room : 1 < lineMax) {name : Text} (named : Named name)
    (first : tokens file = .word name :: others) :
    ∃ rest, Relayout file (name ++ '\t' :: rest) ∧ Refuses env lineMax (name ++ '\t' :: rest) := by
  obtain ⟨rest, same⟩ := tokens_rest first
  refine ⟨rest, ?_, refuses_tab room named rest⟩
  rw [Relayout, tokens_named named rfl, first, tokens, same]

/-- No file may be laid out freely; and where the first word of one is a name, a tab behind it is enough. -/
theorem layout_matters (room : 1 < lineMax) (file : Text) (made : List Item) :
    ¬ LayoutFree env lineMax file made ∧ ∀ name others, Named name → tokens file = .word name :: others →
      ∃ rest, Relayout file (name ++ '\t' :: rest) ∧ Refuses env lineMax (name ++ '\t' :: rest) :=
  ⟨fun free => (refuses_longComment room file).not_accepts (free _ (relayout_longComment lineMax file)),
    fun _ _ named first => relayout_refused room named first⟩

/-- What `portLine` makes. -/
def portMade : List Item := [.block (tconftab.get ⟨10, by decide⟩) [⟨some ⟨"PORT".toList, .int⟩, some ['7'], 3⟩]]

theorem portLine_accepted : Accepts .taking 2048 portLine portMade :=
  ⟨_, Machine.Run.of_list (List.replicate 12 ()) (.refl _)
    ⟨rfl, trivial, rfl, trivial, rfl, trivial, rfl, trivial, rfl, trivial, rfl, trivial, rfl,
      trivial, rfl, trivial, rfl, trivial,
      rfl, trivial, rfl, trivial, rfl, trivial, trivial⟩, rfl, rfl⟩

theorem layout_matters_portLine : Accepts .taking 2048 portLine portMade ∧ ¬ LayoutFree .taking 2048 portLine portMade :=
  ⟨portLine_accepted, (layout_matters (by decide) portLine portMade).1⟩

/-- The blank behind the name of the block becomes a tab. -/
theorem port_tab_refused : ¬ ∀ (env : Env) (lineMax : Nat) (file : Text) (made : List Item), 1 < lineMax →
    Accepts env lineMax file made → LayoutFree env lineMax file made := by
  intro always
  have named : Named "PORT".toList := ⟨by decide, List.all_eq_true.mp rfl⟩
  have same : Relayout portLine ("PORT".toList ++ '\t' :: "{ PORT 7; };".toList) := by
    have blank : portLine = "PORT".toList ++ ' ' :: "{ PORT 7; };".toList := rfl
    rw [Relayout, blank, tokens_named named rfl, tokens_named named rfl, tokens.eq_2, tokens.eq_3]
  exact (refuses_tab (by decide) named _).not_accepts (always .taking 2048 portLine _ (by decide) portLine_accepted _ same)

end

end SolidIrcd.Conf
