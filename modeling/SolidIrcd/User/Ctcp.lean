import SolidIrcd.Channel.Mask
import SolidIrcd.Common

/-! CTCP in a text: the sections between its delimiters, and `check_for_ctcp` of `s_user.c`,
which looks at the first one that is no ACTION. -/

namespace SolidIrcd.Ctcp

open Scan (Text)
open Mask (splitFirst)

/-- What stands around a section. -/
def delimiter : Char := '\x01'

/-- `myncmp(text, literal, strlen(literal)) == 0`. -/
def starts (literal text : Text) : Bool := mycmp literal (text.take literal.length)

/-- `CTCP_NONE` and the like, with what `dccptr` is set to. -/
inductive Found where
  | none
  | yes
  | dcc (dccptr : Text)
  | dccsend (dccptr : Text)
  deriving DecidableEq, Repr

theorem length_splitFirst {wanted : Char} {text before after : Text} (found : splitFirst wanted text = some (before, after)) :
    after.length < text.length := by
  rw [← Mask.splitFirst_text found, List.length_append, List.length_cons]
  omega

/-- `check_for_ctcp`. -/
def checkForCtcp (str : Text) : Found :=
  match _opens : splitFirst delimiter str with
  | none => .none
  | some (_, p) =>
    if starts "DCC".toList p then
      if starts " SEND".toList (p.drop 3) then .dccsend p else .dcc p
    else if !starts "ACTION".toList p then .yes
    else
      match _closes : splitFirst delimiter p with
      | none => .none
      | some (_, p) => if p = [] then .none else checkForCtcp p
termination_by str.length
decreasing_by exact (length_splitFirst _closes).trans (length_splitFirst _opens)

/-- A section, and the text from there on. -/
structure Section where
  content : Text
  onward : Text
  deriving DecidableEq

/-- The sections of a text. The last one may lack its second delimiter. -/
def sections (text : Text) : List Section :=
  match _opens : splitFirst delimiter text with
  | none => []
  | some (_, onward) =>
    match _closes : splitFirst delimiter onward with
    | none => [⟨onward, onward⟩]
    | some (content, after) => ⟨content, onward⟩ :: sections after
termination_by text.length
decreasing_by exact (length_splitFirst _closes).trans (length_splitFirst _opens)

def Section.isAction (section' : Section) : Bool := starts "ACTION".toList section'.content

/-- The first section that is no ACTION. -/
def leading (text : Text) : Option Section := (sections text).find? (!·.isAction)

/-- What the first section makes of the text. -/
def classify : Option Section → Found
  | none => .none
  | some lead =>
    if starts "DCC".toList lead.content then
      if starts " SEND".toList (lead.content.drop 3) then .dccsend lead.onward else .dcc lead.onward
    else .yes

theorem eq_delimiter (c : Char) (same : toUpper c = delimiter) : c = delimiter := by
  have code := toNat_toUpper c
  rw [same] at code
  have one : delimiter.toNat = 1 := rfl
  split at code
  next => omega
  next => exact Char.toNat_inj.mp (by omega)

/-- A literal without the delimiter does not reach over the end of a section. -/
theorem starts_append {literal content rest : Text} (clean : delimiter ∉ literal) :
    starts literal (content ++ delimiter :: rest) = starts literal content := by
  unfold starts
  by_cases short : literal.length ≤ content.length
  · rw [List.take_append_of_le_length short]
  · have past : mycmp literal ((content ++ delimiter :: rest).take literal.length) = false := by
      rw [← Bool.not_eq_true, mycmp_iff]
      intro same
      have member : toUpper delimiter ∈ literal.map toUpper := by
        rw [same]
        refine List.mem_map_of_mem ?_
        obtain ⟨more, length⟩ := Nat.exists_eq_add_of_lt (Nat.lt_of_not_le short)
        rw [length, Nat.add_assoc, List.take_length_add_append, List.take_succ_cons]
        exact List.mem_append_right _ (List.mem_cons_self ..)
      obtain ⟨c, here, upper⟩ := List.mem_map.mp member
      exact clean (eq_delimiter c (upper.trans (by decide)) ▸ here)
    have under : mycmp literal (content.take literal.length) = false := by
      rw [← Bool.not_eq_true, mycmp_iff]
      intro same
      have lengths := congrArg List.length same
      simp only [List.length_map, List.length_take] at lengths
      omega
    rw [past, under]

theorem length_of_starts {literal text : Text} (begins : starts literal text = true) : literal.length ≤ text.length := by
  have lengths := congrArg List.length (mycmp_iff.mp begins)
  simp only [List.length_map, List.length_take] at lengths
  omega

/-- What begins with DCC is no ACTION. -/
theorem not_action {text : Text} (dcc : starts "DCC".toList text = true) : starts "ACTION".toList text = false := by
  rw [← Bool.not_eq_true]
  intro action
  have first := congrArg List.head? (mycmp_iff.mp dcc)
  have second := congrArg List.head? (mycmp_iff.mp action)
  cases text with
  | nil => cases first
  | cons c rest => exact absurd (first.trans second.symm) (by decide)

theorem leading_nil : leading [] = none := by
  rw [leading, sections]
  rfl

theorem sections_none {text : Text} (opens : splitFirst delimiter text = none) : sections text = [] := by
  rw [sections]
  split
  next => rfl
  next found =>
    rw [opens] at found
    cases found

/-- A section goes up to its second delimiter, or to the end of the text. -/
def Section.Cut (lead : Section) : Prop :=
    lead.onward = lead.content ∨ ∃ after, lead.onward = lead.content ++ delimiter :: after

theorem Section.Cut.starts {lead : Section} (cut : lead.Cut) {literal : Text} (clean : delimiter ∉ literal) :
    starts literal lead.onward = starts literal lead.content := by
  obtain whole | ⟨after, joined⟩ := cut
  · rw [whole]
  · rw [joined, starts_append clean]

theorem Section.Cut.drop_starts {lead : Section} (cut : lead.Cut) {literal : Text} (clean : delimiter ∉ literal) {count : Nat}
    (long : count ≤ lead.content.length) :
    Ctcp.starts literal (lead.onward.drop count) = Ctcp.starts literal (lead.content.drop count) := by
  obtain whole | ⟨after, joined⟩ := cut
  · rw [whole]
  · rw [joined, List.drop_append_of_le_length long, starts_append clean]

/-- The first section, and those behind it. -/
theorem sections_some {text before onward : Text} (opens : splitFirst delimiter text = some (before, onward)) :
    ∃ content, Section.Cut ⟨content, onward⟩ ∧
      sections text = ⟨content, onward⟩ :: (splitFirst delimiter onward).elim [] fun (_, after) => sections after := by
  rw [sections]
  split
  next missing =>
    rw [opens] at missing
    cases missing
  next found =>
    obtain ⟨-, rfl⟩ := Prod.mk.inj (Option.some.inj (opens.symm.trans found))
    split
    next closes =>
      rw [closes]
      exact ⟨onward, .inl rfl, rfl⟩
    next content after closes =>
      rw [closes]
      exact ⟨content, .inr ⟨after, (Mask.splitFirst_text closes).symm⟩, rfl⟩

/-- A section between its delimiters. -/
theorem sections_join {before content : Text} (after : Text) (opens : delimiter ∉ before) (closes : delimiter ∉ content) :
    sections (before ++ delimiter :: content ++ delimiter :: after) =
      ⟨content, content ++ delimiter :: after⟩ :: sections after := by
  have first : splitFirst delimiter (before ++ delimiter :: content ++ delimiter :: after) =
      some (before, content ++ delimiter :: after) := by
    rw [List.append_assoc, List.cons_append, Mask.splitFirst_join opens]
  have second := (Mask.splitFirst_join closes : splitFirst delimiter (content ++ delimiter :: after) = _)
  rw [sections]
  split
  next missing =>
    rw [first] at missing
    cases missing
  next found =>
    obtain ⟨-, rfl⟩ := Prod.mk.inj (Option.some.inj (first.symm.trans found))
    split
    next missing =>
      rw [second] at missing
      cases missing
    next found' =>
      obtain ⟨rfl, rfl⟩ := Prod.mk.inj (Option.some.inj (second.symm.trans found'))
      rfl

theorem cut_of_mem {text : Text} {lead : Section} (member : lead ∈ sections text) : lead.Cut := by
  obtain ⟨length, bound⟩ : ∃ length, text.length ≤ length := ⟨_, le_rfl⟩
  induction length generalizing text with
  | zero =>
    obtain rfl := List.length_eq_zero_iff.mp (Nat.le_zero.mp bound)
    rw [sections_none rfl] at member
    cases member
  | succ length ih =>
    cases opens : splitFirst delimiter text with
    | none =>
      rw [sections_none opens] at member
      cases member
    | some split' =>
      obtain ⟨before, onward⟩ := split'
      obtain ⟨content, cut, first⟩ := sections_some opens
      rw [first] at member
      obtain rfl | later := List.mem_cons.mp member
      · exact cut
      · cases closes : splitFirst delimiter onward with
        | none =>
          rw [closes] at later
          cases later
        | some split' =>
          rw [closes] at later
          have shorter := length_splitFirst opens
          have shorter' := length_splitFirst closes
          exact ih later (by omega)

/-- `check_for_ctcp` goes by the first section that is no ACTION. -/
theorem checkForCtcp_eq (text : Text) : checkForCtcp text = classify (leading text) := by
  obtain ⟨length, bound⟩ : ∃ length, text.length ≤ length := ⟨_, le_rfl⟩
  induction length generalizing text with
  | zero =>
    obtain rfl := List.length_eq_zero_iff.mp (Nat.le_zero.mp bound)
    rw [leading_nil, checkForCtcp]
    rfl
  | succ length ih =>
    rw [checkForCtcp]
    split
    next missing => rw [leading, sections_none missing]; rfl
    next before p opens =>
      obtain ⟨content, cut, first⟩ := sections_some opens
      rw [leading, first, List.find?_cons, Section.isAction, cut.starts (show delimiter ∉ "DCC".toList by decide)]
      split
      next dcc =>
        have long : 3 ≤ content.length := length_of_starts dcc
        rw [not_action dcc, cut.drop_starts (by decide) long]
        simp only [Bool.not_false, classify, dcc, if_true]
      next other =>
        rw [cut.starts (by decide)]
        cases action : starts "ACTION".toList content with
        | false =>
          simp only [Bool.not_false, if_true, classify]
          rw [if_neg other]
        | true =>
          simp only [Bool.not_true, Bool.false_eq_true, if_false]
          split
          next missing => rw [missing]; rfl
          next before' after closes =>
            rw [closes, Option.elim_some]
            split
            next empty => rw [empty, sections_none rfl]; rfl
            next =>
              have shorter := length_splitFirst opens
              have shorter' := length_splitFirst closes
              exact ih after (by omega)

end SolidIrcd.Ctcp
