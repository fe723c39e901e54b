import SolidIrcd.Common
import SolidIrcd.Lib.Decimal

/-! The words of a line from another server, as `parse` hands them to a handler:
the prefix, the command and at most fourteen parameters, the last of which may
hold spaces. -/

namespace SolidIrcd.Parse

open Scan (Text)

/-- The parameter loop on the text itself; `room` parameters may still come, and
the last of them takes the rest of the line. -/
def params : (room : Nat) → Text → List Text
  | room, text =>
    match text.dropWhile (· == ' ') with
    | [] => []
    | first :: rest =>
      if first = ':' then [rest]
      else
        match room with
        | 0 | 1 => [first :: rest]
        | room + 2 =>
          (first :: rest).takeWhile (· != ' ') :: params (room + 1) ((first :: rest).dropWhile (· != ' '))

/-- A line in its parts. -/
structure Words where
  sender : Text
  command : Text
  parv : List Text
  deriving DecidableEq, Repr

/-- A line with a prefix. -/
def words (line : Text) : Words :=
  let sender := (line.drop 1).takeWhile (· != ' ')
  let command := ((line.drop 1).dropWhile (· != ' ')).dropWhile (· == ' ')
  ⟨sender, command.takeWhile (· != ' '), params (maxPara - 1) (command.dropWhile (· != ' '))⟩

/-- A text that a line can carry as a parameter of its own. -/
structure Word (text : Text) : Prop where
  nonempty : text ≠ []
  solid : ' ' ∉ text
  noColon : text.head? ≠ some ':'

theorem word_print (value : Int) : Word (Decimal.print value) where
  nonempty := Decimal.print_ne_nil value
  solid := by
    intro member
    obtain dash | digit := Decimal.mem_print member
    · exact absurd dash (by decide)
    · exact absurd digit (by decide)
  noColon := fun first => Decimal.colon_not_mem_print value (List.mem_of_mem_head? first)

/-- Words as a line carries them, a space in front of each. -/
def spaced (texts : List Text) : Text := texts.flatMap (' ' :: ·)

theorem spaced_cons (text : Text) (texts : List Text) : spaced (text :: texts) = ' ' :: text ++ spaced texts := by
  simp [spaced]

private theorem takeWhile_solid (solid : ' ' ∉ word) (opens : rest = [] ∨ rest.head? = some ' ') :
    (word ++ rest).takeWhile (· != ' ') = word := by
  rw [List.takeWhile_append_of_pos]
  · obtain rfl | space := opens
    · simp
    · cases rest with
      | nil => simp
      | cons c rest =>
        obtain rfl : c = ' ' := by simpa using space
        simp
  · intro c member
    exact bne_iff_ne.mpr fun isSpace => solid (isSpace ▸ member)

private theorem dropWhile_solid (solid : ' ' ∉ word) (opens : rest = [] ∨ rest.head? = some ' ') :
    (word ++ rest).dropWhile (· != ' ') = rest := by
  rw [List.dropWhile_append_of_pos]
  · obtain rfl | space := opens
    · simp
    · cases rest with
      | nil => simp
      | cons c rest =>
        obtain rfl : c = ' ' := by simpa using space
        simp
  · intro c member
    exact bne_iff_ne.mpr fun isSpace => solid (isSpace ▸ member)

theorem spaced_head (texts : List Text) (opens : rest = [] ∨ rest.head? = some ' ') :
    spaced texts ++ rest = [] ∨ (spaced texts ++ rest).head? = some ' ' := by
  cases texts with
  | nil => simpa [spaced] using opens
  | cons text texts => simp [spaced]

/-- One word in front of the rest. -/
theorem params_word (word : Word text) (opens : rest = [] ∨ rest.head? = some ' ') (room : Nat) :
    params (room + 2) (' ' :: text ++ rest) = text :: params (room + 1) rest := by
  obtain ⟨first, others, rfl⟩ := List.exists_cons_of_ne_nil word.nonempty
  have notSpace : first ≠ ' ' := fun isSpace => word.solid (by simp [isSpace])
  have notColon : first ≠ ':' := fun isColon => word.noColon (by simp [isColon])
  have skip : (' ' :: (first :: others) ++ rest).dropWhile (· == ' ') = first :: (others ++ rest) := by
    simp [notSpace]
  rw [params, skip]
  simp only [notColon, if_false]
  rw [← List.cons_append, takeWhile_solid word.solid opens, dropWhile_solid word.solid opens]

/-- Words in front of the rest, as long as there is room. -/
theorem params_spaced (good : ∀ text ∈ texts, Word text) (opens : rest = [] ∨ rest.head? = some ' ')
    (room : Nat) : params (texts.length + room + 1) (spaced texts ++ rest) = texts ++ params (room + 1) rest := by
  induction texts with
  | nil => simp [spaced]
  | cons text texts ih =>
    have later := ih fun other member => good other (List.mem_cons_of_mem _ member)
    have count : (text :: texts).length + room + 1 = (texts.length + room) + 2 := by
      simp only [List.length_cons]
      omega
    have split : spaced (text :: texts) ++ rest = ' ' :: text ++ (spaced texts ++ rest) := by
      simp [spaced]
    rw [count, split, params_word (good text (List.mem_cons_self ..)) (spaced_head texts opens), later]
    rfl

theorem params_trailing (room : Nat) (text : Text) : params room (" :".toList ++ text) = [text] := by
  rw [params]
  simp

theorem params_spaces (room : Nat) (text : Text) : params room (' ' :: text) = params room text := by
  rw [params, params]
  simp

theorem params_nil (room : Nat) : params room [] = [] := by
  rw [params]
  simp

/-- A line of a server: its name, the command and what follows. -/
theorem words_line {command : Text} (sender : ' ' ∉ name) (solid : ' ' ∉ command) (nonempty : command ≠ [])
    (opens : rest = [] ∨ rest.head? = some ' ') :
    words (':' :: name ++ ' ' :: command ++ rest) = ⟨name, command, params (maxPara - 1) rest⟩ := by
  obtain ⟨first, others, rfl⟩ := List.exists_cons_of_ne_nil nonempty
  have notSpace : first ≠ ' ' := fun isSpace => solid (by simp [isSpace])
  have body : (':' :: name ++ ' ' :: (first :: others) ++ rest).drop 1 =
      name ++ (' ' :: (first :: others) ++ rest) := by simp
  have behind : (name ++ (' ' :: (first :: others) ++ rest)).dropWhile (· != ' ') =
      ' ' :: (first :: others) ++ rest := dropWhile_solid sender (.inr rfl)
  have skip : (' ' :: (first :: others) ++ rest).dropWhile (· == ' ') = (first :: others) ++ rest := by
    simp [notSpace]
  have front : (name ++ (' ' :: (first :: others) ++ rest)).takeWhile (· != ' ') = name :=
    takeWhile_solid sender (.inr rfl)
  simp only [words, body, front, behind, skip, takeWhile_solid solid opens, dropWhile_solid solid opens]

/-- A line of few words, perhaps with a space behind the last. -/
theorem words_padded {command : Text} (sender : ' ' ∉ name) (solid : ' ' ∉ command) (nonempty : command ≠ [])
    (good : ∀ text ∈ texts, Word text) (few : texts.length < maxPara - 1) (gap : rest = [] ∨ rest = [' ']) :
    words (':' :: name ++ ' ' :: command ++ (spaced texts ++ rest)) = ⟨name, command, texts⟩ := by
  have opens : rest = [] ∨ rest.head? = some ' ' := by
    obtain rfl | rfl := gap
    · exact .inl rfl
    · exact .inr rfl
  have last (room : Nat) : params room rest = [] := by
    obtain rfl | rfl := gap
    · exact params_nil room
    · rw [params_spaces, params_nil]
  obtain ⟨room, count⟩ : ∃ room, maxPara - 1 = texts.length + room + 1 :=
    ⟨maxPara - 1 - texts.length - 1, by omega⟩
  rw [words_line sender solid nonempty (spaced_head texts opens), count, params_spaced good opens, last,
    List.append_nil]

/-- A line of few words. -/
theorem words_spaced {command : Text} (sender : ' ' ∉ name) (solid : ' ' ∉ command) (nonempty : command ≠ [])
    (good : ∀ text ∈ texts, Word text) (few : texts.length < maxPara - 1) :
    words (':' :: name ++ ' ' :: command ++ spaced texts) = ⟨name, command, texts⟩ := by
  have padded := words_padded sender solid nonempty good few (.inl rfl)
  rwa [List.append_nil] at padded

/-- A line of few words and a trailing parameter, which may stand behind two
spaces. -/
theorem words_trailing {command : Text} (sender : ' ' ∉ name) (solid : ' ' ∉ command) (nonempty : command ≠ [])
    (good : ∀ text ∈ texts, Word text) (few : texts.length < maxPara - 1)
    (gap : rest = " :".toList ++ list ∨ rest = ' ' :: " :".toList ++ list) :
    words (':' :: name ++ ' ' :: command ++ (spaced texts ++ rest)) = ⟨name, command, texts ++ [list]⟩ := by
  have opens : rest = [] ∨ rest.head? = some ' ' := by
    obtain rfl | rfl := gap
    · exact .inr rfl
    · exact .inr rfl
  obtain ⟨room, count⟩ : ∃ room, maxPara - 1 = texts.length + room + 1 :=
    ⟨maxPara - 1 - texts.length - 1, by omega⟩
  have last : params (room + 1) rest = [list] := by
    obtain rfl | rfl := gap
    · exact params_trailing _ _
    · rw [List.cons_append, params_spaces]
      exact params_trailing _ _
  rw [words_line sender solid nonempty (spaced_head texts opens), count, params_spaced good opens, last]

end SolidIrcd.Parse
