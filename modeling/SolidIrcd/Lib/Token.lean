import SolidIrcd.Lib.Scan
import Mathlib.Data.List.Flatten

/-! Splitting a text at a separator into its non-empty pieces. -/

namespace SolidIrcd.Scan

/-- The pieces between separators, empty ones left out. -/
def tokens (separator : Char) (text : Text) : List Text :=
  (text.splitOn separator).filter (· ≠ [])

/-- Pieces with a separator behind each are found again. -/
theorem tokens_flatMap (pieces : List Text) (solid : ∀ piece ∈ pieces, piece ≠ [] ∧ separator ∉ piece) :
    tokens separator (pieces.flatMap (· ++ [separator])) = pieces := by
  induction pieces with
  | nil => rfl
  | cons piece pieces ih =>
    obtain ⟨nonempty, absent⟩ := solid piece (List.mem_cons_self ..)
    have later := ih fun other member => solid other (List.mem_cons_of_mem _ member)
    unfold tokens at later ⊢
    rw [List.flatMap_cons, List.append_assoc, List.singleton_append,
      List.splitOn_append_cons_self_of_not_mem absent, List.filter_cons_of_pos (by simpa using nonempty), later]

/-- Pieces with a separator between them are found again. -/
theorem tokens_intercalate (pieces : List Text) (solid : ∀ piece ∈ pieces, piece ≠ [] ∧ separator ∉ piece) :
    tokens separator ([separator].intercalate pieces) = pieces := by
  cases pieces with
  | nil => rfl
  | cons piece pieces =>
    have split : ([separator].intercalate (piece :: pieces)).splitOn separator = piece :: pieces :=
      List.splitOn_intercalate separator (fun other member => (solid other member).2) (List.cons_ne_nil _ _)
    rw [tokens, split, List.filter_eq_self]
    intro other member
    simpa using (solid other member).1

/-- With a separator behind each piece there is one more than with a separator between them. -/
theorem flatMap_intercalate (separator : Char) {pieces : List Text} (some : pieces ≠ []) :
    pieces.flatMap (· ++ [separator]) = [separator].intercalate pieces ++ [separator] := by
  induction pieces with
  | nil => exact absurd rfl some
  | cons piece pieces ih =>
    by_cases last : pieces = []
    · simp [last]
    · rw [List.flatMap_cons, ih last, List.intercalate_cons_of_ne_nil last]
      simp only [List.append_assoc]

theorem intercalate_snoc (separator : Char) {pieces : List Text} (nonempty : pieces ≠ []) (piece : Text) :
    [separator].intercalate (pieces ++ [piece]) = [separator].intercalate pieces ++ separator :: piece := by
  apply (List.append_left_inj [separator]).mp
  have before := flatMap_intercalate separator nonempty
  rw [← flatMap_intercalate separator (by simp), List.flatMap_append, before]
  simp

theorem tokens_separator (separator : Char) (text : Text) :
    tokens separator (separator :: text) = tokens separator text := by
  have split : ([] ++ separator :: text).splitOn separator = [] :: text.splitOn separator :=
    List.splitOn_append_cons_self_of_not_mem List.not_mem_nil text
  rw [List.nil_append] at split
  rw [tokens, split]
  simp [tokens]

/-- Separators in front do not matter. -/
theorem tokens_dropWhile (separator : Char) (text : Text) :
    tokens separator (text.dropWhile (· == separator)) = tokens separator text := by
  induction text with
  | nil => rfl
  | cons head rest ih =>
    rw [List.dropWhile_cons]
    split
    · rename_i same
      rw [ih, beq_iff_eq.mp same, tokens_separator]
    · rfl

theorem tokens_append_cons (nonempty : piece ≠ []) (absent : separator ∉ piece) (text : Text) :
    tokens separator (piece ++ separator :: text) = piece :: tokens separator text := by
  rw [tokens, List.splitOn_append_cons_self_of_not_mem absent, List.filter_cons_of_pos (by simpa using nonempty)]
  rfl

theorem tokens_single (nonempty : piece ≠ []) (absent : separator ∉ piece) : tokens separator piece = [piece] := by
  rw [tokens, List.splitOn_eq_singleton absent, List.filter_cons_of_pos (by simpa using nonempty)]
  rfl

/-- Where a piece begins, the text goes on behind it. -/
theorem tokens_word (opens : head ≠ separator) (rest : Text) :
    tokens separator (head :: rest) =
      (head :: rest).takeWhile (· != separator) :: tokens separator ((head :: rest).dropWhile (· != separator)) := by
  have split := List.takeWhile_append_dropWhile (p := (· != separator)) (l := head :: rest)
  have nonempty : (head :: rest).takeWhile (· != separator) ≠ [] := by simp [opens]
  have absent : separator ∉ (head :: rest).takeWhile (· != separator) := fun member => by
    simpa using List.mem_takeWhile_imp member
  cases tail : (head :: rest).dropWhile (· != separator) with
  | nil =>
    rw [tail, List.append_nil] at split
    have single := tokens_single nonempty absent
    rw [split] at single
    rw [single, split]
    rfl
  | cons stop more =>
    have first : stop = separator := by
      have rejected := List.head?_dropWhile_not (· != separator) (head :: rest)
      rw [tail] at rejected
      simpa using rejected
    have piece := tokens_append_cons nonempty absent more
    rw [tail, first] at split
    rw [split] at piece
    rw [piece, first, tokens_separator]

/-- A piece is not empty and holds no separator. -/
theorem mem_tokens (member : piece ∈ tokens separator text) : piece ≠ [] ∧ separator ∉ piece := by
  obtain ⟨inside, nonempty⟩ := List.mem_filter.mp member
  refine ⟨by simpa using nonempty, ?_⟩
  clear member nonempty
  induction text generalizing piece with
  | nil =>
    rw [List.splitOn_nil, List.mem_singleton] at inside
    exact inside ▸ List.not_mem_nil
  | cons head rest ih =>
    rw [List.splitOn_cons_eq_if_modifyHead] at inside
    obtain ⟨first, more, split⟩ := List.exists_cons_of_ne_nil (List.splitOn_ne_nil separator rest)
    rw [split] at inside ih
    split at inside
    · rcases List.mem_cons.mp inside with rfl | later
      · exact List.not_mem_nil
      · exact ih later
    · rename_i other
      rcases List.mem_cons.mp inside with rfl | later
      · simp only [List.mem_cons, not_or]
        exact ⟨fun same => other (beq_iff_eq.mpr same.symm), ih List.mem_cons_self⟩
      · exact ih (List.mem_cons_of_mem _ later)

/-- The pieces with a separator behind each are no longer than the text with one behind it. -/
theorem length_tokens_le (separator : Char) (text : Text) :
    ((tokens separator text).flatMap (· ++ [separator])).length ≤ text.length + 1 := by
  have whole := flatMap_intercalate separator (List.splitOn_ne_nil separator text)
  rw [List.intercalate_splitOn] at whole
  have part : (tokens separator text).Sublist (text.splitOn separator) := List.filter_sublist
  have fewer := (part.flatMap (· ++ [separator])).length_le
  rw [whole, List.length_append] at fewer
  exact fewer

end SolidIrcd.Scan
