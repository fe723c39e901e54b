import Mathlib.Data.List.Basic
import Mathlib.Data.List.TakeWhile

/-! Cursor scans over a byte array that holds a NUL-terminated text. Nothing
here knows about a protocol: positions are indices, a scan advances while a
predicate holds, and a terminator bounds every scan that rejects it. -/

namespace SolidIrcd.Scan

abbrev Text := List Char

def nul : Char := '\x00'

/-- The text a C string function sees from a position: up to the first NUL. -/
def textAt (bytes : Text) (cursor : Nat) : Text :=
  (bytes.drop cursor).takeWhile (· != nul)

/-- Advance a cursor while the byte under it satisfies the predicate. -/
def scan (keep : Char → Bool) (bytes : Text) (cursor : Nat) : Nat :=
  cursor + ((bytes.drop cursor).takeWhile keep).length

/-- A byte that `strchr` steps over when it looks for `wanted`. -/
def skipped (wanted byte : Char) : Bool := byte != nul && byte != wanted

/-- The position `strchr` returns; it never looks past the terminator. -/
def find (wanted : Char) (bytes : Text) (cursor : Nat) : Option Nat :=
  if bytes[scan (skipped wanted) bytes cursor]? = some wanted then
    some (scan (skipped wanted) bytes cursor)
  else none

/-- What follows the first occurrence of a character. -/
def afterFirst (wanted : Char) (text : Text) : Text :=
  (text.dropWhile (· != wanted)).drop 1

theorem le_scan (keep : Char → Bool) (bytes : Text) (cursor : Nat) :
    cursor ≤ scan keep bytes cursor := Nat.le_add_right _ _

private theorem length_takeWhile_le_of_stop {keep : Char → Bool} {bytes : Text} {index : Nat}
    (found : bytes[index]? = some stop) (fails : keep stop = false) :
    (bytes.takeWhile keep).length ≤ index := by
  induction bytes generalizing index with
  | nil => simp at found
  | cons head rest ih =>
    cases index with
    | zero =>
      have same : head = stop := by simpa using found
      simp [same, fails]
    | succ index =>
      have later := ih (by simpa using found)
      by_cases kept : keep head = true
      · simpa [kept] using later
      · simp [kept]

/-- A scan never runs past a byte that its predicate rejects. -/
theorem scan_le (keep : Char → Bool) {bytes : Text} {cursor last : Nat}
    (found : bytes[last]? = some stop) (fails : keep stop = false) (before : cursor ≤ last) :
    scan keep bytes cursor ≤ last := by
  have inside : (bytes.drop cursor)[last - cursor]? = some stop := by
    rw [List.getElem?_drop]
    simpa [Nat.add_sub_of_le before] using found
  have bound := length_takeWhile_le_of_stop inside fails
  unfold scan
  omega

theorem drop_scan (keep : Char → Bool) (bytes : Text) (cursor : Nat) :
    bytes.drop (scan keep bytes cursor) = (bytes.drop cursor).dropWhile keep := by
  have split := List.takeWhile_append_dropWhile (p := keep) (l := bytes.drop cursor)
  have dropped := congrArg (List.drop ((bytes.drop cursor).takeWhile keep).length) split
  rw [List.drop_left] at dropped
  rw [dropped, List.drop_drop, scan]

/-- A successful search splits the bytes around the character it found. -/
theorem find_split {wanted : Char} {bytes : Text} {cursor index : Nat}
    (found : find wanted bytes cursor = some index) :
    ∃ front, bytes.drop cursor = front ++ wanted :: bytes.drop (index + 1) ∧
      (∀ byte ∈ front, skipped wanted byte = true) ∧ index = cursor + front.length := by
  unfold find at found
  split at found
  · rename_i present
    cases found
    refine ⟨(bytes.drop cursor).takeWhile (skipped wanted), ?_, ?_, rfl⟩
    · have inside := (List.getElem?_eq_some_iff.mp present).1
      have rest : bytes.drop (scan (skipped wanted) bytes cursor) =
          wanted :: bytes.drop (scan (skipped wanted) bytes cursor + 1) := by
        rw [List.drop_eq_getElem_cons inside, (List.getElem?_eq_some_iff.mp present).2]
      rw [← rest, drop_scan, List.takeWhile_append_dropWhile]
    · intro byte member
      exact List.mem_takeWhile_imp member
  · cases found

theorem le_of_find {wanted : Char} {bytes : Text} {cursor index : Nat}
    (found : find wanted bytes cursor = some index) : cursor ≤ index := by
  obtain ⟨front, _, _, same⟩ := find_split found
  omega

theorem lt_length_of_find {wanted : Char} {bytes : Text} {cursor index : Nat}
    (found : find wanted bytes cursor = some index) : index < bytes.length := by
  unfold find at found
  split at found
  · rename_i present
    cases found
    exact (List.getElem?_eq_some_iff.mp present).1
  · cases found

/-- A byte other than the terminator is found strictly before it. -/
theorem find_lt {wanted : Char} {bytes : Text} {cursor index last : Nat}
    (found : find wanted bytes cursor = some index) (ended : bytes[last]? = some nul)
    (before : cursor ≤ last) (other : wanted ≠ nul) : index < last := by
  unfold find at found
  split at found
  · rename_i present
    cases found
    have bound : scan (skipped wanted) bytes cursor ≤ last :=
      scan_le _ ended (by simp [skipped]) before
    rcases Nat.lt_or_eq_of_le bound with below | equal
    · exact below
    · rw [equal, ended] at present
      exact absurd (Option.some.inj present).symm other
  · cases found

private theorem takeWhile_nonNul_split {front rest : Text} {wanted : Char}
    (clean : ∀ byte ∈ front, skipped wanted byte = true) (other : wanted ≠ nul) :
    (front ++ wanted :: rest).takeWhile (· != nul) =
      front ++ wanted :: rest.takeWhile (· != nul) := by
  have nonNul : ∀ byte ∈ front, (byte != nul) = true := fun byte member => by
    have kept := clean byte member
    simp only [skipped, Bool.and_eq_true] at kept
    exact kept.1
  rw [List.takeWhile_append_of_pos nonNul]
  simp [other]

/-- Past the found character the text goes on unchanged. -/
theorem textAt_of_find {wanted : Char} {bytes : Text} {cursor index : Nat}
    (found : find wanted bytes cursor = some index) (other : wanted ≠ nul) :
    ∃ front, textAt bytes cursor = front ++ wanted :: textAt bytes (index + 1) ∧
      wanted ∉ front ∧ index = cursor + front.length := by
  obtain ⟨front, split, clean, same⟩ := find_split found
  refine ⟨front, ?_, ?_, same⟩
  · rw [textAt, split, takeWhile_nonNul_split clean other, textAt]
  · intro member
    have kept := clean wanted member
    simp [skipped] at kept

theorem takeWhile_of_split {wanted : Char} {front : Text} (clean : wanted ∉ front) (rest : Text) :
    (front ++ wanted :: rest).takeWhile (· != wanted) = front := by
  have kept : ∀ byte ∈ front, (byte != wanted) = true := fun byte member => by
    simp only [bne_iff_ne]
    rintro rfl
    exact clean member
  rw [List.takeWhile_append_of_pos kept]
  simp

theorem afterFirst_of_split {wanted : Char} {front rest : Text} (clean : wanted ∉ front) :
    afterFirst wanted (front ++ wanted :: rest) = rest := by
  have kept : ∀ byte ∈ front, (byte != wanted) = true := fun byte member => by
    simp only [bne_iff_ne]
    rintro rfl
    exact clean member
  rw [afterFirst, List.dropWhile_append_of_pos kept]
  simp

theorem length_afterFirst_lt {wanted : Char} {text : Text} (member : wanted ∈ text) :
    (afterFirst wanted text).length < text.length := by
  have stop : text.dropWhile (· != wanted) ≠ [] := by
    intro empty
    have all := List.dropWhile_eq_nil_iff.mp empty wanted member
    simp at all
  have bound := (List.dropWhile_suffix (l := text) (· != wanted)).length_le
  have positive := List.length_pos_iff.mpr stop
  simp only [afterFirst, List.length_drop]
  omega

/-- A failed search means that the text does not hold the character. -/
theorem find_none_iff {wanted : Char} {bytes : Text} {cursor last : Nat}
    (ended : bytes[last]? = some nul) (before : cursor ≤ last) (other : wanted ≠ nul) :
    find wanted bytes cursor = none ↔ wanted ∉ textAt bytes cursor := by
  constructor
  · intro missing member
    have bound := scan_le (skipped wanted) ended (by simp [skipped]) before
    obtain ⟨stop, inside⟩ : ∃ stop, bytes[scan (skipped wanted) bytes cursor]? = some stop :=
      ⟨_, List.getElem?_eq_getElem
        (Nat.lt_of_le_of_lt bound (List.getElem?_eq_some_iff.mp ended).1)⟩
    have notWanted : stop ≠ wanted := by
      rintro rfl
      simp [find, inside] at missing
    have rest : (bytes.drop cursor).dropWhile (skipped wanted) =
        stop :: bytes.drop (scan (skipped wanted) bytes cursor + 1) := by
      rw [← drop_scan, List.drop_eq_getElem_cons (List.getElem?_eq_some_iff.mp inside).1,
        (List.getElem?_eq_some_iff.mp inside).2]
    have stopNul : stop = nul := by
      have rejected := List.head?_dropWhile_not (skipped wanted) (bytes.drop cursor)
      rw [rest] at rejected
      simpa [skipped, notWanted] using rejected
    have front := List.takeWhile_append_dropWhile (p := skipped wanted) (l := bytes.drop cursor)
    have clean : ∀ byte ∈ (bytes.drop cursor).takeWhile (skipped wanted), (byte != nul) = true :=
      fun byte present => by
        have kept := List.mem_takeWhile_imp present
        simp only [skipped, Bool.and_eq_true] at kept
        exact kept.1
    rw [textAt, ← front, rest, List.takeWhile_append_of_pos clean, stopNul] at member
    simp only [bne_self_eq_false, Bool.false_eq_true, not_false_eq_true, List.takeWhile_cons_of_neg,
      List.append_nil] at member
    have kept := List.mem_takeWhile_imp member
    simp [skipped] at kept
  · intro absent
    cases found : find wanted bytes cursor with
    | none => rfl
    | some index =>
      obtain ⟨front, split, _, _⟩ := textAt_of_find found other
      exact absurd (by rw [split]; simp) absent

theorem textAt_set_before {bytes : Text} {index cursor : Nat} (byte : Char)
    (before : index < cursor) : textAt (bytes.set index byte) cursor = textAt bytes cursor := by
  rw [textAt, List.drop_set_of_lt before, textAt]

/-- Writing a NUL over the found character cuts the text there. -/
theorem textAt_cut {wanted : Char} {bytes : Text} {cursor index : Nat}
    (found : find wanted bytes cursor = some index) (other : wanted ≠ nul) :
    textAt (bytes.set index nul) cursor = (textAt bytes cursor).takeWhile (· != wanted) := by
  obtain ⟨front, split, clean, same⟩ := find_split found
  obtain ⟨front', split', clean', same'⟩ := textAt_of_find found other
  have equal : front = front' := by
    have whole : textAt bytes cursor = front ++ wanted :: textAt bytes (index + 1) := by
      rw [textAt, split, takeWhile_nonNul_split clean other, textAt]
    rw [whole] at split'
    have lengths : front.length = front'.length := by omega
    exact (List.append_inj split' lengths).1
  subst front'
  have nonNul : ∀ byte ∈ front, (byte != nul) = true := fun byte member => by
    have kept := clean byte member
    simp only [skipped, Bool.and_eq_true] at kept
    exact kept.1
  have written : (bytes.set index nul).drop cursor = front ++ nul :: bytes.drop (index + 1) := by
    rw [List.drop_set, split, if_neg (by omega), same, Nat.add_sub_cancel_left]
    simp
  rw [split', takeWhile_of_split clean' _, textAt, written, List.takeWhile_append_of_pos nonNul]
  simp

private theorem dropWhile_takeWhile_nonNul {keep : Char → Bool} (rejected : keep nul = false)
    (bytes : Text) : (bytes.dropWhile keep).takeWhile (· != nul) =
      (bytes.takeWhile (· != nul)).dropWhile keep := by
  induction bytes with
  | nil => rfl
  | cons head rest ih =>
    by_cases kept : keep head = true
    · have nonNul : head ≠ nul := by
        rintro rfl
        simp [rejected] at kept
      simpa [kept, nonNul] using ih
    · by_cases ended : head = nul <;> simp [kept, ended, rejected]

private theorem takeWhile_takeWhile_nonNul {keep : Char → Bool} (rejected : keep nul = false)
    (bytes : Text) : bytes.takeWhile keep = (bytes.takeWhile (· != nul)).takeWhile keep := by
  induction bytes with
  | nil => rfl
  | cons head rest ih =>
    by_cases kept : keep head = true
    · have nonNul : head ≠ nul := by
        rintro rfl
        simp [rejected] at kept
      simpa [kept, nonNul] using ih
    · by_cases ended : head = nul <;> simp [kept, ended, rejected]

/-- A scan that rejects the terminator moves within the text. -/
theorem textAt_scan {keep : Char → Bool} (rejected : keep nul = false) (bytes : Text) (cursor : Nat) :
    textAt bytes (scan keep bytes cursor) = (textAt bytes cursor).dropWhile keep := by
  rw [textAt, drop_scan, dropWhile_takeWhile_nonNul rejected, textAt]

/-- The bytes a scan passed over. -/
theorem take_scan {keep : Char → Bool} (rejected : keep nul = false) (bytes : Text) (cursor : Nat) :
    (bytes.drop cursor).take (scan keep bytes cursor - cursor) = (textAt bytes cursor).takeWhile keep := by
  have split := List.takeWhile_append_dropWhile (p := keep) (l := bytes.drop cursor)
  have taken := congrArg (List.take ((bytes.drop cursor).takeWhile keep).length) split
  rw [List.take_left] at taken
  rw [scan, Nat.add_sub_cancel_left, textAt, ← takeWhile_takeWhile_nonNul rejected, ← taken]

theorem textAt_cons {bytes : Text} {cursor : Nat} {byte : Char} (here : bytes[cursor]? = some byte)
    (nonNul : byte ≠ nul) : textAt bytes cursor = byte :: textAt bytes (cursor + 1) := by
  obtain ⟨inside, same⟩ := List.getElem?_eq_some_iff.mp here
  rw [textAt, List.drop_eq_getElem_cons inside, same, textAt]
  simp [nonNul]

theorem head_textAt {bytes : Text} {cursor : Nat} {byte : Char} (nonNul : byte ≠ nul) :
    (textAt bytes cursor).head? = some byte ↔ bytes[cursor]? = some byte := by
  constructor
  · intro first
    rw [← List.head?_drop]
    unfold textAt at first
    cases rest : bytes.drop cursor with
    | nil => simp [rest] at first
    | cons head tail =>
      by_cases ended : head = nul
      · simp [rest, ended] at first
      · simpa [rest, ended] using first
  · intro here
    simp [textAt_cons here nonNul]

/-- Within a text, skipping up to a character needs no test for the terminator. -/
theorem dropWhile_skipped {text : Text} (clean : nul ∉ text) (wanted : Char) :
    text.dropWhile (skipped wanted) = text.dropWhile (· != wanted) := by
  induction text with
  | nil => rfl
  | cons head rest ih =>
    simp only [List.mem_cons, not_or] at clean
    have nonNul : (head != nul) = true := bne_iff_ne.mpr (Ne.symm clean.1)
    simp only [List.dropWhile_cons, skipped, nonNul, Bool.true_and]
    split
    · exact ih clean.2
    · rfl

theorem takeWhile_skipped {text : Text} (clean : nul ∉ text) (wanted : Char) :
    text.takeWhile (skipped wanted) = text.takeWhile (· != wanted) := by
  induction text with
  | nil => rfl
  | cons head rest ih =>
    simp only [List.mem_cons, not_or] at clean
    have nonNul : (head != nul) = true := bne_iff_ne.mpr (Ne.symm clean.1)
    simp only [List.takeWhile_cons, skipped, nonNul, Bool.true_and]
    split
    · exact congrArg _ (ih clean.2)
    · rfl

theorem nul_not_mem_textAt (bytes : Text) (cursor : Nat) : nul ∉ textAt bytes cursor := by
  intro member
  simpa using List.mem_takeWhile_imp member

theorem textAt_terminated {text : Text} (clean : nul ∉ text) (beyond : Text) :
    textAt (text ++ nul :: beyond) 0 = text := by
  simpa [textAt] using takeWhile_of_split clean beyond

end SolidIrcd.Scan
