import SolidIrcd.Lib.Scan

/-! Copies into a fixed array: the bytes the array holds afterwards. A copy that
runs past the end shows as an array that grew. -/

namespace SolidIrcd.Scan

/-- `strcpy`: the string and its terminator over the old bytes. -/
def strcpy (dest src : Text) : Text := src ++ nul :: dest.drop (src.length + 1)

/-- `strncpy`: `n` bytes, filled up with NULs, and no terminator when there is no room for one. -/
def strncpy (dest src : Text) (n : Nat) : Text :=
  src.take n ++ List.replicate (n - src.length) nul ++ dest.drop n

/-- `snprintf(dest, n, "%s", src)` for a positive `n`. -/
def snprintf (dest src : Text) (n : Nat) : Text := strcpy dest (src.take (n - 1))

/-- The array still has its size and holds a terminated string. -/
def Terminated (size : Nat) (array : Text) : Prop := array.length = size ∧ nul ∈ array

theorem strcpy_terminated {dest src : Text} (sized : dest.length = size) (fits : src.length < size) :
    Terminated size (strcpy dest src) := by
  refine ⟨?_, by simp [strcpy]⟩
  simp only [strcpy, List.length_append, List.length_cons, List.length_drop, sized]
  omega

theorem snprintf_terminated {dest : Text} (src : Text) (sized : dest.length = size) (positive : 0 < n)
    (bound : n ≤ size) : Terminated size (snprintf dest src n) := by
  have short := List.length_take_le (n - 1) src
  exact strcpy_terminated sized (by omega)

theorem strncpy_terminated {dest src : Text} (sized : dest.length = size) (fits : src.length < size) :
    Terminated size (strncpy dest src size) := by
  constructor
  · simp only [strncpy, List.length_append, List.length_take, List.length_replicate, List.length_drop,
      sized]
    omega
  · have room : size - src.length ≠ 0 := by omega
    simp [strncpy, room]

theorem textAt_strncpy {dest src : Text} (clean : nul ∉ src) (fits : src.length < n) :
    textAt (strncpy dest src n) 0 = src := by
  obtain ⟨extra, room⟩ : ∃ extra, n - src.length = extra + 1 := ⟨n - src.length - 1, by omega⟩
  rw [strncpy, List.take_of_length_le (Nat.le_of_lt fits), room, List.replicate_succ,
    List.append_assoc, List.cons_append]
  exact textAt_terminated clean _

theorem length_textAt_lt {array : Text} (terminated : Terminated size array) :
    (textAt array 0).length < size := by
  obtain ⟨sized, ended⟩ := terminated
  obtain ⟨last, inside, same⟩ := List.getElem_of_mem ended
  have stop := scan_le (· != nul) (List.getElem?_eq_some_iff.mpr ⟨inside, same⟩) (by simp)
    (Nat.zero_le last)
  simp only [scan, Nat.zero_add] at stop
  unfold textAt
  omega

end SolidIrcd.Scan
