import SolidIrcd.Lib.Scan

/-! Decimal numbers as C reads and prints them: `strtol` with base ten, `atoi`,
`atol` and the `%d` of `printf`, on a machine with 64-bit `long` and 32-bit
`int`. -/

namespace SolidIrcd.Decimal

open Scan (Text)

def longMax : Int := 9223372036854775807
def intMax : Int := 2147483647

def isBlank (c : Char) : Bool := c == ' ' || ('\x09' ≤ c && c ≤ '\x0d')

/-- The optional sign in front of the digits. -/
def readSign : Text → Bool × Text
  | '-' :: rest => (true, rest)
  | '+' :: rest => (false, rest)
  | text => (false, text)

/-- A result out of range is the nearest `long`. -/
def clamp (value : Int) : Int := max (-longMax - 1) (min longMax value)

/-- `strtol(text, &end, 10)`: the value and what `end` points at, which is the
whole text when there is no number. -/
def strtol (text : Text) : Int × Text :=
  let (negative, unsigned) := readSign (text.dropWhile isBlank)
  let digits := unsigned.takeWhile Char.isDigit
  if digits = [] then (0, text)
  else
    let value : Int := Nat.ofDigitChars 10 digits 0
    (clamp (if negative then -value else value), unsigned.dropWhile Char.isDigit)

/-- The digits of a number to base 8 or 16. -/
def isDigitOf (base : Nat) (c : Char) : Bool :=
  if base = 8 then '0' ≤ c && c ≤ '7'
  else c.isDigit || ('a' ≤ c && c ≤ 'f') || ('A' ≤ c && c ≤ 'F')

def digitValue (c : Char) : Nat :=
  if c.isDigit then c.toNat - 48 else if 'a' ≤ c then c.toNat - 87 else c.toNat - 55

/-- `strtol(text, &end, 0)`: 0x is hexadecimal when a digit follows, and another number
that starts with 0 is octal. -/
def strtolAuto (text : Text) : Int × Text :=
  let (negative, unsigned) := readSign (text.dropWhile isBlank)
  match unsigned with
  | '0' :: rest =>
    let hex := (rest.head? == some 'x' || rest.head? == some 'X') && (rest.drop 1).head?.any (isDigitOf 16)
    let base := if hex then 16 else 8
    let body := if hex then rest.drop 1 else unsigned
    let value : Int := (body.takeWhile (isDigitOf base)).foldl (fun value c => value * base + digitValue c) 0
    (clamp (if negative then -value else value), body.dropWhile (isDigitOf base))
  | _ => strtol text

/-- `strtoul(text, &end, 0)`: what stands behind a minus is taken modulo the range. -/
def strtoulAuto (text : Text) : Nat × Text :=
  let (negative, unsigned) := readSign (text.dropWhile isBlank)
  let hex := unsigned.head? == some '0' && (unsigned[1]? == some 'x' || unsigned[1]? == some 'X') &&
    unsigned[2]?.any (isDigitOf 16)
  let base := if hex then 16 else if unsigned.head? = some '0' then 8 else 10
  let body := if hex then unsigned.drop 2 else unsigned
  let isDigitHere (c : Char) : Bool := if base = 10 then c.isDigit else isDigitOf base c
  let digits := body.takeWhile isDigitHere
  if digits = [] then (0, text)
  else
    let value := digits.foldl (fun value c => value * base + digitValue c) 0
    let value := if value ≥ 18446744073709551616 then 18446744073709551615
      else if negative then (18446744073709551616 - value) % 18446744073709551616 else value
    (value, body.dropWhile isDigitHere)

/-- A `long` stored in an `int` keeps its low 32 bits. -/
def toInt (value : Int) : Int := value.bmod 4294967296

def atol (text : Text) : Int := (strtol text).1

def atoi (text : Text) : Int := toInt (strtol text).1

/-- `%d` and `%ld`. -/
def print (value : Int) : Text :=
  if value < 0 then '-' :: Nat.toDigits 10 value.natAbs else Nat.toDigits 10 value.natAbs

theorem isDigit_of_mem (member : c ∈ Nat.toDigits 10 value) : c.isDigit = true :=
  Nat.isDigit_of_mem_toDigits (by decide) (by decide) member

theorem print_ne_nil (value : Int) : print value ≠ [] := by
  unfold print
  split
  · simp
  · exact Nat.toDigits_ne_nil

theorem mem_print (member : c ∈ print value) : c = '-' ∨ c.isDigit = true := by
  unfold print at member
  split at member
  · obtain dash | digit := List.mem_cons.mp member
    · exact .inl dash
    · exact .inr (isDigit_of_mem digit)
  · exact .inr (isDigit_of_mem member)

private theorem takeWhile_digits (stops : ∀ c, rest.head? = some c → c.isDigit = false) :
    (Nat.toDigits 10 value ++ rest).takeWhile Char.isDigit = Nat.toDigits 10 value := by
  rw [List.takeWhile_append_of_pos fun c member => isDigit_of_mem member]
  cases rest with
  | nil => simp
  | cons c rest => simp [stops c rfl]

private theorem dropWhile_digits (stops : ∀ c, rest.head? = some c → c.isDigit = false) :
    (Nat.toDigits 10 value ++ rest).dropWhile Char.isDigit = rest := by
  rw [List.dropWhile_append_of_pos fun c member => isDigit_of_mem member]
  cases rest with
  | nil => simp
  | cons c rest => simp [stops c rfl]

private theorem digit_not_blank (digit : Char.isDigit c = true) : isBlank c = false := by
  simp only [Char.isDigit, isBlank, Bool.and_eq_true, decide_eq_true_eq, Bool.or_eq_false_iff,
    beq_eq_false_iff_ne, Bool.and_eq_false_iff, decide_eq_false_iff_not] at *
  constructor
  · rintro rfl
    exact absurd digit.1 (by decide)
  · exact .inr fun below => absurd (Nat.le_trans digit.1 below) (by decide)

private theorem digit_not_sign (digit : Char.isDigit c = true) : readSign (c :: rest) = (false, c :: rest) := by
  unfold readSign
  split
  · exact absurd digit (by simp_all)
  · exact absurd digit (by simp_all)
  · rfl

/-- Reading back what was printed, whatever follows that is not a digit. -/
theorem strtol_print_clamp (value : Int) (stops : ∀ c, rest.head? = some c → c.isDigit = false) :
    strtol (print value ++ rest) = (clamp value, rest) := by
  have some : Nat.toDigits 10 value.natAbs ≠ [] := Nat.toDigits_ne_nil
  obtain ⟨first, others, split⟩ := List.exists_cons_of_ne_nil some
  have member : first ∈ Nat.toDigits 10 value.natAbs := by simp [split]
  have digit : first.isDigit = true := isDigit_of_mem member
  by_cases negative : value < 0
  · have opened : (print value ++ rest).dropWhile isBlank = '-' :: (Nat.toDigits 10 value.natAbs ++ rest) := by
      simp [print, negative, isBlank]
    have restored : -((value.natAbs : Int)) = value := by omega
    simp only [strtol, opened, readSign, takeWhile_digits stops, dropWhile_digits stops,
      Nat.toDigits_ne_nil, if_false, if_true, Nat.ofDigitChars_ten_toDigits, restored]
  · have opened : (print value ++ rest).dropWhile isBlank = Nat.toDigits 10 value.natAbs ++ rest := by
      simp [print, negative, split, digit_not_blank digit]
    have unsigned : readSign (Nat.toDigits 10 value.natAbs ++ rest) =
        (false, Nat.toDigits 10 value.natAbs ++ rest) := by
      rw [split, List.cons_append, digit_not_sign digit]
    have restored : ((value.natAbs : Int)) = value := by omega
    simp only [strtol, opened, unsigned, takeWhile_digits stops, dropWhile_digits stops,
      Nat.toDigits_ne_nil, if_false, Nat.ofDigitChars_ten_toDigits, restored, Bool.false_eq_true]

theorem clamp_self (lower : -longMax - 1 ≤ value) (upper : value ≤ longMax) : clamp value = value := by
  unfold clamp
  omega

theorem strtol_print (lower : -longMax - 1 ≤ value) (upper : value ≤ longMax)
    (stops : ∀ c, rest.head? = some c → c.isDigit = false) :
    strtol (print value ++ rest) = (value, rest) := by
  rw [strtol_print_clamp value stops, clamp_self lower upper]

/-- `atoi` of a number of any size. -/
theorem atoi_print_clamp (value : Int) : atoi (print value) = toInt (clamp value) := by
  have whole := strtol_print_clamp value (show ∀ c, ([] : Text).head? = some c → c.isDigit = false by simp)
  rw [List.append_nil] at whole
  rw [atoi, whole]

/-- Digits are read to their end, with or without zeros in front. -/
theorem strtol_digits {text : Text} (some : text ≠ []) (digits : ∀ c ∈ text, c.isDigit = true) :
    strtol text = (clamp (Nat.ofDigitChars 10 text 0 : Nat), []) := by
  obtain ⟨first, others, split⟩ := List.exists_cons_of_ne_nil some
  have digit : first.isDigit = true := digits first (by simp [split])
  have opened : text.dropWhile isBlank = text := by simp [split, digit_not_blank digit]
  have unsigned : readSign text = (false, text) := by rw [split, digit_not_sign digit]
  have all : text.takeWhile Char.isDigit = text := List.takeWhile_eq_self_iff.mpr digits
  have rest : text.dropWhile Char.isDigit = [] := List.dropWhile_eq_nil_iff.mpr digits
  simp only [strtol, opened, unsigned, all, rest, some, if_false, Bool.false_eq_true]

private theorem head_toDigits (positive : 0 < value) : (Nat.toDigits 10 value).head? ≠ some '0' := by
  induction value using Nat.strongRecOn with
  | ind value ih =>
    rw [Nat.toDigits_eq_if (by decide)]
    split
    next small =>
      have every : ∀ digit : Fin 10, 0 < digit.val → [Nat.digitChar digit.val].head? ≠ some '0' := by decide
      exact every ⟨value, small⟩ positive
    next large =>
      have less := ih (value / 10) (by omega) (by omega)
      obtain ⟨first, others, split⟩ := List.exists_cons_of_ne_nil (Nat.toDigits_ne_nil (n := value / 10) (b := 10))
      rw [split] at less ⊢
      simpa using less

/-- A printed number is not taken for an octal one. -/
theorem strtolAuto_print (lower : 0 ≤ value) (upper : value ≤ longMax) (rest : Text) :
    strtolAuto (print value ++ ' ' :: rest) = (value, ' ' :: rest) := by
  obtain rfl | positive : value = 0 ∨ 0 < value := by omega
  · have shown : print 0 = ['0'] := by decide
    rw [shown]
    rfl
  · have nonneg : ¬ value < 0 := by omega
    obtain ⟨first, others, shape⟩ := List.exists_cons_of_ne_nil
      (Nat.toDigits_ne_nil (n := value.natAbs) (b := 10))
    have member : first ∈ Nat.toDigits 10 value.natAbs := by simp [shape]
    have digit : first.isDigit = true := isDigit_of_mem member
    have nonzero : first ≠ '0' := by
      have head : (Nat.toDigits 10 value.natAbs).head? ≠ some '0' := head_toDigits (by omega)
      rw [shape] at head
      simpa using head
    have printed : print value = first :: others := by rw [print, if_neg nonneg, shape]
    have decimal : strtolAuto (first :: others ++ ' ' :: rest) = strtol (first :: others ++ ' ' :: rest) := by
      unfold strtolAuto
      have opened : (first :: others ++ ' ' :: rest).dropWhile isBlank = first :: (others ++ ' ' :: rest) := by
        simp [digit_not_blank digit]
      simp only [opened, digit_not_sign digit]
      split
      next same => simp_all
      next => rfl
    rw [printed, decimal, ← printed]
    apply strtol_print _ upper
    · simp
    · unfold longMax at *
      omega

theorem atol_print (lower : -longMax - 1 ≤ value) (upper : value ≤ longMax) :
    atol (print value) = value := by
  have read : strtol (print value ++ []) = (value, []) := strtol_print lower upper (by simp)
  rw [List.append_nil] at read
  rw [atol, read]

theorem toInt_of_small (lower : 0 ≤ value) (upper : value ≤ intMax) : toInt value = value := by
  unfold intMax at upper
  exact Int.bmod_eq_of_le (by omega) (by omega)

theorem strtol_print_int (lower : 0 ≤ value) (upper : value ≤ intMax) : strtol (print value) = (value, []) := by
  have read : strtol (print value ++ []) = (value, []) := by
    unfold intMax at upper
    apply strtol_print
    · unfold longMax
      omega
    · unfold longMax
      omega
    · simp
  rwa [List.append_nil] at read

theorem atoi_print (lower : 0 ≤ value) (upper : value ≤ intMax) : atoi (print value) = value := by
  rw [atoi, strtol_print_int lower upper, toInt_of_small lower upper]

theorem toInt_le (value : Int) : toInt value ≤ intMax := by
  have bound : value.bmod 4294967296 < (4294967296 + 1) / 2 := Int.bmod_lt (by decide)
  unfold toInt intMax
  omega

theorem length_print_le (lower : 0 ≤ value) (upper : value ≤ intMax) : (print value).length ≤ 10 := by
  have nonneg : ¬ value < 0 := by omega
  rw [print, if_neg nonneg, Nat.length_toDigits_le_iff (by decide) (by decide)]
  unfold intMax at upper
  omega

theorem colon_not_mem_print (value : Int) : ':' ∉ print value := by
  intro member
  obtain dash | digit := mem_print member
  · exact absurd dash (by decide)
  · exact absurd digit (by decide)

/-- Two printed numbers with a colon between them come apart there. -/
theorem takeWhile_pair (value : Int) (rest : Text) : (print value ++ ':' :: rest).takeWhile (· != ':') = print value := by
  have absent : ∀ c ∈ print value, (c != ':') = true :=
    fun c member => bne_iff_ne.mpr fun same => colon_not_mem_print value (same ▸ member)
  rw [List.takeWhile_append_of_pos absent]
  simp

theorem dropWhile_pair (value : Int) (rest : Text) :
    ((print value ++ ':' :: rest).dropWhile (· != ':')).drop 1 = rest := by
  have absent : ∀ c ∈ print value, (c != ':') = true :=
    fun c member => bne_iff_ne.mpr fun same => colon_not_mem_print value (same ▸ member)
  rw [List.dropWhile_append_of_pos absent]
  simp

theorem length_readSign_le (text : Text) : (readSign text).2.length ≤ text.length := by
  unfold readSign
  split <;> simp

theorem length_strtol_le (text : Text) : (strtol text).2.length ≤ text.length := by
  have blank := (List.dropWhile_suffix (l := text) isBlank).length_le
  have digits := (List.dropWhile_suffix (l := (readSign (text.dropWhile isBlank)).2) Char.isDigit).length_le
  have signed := length_readSign_le (text.dropWhile isBlank)
  simp only [strtol]
  split
  · exact Nat.le_refl _
  · exact digits.trans (signed.trans blank)

theorem length_strtolAuto_le (text : Text) : (strtolAuto text).2.length ≤ text.length := by
  have blank := (List.dropWhile_suffix (l := text) isBlank).length_le
  have signed := length_readSign_le (text.dropWhile isBlank)
  simp only [strtolAuto]
  split
  · rename_i rest unsigned
    rw [unsigned, List.length_cons] at signed
    refine (List.dropWhile_suffix _).length_le.trans ?_
    split
    · rw [List.length_drop]
      omega
    · rw [unsigned, List.length_cons]
      omega
  · exact length_strtol_le text

end SolidIrcd.Decimal
