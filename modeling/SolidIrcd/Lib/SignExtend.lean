import Mathlib

/-! Numbers put together from bytes that have a sign. -/

namespace SolidIrcd.SignExtend

/-- A byte with a sign, as a word. -/
def signed (byte : UInt8) : UInt32 := byte.toInt8.toInt32.toUInt32

/-- A number of four bytes, where a byte from 128 on overwrites those in front of it with ones. -/
def spread (number : Nat) : Nat :=
  if 128 ≤ number % 256 then 0xFFFFFF00 + number % 256
  else if 128 ≤ number / 256 % 256 then 0xFFFF0000 + number % 65536
  else if 128 ≤ number / 65536 % 256 then 0xFF000000 + number % 16777216
  else number

theorem signed_toNat (byte : UInt8) :
    (signed byte).toNat = if byte.toNat < 128 then byte.toNat else 0xFFFFFF00 + byte.toNat := by
  have all : ∀ n : Fin 256, (signed
    (UInt8.ofNat n)).toNat = if n.val < 128 then n.val else 0xFFFFFF00 + n.val := by decide +kernel
  simpa using all ⟨byte.toNat, byte.toNat_lt⟩

/-- What is or-ed with ones is lost. -/
theorem or_ones {front byte width : Nat} (low : front < 2 ^ width) (small : byte < 2 ^ 8) :
    front <<< 8 ||| ((2 ^ width - 1) <<< 8 + byte) = (2 ^ width - 1) <<< 8 + byte := by
  rw [Nat.shiftLeft_add_eq_or_of_lt small, ← Nat.or_assoc, ← Nat.shiftLeft_or_distrib]
  congr 2
  apply Nat.eq_of_testBit_eq
  intro i
  simp only [Nat.testBit_or, Nat.testBit_two_pow_sub_one]
  by_cases inside : i < width
  · simp [inside]
  · have above := Nat.lt_of_lt_of_le low (Nat.pow_le_pow_right Nat.two_pos (Nat.le_of_not_lt inside))
    simp [inside, Nat.testBit_lt_two_pow above]

/-- One byte more: one with a sign overwrites those in front of it. -/
theorem signed_step (front : UInt32) (byte : UInt8) : (front <<< 8 ||| signed byte).toNat =
    if byte.toNat < 128 then front.toNat % 2 ^ 24 * 256 + byte.toNat else 0xFFFFFF00 + byte.toNat := by
  have shift : (front <<< 8).toNat = (front.toNat % 2 ^ 24) <<< 8 := by
    rw [UInt32.toNat_shiftLeft]
    simp only [Nat.shiftLeft_eq]
    have eight : UInt32.toNat 8 % 32 = 8 := rfl
    rw [eight]
    omega
  have small := byte.toNat_lt
  rw [UInt32.toNat_or, shift, signed_toNat]
  split
  · rw [← Nat.shiftLeft_add_eq_or_of_lt small, Nat.shiftLeft_eq]
  · exact or_ones (Nat.mod_lt _ (Nat.two_pow_pos 24)) small

theorem signed_short (byte : UInt8) :
    byte.toInt8.toInt16.toUInt16.toNat = if byte.toNat < 128 then byte.toNat else 0xFF00 + byte.toNat := by
  have all : ∀ n : Fin 256, (UInt8.ofNat
    n).toInt8.toInt16.toUInt16.toNat = if n.val < 128 then n.val else 0xFF00 + n.val := by
    decide +kernel
  simpa using all ⟨byte.toNat, byte.toNat_lt⟩

/-- What the ones have overwritten, they overwrite again. -/
theorem spread_spread (number : Nat) : spread (spread number) = spread number := by
  unfold spread
  split_ifs <;> omega

end SolidIrcd.SignExtend
