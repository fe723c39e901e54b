import SolidIrcd.Common

/-! The hash functions of `hash.c`. Names that `mycmp` does not tell apart have the same
hash. -/

namespace SolidIrcd

open Scan (Text)

/-- `tolowertab`. -/
def toLower (c : Char) : Char := c.toLower

/-- The value of a byte that is kept in a `char`. -/
def charValue (c : Char) : Int :=
  if c.toNat % 256 < 128 then (c.toNat % 256 : Nat) else (c.toNat % 256 : Nat) - 256

/-- One turn of the loop: `hash` is an `unsigned`, `hash2` an `int`. -/
def hashStep (state : Int × Int) (lower : Char) : Int × Int :=
  ((state.1 * 2 + charValue lower) % 4294967296, state.2 / 2 + charValue lower)

def hashLoop (name : Text) : Int × Int := (name.map toLower).foldl hashStep (0, 0)

/-- `hash_nick_name`. -/
def hashNickName (nname : Text) : Nat :=
  ((hashLoop nname).1 % 8192 * 8 + (hashLoop nname).2 % 8).toNat

/-- `hash_channel_name`: the loop leaves after 29 characters. -/
def hashChannelName (name : Text) : Nat :=
  ((hashLoop (name.take 29)).1 % 2048 * 8 + (hashLoop (name.take 29)).2 % 8).toNat

/-- `hash_whowas_name`. -/
def hashWhowasName (name : Text) : Nat := ((hashLoop name).1 % 16 * 8 + (hashLoop name).2 % 8).toNat

theorem toLower_toUpper (c : Char) : toLower (toUpper c) = toLower c := by
  by_cases lower : c.val ≥ 'a'.val ∧ c.val ≤ 'z'.val
  · have low : 97 ≤ c.val.toNat := by simpa [UInt32.le_iff_toNat_le] using lower.1
    have high : c.val.toNat ≤ 122 := by simpa [UInt32.le_iff_toNat_le] using lower.2
    have up : (toUpper c).val.toNat = c.val.toNat - 32 := by
      unfold toUpper Char.toUpper
      rw [dif_pos lower, UInt32.toNat_add]
      have offset : ('A'.val - 'a'.val).toNat = 4294967264 := by decide
      omega
    have a : 'A'.val.toNat = 65 := by decide
    have z : 'Z'.val.toNat = 90 := by decide
    have capital : (toUpper c).val ≥ 'A'.val ∧ (toUpper c).val ≤ 'Z'.val := by
      simp only [ge_iff_le, UInt32.le_iff_toNat_le]
      omega
    have notCapital : ¬ (c.val ≥ 'A'.val ∧ c.val ≤ 'Z'.val) := by
      simp only [ge_iff_le, UInt32.le_iff_toNat_le]
      omega
    unfold toLower Char.toLower
    rw [dif_pos capital, dif_neg notCapital]
    apply Char.ext
    apply UInt32.toNat_inj.mp
    have offset : ('a'.val - 'A'.val).toNat = 32 := by decide
    rw [UInt32.toNat_add, up, offset]
    omega
  · have same : toUpper c = c := by
      unfold toUpper Char.toUpper
      rw [dif_neg lower]
    rw [same]

theorem hashLoop_congr (same : mycmp first second = true) : hashLoop first = hashLoop second := by
  have upper := mycmp_iff.mp same
  have lower : first.map toLower = second.map toLower := by
    have mapped := congrArg (List.map toLower) upper
    simpa [List.map_map, Function.comp_def, toLower_toUpper] using mapped
  rw [hashLoop, hashLoop, lower]

theorem hashNickName_congr (same : mycmp first second = true) : hashNickName first = hashNickName second := by
  rw [hashNickName, hashNickName, hashLoop_congr same]

theorem hashWhowasName_congr (same : mycmp first second = true) : hashWhowasName first = hashWhowasName second := by
  rw [hashWhowasName, hashWhowasName, hashLoop_congr same]

end SolidIrcd
