import SolidIrcd.Lib.Scan

/-! Sizes of `struct.h`, `msg.h` and `channel.h`, the character tables of
`match.c`, and the registration states every handler looks at. -/

namespace SolidIrcd

open Scan (Text)

def hostIpLen : Nat := 46
def ipLen : Nat := 16
def hostLen : Nat := 63
def nickLen : Nat := 30
def userLen : Nat := 10
def channelLen : Nat := 32
def keyLen : Nat := 23
def bufSize : Nat := 512
def maxPara : Nat := 15

/-- What `configure` and hand-set defines decide that some function looks at:
`HAVE_SSL`, `USE_CHANMODE_L` and `ENABLE_CHANNEL_MODE_D`. -/
structure Build where
  haveSsl : Bool
  chanmodeL : Bool
  channelModeD : Bool
  deriving DecidableEq, Repr

/-- `IsDigit` of `char_atribs`. -/
def isDigit (c : Char) : Bool := '0' ≤ c && c ≤ '9'

/-- `IsAlpha` of `char_atribs`: the two letter rows with the brackets after them. -/
def isAlpha (c : Char) : Bool := ('A' ≤ c && c ≤ '^') || ('a' ≤ c && c ≤ '~')

/-- `IsSpace` of `char_atribs`. -/
def isSpace (c : Char) : Bool := ('\x09' ≤ c && c ≤ '\x0d') || c == ' '

/-- `touppertab`. -/
def toUpper (c : Char) : Char := c.toUpper

/-- `mycmp`, which only ever tells equal from different. -/
def mycmp (first second : Text) : Bool := first.map toUpper == second.map toUpper

/-- The values of `status`, in their order; `STAT_SERVER` is the line of truth. -/
inductive Status where
  | log | master | connecting | handshake | me | unknown | server | client
  deriving DecidableEq, Repr

/-- `IsRegistered`. -/
def Status.isRegistered : Status → Bool
  | .server | .client => true
  | _ => false

theorem isDigit_eq (c : Char) : isDigit c = c.isDigit := rfl

theorem toNat_toUpper (c : Char) :
    (toUpper c).toNat = if 97 ≤ c.toNat ∧ c.toNat ≤ 122 then c.toNat - 32 else c.toNat := by
  have low : 'a'.val ≤ c.val ↔ 97 ≤ c.toNat := UInt32.le_iff_toNat_le
  have high : c.val ≤ 'z'.val ↔ c.toNat ≤ 122 := UInt32.le_iff_toNat_le
  unfold toUpper Char.toUpper
  split
  next small =>
    rw [low, high] at small
    rw [if_pos small]
    have offset : ('A'.val - 'a'.val).toNat = 4294967264 := by decide
    have sum : (c.val + ('A'.val - 'a'.val)).toNat = (c.toNat + 4294967264) % 4294967296 := by
      rw [UInt32.toNat_add, offset]
      rfl
    change (c.val + ('A'.val - 'a'.val)).toNat = c.toNat - 32
    omega
  next other =>
    rw [low, high] at other
    rw [if_neg other]

theorem mycmp_iff : mycmp first second = true ↔ first.map toUpper = second.map toUpper := by
  simp [mycmp]

@[simp] theorem mycmp_refl (text : Text) : mycmp text text = true := by simp [mycmp]

theorem mycmp_comm (first second : Text) : mycmp first second = mycmp second first := by
  simp only [mycmp, Bool.beq_comm]

theorem mycmp_congr_left (same : mycmp first second = true) (third : Text) : mycmp first third = mycmp second third := by
  simp only [mycmp, mycmp_iff.mp same]

theorem mycmp_trans (left : mycmp first second = true) (right : mycmp second third = true) :
    mycmp first third = true := by
  rw [mycmp_iff] at *
  exact left.trans right

theorem length_of_mycmp (same : mycmp first second = true) : first.length = second.length := by
  simpa using congrArg List.length (mycmp_iff.mp same)

end SolidIrcd
