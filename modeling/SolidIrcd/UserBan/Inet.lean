import SolidIrcd.Common
import SolidIrcd.Lib.Decimal

/-! IPv4 addresses as the ban code reads and prints them: `inet_aton` of `inet_addr.c`,
`inetntoa` of `support.c`, and the netmasks of `userban.c`. An address stands for its
value after `ntohl`; its octets are the bytes in memory, in network order. -/

namespace SolidIrcd.UserBan

open Scan (Text)

abbrev Address := BitVec 32

def octet (address : Address) (index : Nat) : Nat := address.toNat >>> (8 * (3 - index)) % 256

/-- `inetntoa`. -/
def inetntoa (address : Address) : Text :=
  Decimal.print (octet address 0) ++ '.' :: Decimal.print (octet address 1) ++
    '.' :: Decimal.print (octet address 2) ++ '.' :: Decimal.print (octet address 3)

/-- `IsXDigit`. -/
def isXDigit (c : Char) : Bool := ('a' ≤ c && c ≤ 'f') || ('A' ≤ c && c ≤ 'F') || isDigit c

def isLower (c : Char) : Bool := 'a' ≤ c && c ≤ 'z'

/-- The inner loop of `inet_aton`; `val` is an `u_long`. -/
def collect (base val : Nat) : Text → Nat × Text
  | [] => (val, [])
  | c :: cp =>
    if isDigit c then collect base ((val * base + (c.toNat - 48)) % 18446744073709551616) cp
    else if base = 16 ∧ isXDigit c then
      collect base ((val * 16 + (c.toNat + 10 - if isLower c then 97 else 65)) % 18446744073709551616) cp
    else (val, c :: cp)

/-- 0x is hexadecimal, 0 is octal. -/
def number : Text → Nat × Text
  | '0' :: 'x' :: cp => collect 16 0 cp
  | '0' :: 'X' :: cp => collect 16 0 cp
  | '0' :: cp => collect 8 0 cp
  | cp => collect 10 0 cp

/-- The outer loop: `parts` before the last number, the last number, and what follows it.
There is room for three parts. -/
def atonParts (room : Nat) (parts : List Nat) (cp : Text) : Option (List Nat × Nat × Text) :=
  match number cp, room with
  | (_, '.' :: _), 0 => none
  | (val, '.' :: rest), room + 1 => if val > 255 then none else atonParts room (parts ++ [val]) rest
  | (val, rest), _ => some (parts, val, rest)

/-- `inet_aton`. -/
def inetAton (cp : Text) : Option Address :=
  match atonParts 3 [] cp with
  | none => none
  | some (parts, val, rest) =>
    if rest.head?.any fun c => !isSpace c then none
    else
      match parts with
      | [] => some (BitVec.ofNat 32 val)
      | [a] => if val > 0xffffff then none else some (BitVec.ofNat 32 (val ||| a <<< 24))
      | [a, b] => if val > 0xffff then none else some (BitVec.ofNat 32 (val ||| (a <<< 24 ||| b <<< 16)))
      | [a, b, c] =>
        if val > 0xff then none else some (BitVec.ofNat 32 (val ||| (a <<< 24 ||| b <<< 16 ||| c <<< 8)))
      | _ => none

/-- `inet_addr`, with INADDR_NONE where there is no address. -/
def inetAddr (cp : Text) : Address := (inetAton cp).getD 0xFFFFFFFF#32

/-- `cidr_to_netmask`. -/
def cidrToNetmask (cidr : Nat) : Address := if cidr = 0 then 0 else 0xFFFFFFFF#32 - 1#32 <<< (32 - cidr) + 1

/-- `netmask_to_cidr`: how many of the 32 bits stand from the lowest one that is set. -/
def netmaskToCidr (mask : Address) : Nat := 32 - ((List.range 32).takeWhile fun tmp => !mask.getLsbD tmp).length

theorem netmaskToCidr_cidrToNetmask (small : cidr ≤ 32) : netmaskToCidr (cidrToNetmask cidr) = cidr := by
  have every : ∀ cidr : Fin 33, netmaskToCidr (cidrToNetmask cidr) = cidr := by decide
  exact every ⟨cidr, Nat.lt_succ_of_le small⟩

/-- A mask of sixteen bits and more covers the first two octets. -/
theorem cidrToNetmask_wide (wide : 16 ≤ cidr) (small : cidr ≤ 32) : (cidrToNetmask cidr).toNat / 65536 = 65535 := by
  have every : ∀ cidr : Fin 33, 16 ≤ cidr.val → (cidrToNetmask cidr).toNat / 65536 = 65535 := by decide
  exact every ⟨cidr, Nat.lt_succ_of_le small⟩ wide

theorem octet_lt (address : Address) (index : Nat) : octet address index < 256 := Nat.mod_lt _ (by decide)

/-- An address keeps its first two octets under such a mask. -/
theorem high_and (wide : 16 ≤ cidr) (small : cidr ≤ 32) (address : Address) :
    (address &&& cidrToNetmask cidr).toNat / 65536 = address.toNat / 65536 := by
  have power : 65536 = 2 ^ 16 := by decide
  have mask : (cidrToNetmask cidr).toNat >>> 16 = 2 ^ 16 - 1 := by
    rw [Nat.shiftRight_eq_div_pow]
    exact cidrToNetmask_wide wide small
  have high : address.toNat >>> 16 < 2 ^ 16 := by
    rw [Nat.shiftRight_eq_div_pow]
    have bound := address.isLt
    omega
  rw [BitVec.toNat_and, power, ← Nat.shiftRight_eq_div_pow, ← Nat.shiftRight_eq_div_pow,
    Nat.shiftRight_and_distrib, mask, Nat.and_two_pow_sub_one_eq_mod, Nat.mod_eq_of_lt high]

theorem octet_of_high (same : first.toNat / 65536 = second.toNat / 65536) (early : index < 2) :
    octet first index = octet second index := by
  obtain rfl | rfl : index = 0 ∨ index = 1 := by omega
  · simp only [octet, Nat.sub_zero, Nat.reduceMul, Nat.shiftRight_eq_div_pow, Nat.reducePow]
    omega
  · simp only [octet, Nat.reduceSub, Nat.reduceMul, Nat.shiftRight_eq_div_pow, Nat.reducePow]
    omega

private theorem collect_append (stops : ∀ c, rest.head? = some c → isXDigit c = false)
    (digits : ∀ c ∈ text, isDigit c = true) (base val : Nat) :
    collect base val (text ++ rest) = ((collect base val text).1, (collect base val text).2 ++ rest) := by
  induction text generalizing val with
  | nil =>
    cases rest with
    | nil => rfl
    | cons c rest =>
      have other := stops c rfl
      have plain : isDigit c = false := by
        simp only [isXDigit, Bool.or_eq_false_iff] at other
        exact other.2
      simp [collect, other, plain]
  | cons c text ih =>
    have digit := digits c (List.mem_cons_self ..)
    simp only [List.cons_append, collect, digit, if_true]
    exact ih (fun c member => digits c (List.mem_cons_of_mem _ member)) _

private theorem number_decimal (nonzero : c ≠ '0') (text : Text) :
    number (c :: text) = collect 10 0 (c :: text) := by
  unfold number
  split <;> simp_all

private theorem number_zero (ends : ∀ c, text.head? = some c → c ≠ 'x' ∧ c ≠ 'X') :
    number ('0' :: text) = collect 8 0 text := by
  cases text with
  | nil => rfl
  | cons c text =>
    obtain ⟨small, capital⟩ := ends c rfl
    unfold number
    split <;> simp_all

/-- An octet is read back, with a dot or the end behind it. -/
theorem number_print {value : Nat} (small : value < 256) (stops : ∀ c, rest.head? = some c → c = '.') :
    number (Decimal.print value ++ rest) = (value, rest) := by
  have every : ∀ value : Fin 256, number (Decimal.print value.val) = (value.val, []) ∧
      ((Decimal.print value.val).head? = some '0' → Decimal.print value.val = ['0']) := by decide +kernel
  have alone := every ⟨value, small⟩
  simp only at alone
  have digits : ∀ c ∈ Decimal.print (value : Int), isDigit c = true := by
    intro c member
    rw [Decimal.print, if_neg (by omega)] at member
    exact Decimal.isDigit_of_mem member
  have hex : ∀ c, rest.head? = some c → isXDigit c = false := by
    intro c head
    rw [stops c head]
    rfl
  obtain ⟨c, text, shape⟩ := List.exists_cons_of_ne_nil (Decimal.print_ne_nil (value : Int))
  rw [shape] at alone digits ⊢
  by_cases zero : c = '0'
  · subst zero
    obtain ⟨-, rfl⟩ : '0' = '0' ∧ text = [] := by simpa using alone.2 rfl
    have back : value = 0 := by simpa [number, collect] using (congrArg Prod.fst alone.1).symm
    have plain : ∀ c, rest.head? = some c → c ≠ 'x' ∧ c ≠ 'X' := by
      intro c head
      rw [stops c head]
      decide
    rw [List.singleton_append, number_zero plain, back]
    have joined : collect 8 0 ([] ++ rest) = _ := collect_append hex (by simp) 8 0
    simpa [collect] using joined
  · have first := digits c (List.mem_cons_self ..)
    rw [List.cons_append, number_decimal zero, ← List.cons_append, collect_append hex digits,
      ← number_decimal zero, alone.1, List.nil_append]

theorem atonParts_dot {value : Nat} (small : value < 256) (room : Nat) (parts : List Nat) (rest : Text) :
    atonParts (room + 1) parts (Decimal.print value ++ '.' :: rest) = atonParts room (parts ++ [value]) rest := by
  have read : number (Decimal.print value ++ '.' :: rest) = (value, '.' :: rest) :=
    number_print small (by simp)
  rw [atonParts.eq_def, read]
  simp only [if_neg (Nat.not_lt.mpr (Nat.le_of_lt_succ small))]

theorem atonParts_last {value : Nat} (small : value < 256) (parts : List Nat) :
    atonParts 0 parts (Decimal.print value) = some (parts, value, []) := by
  have read : number (Decimal.print value ++ []) = (value, []) := number_print small (by simp)
  rw [List.append_nil] at read
  rw [atonParts.eq_def, read]

theorem octets_join (address : Address) :
    octet address 3 ||| (octet address 0 <<< 24 ||| octet address 1 <<< 16 ||| octet address 2 <<< 8) =
      address.toNat := by
  have bound := address.isLt
  have parts (high low : Nat) (index : Nat) (less : low < 2 ^ index) :
      high <<< index ||| low = high * 2 ^ index + low := by
    rw [Nat.shiftLeft_eq, Nat.mul_comm, Nat.two_pow_add_eq_or_of_lt less]
  have third := octet_lt address 3
  have second := octet_lt address 2
  have first := octet_lt address 1
  rw [Nat.or_comm, Nat.or_assoc, Nat.or_assoc, parts (octet address 2) _ 8 third,
    parts (octet address 1) _ 16 (by omega), parts (octet address 0) _ 24 (by omega)]
  simp only [octet, Nat.reduceSub, Nat.reduceMul, Nat.shiftRight_eq_div_pow, Nat.reducePow, Nat.sub_zero, Nat.sub_self]
  omega

/-- What `inetntoa` prints, `inet_addr` reads. -/
theorem inetAton_inetntoa (address : Address) : inetAton (inetntoa address) = some address := by
  have text : inetntoa address = Decimal.print (octet address 0) ++ '.' :: (Decimal.print (octet address 1) ++
      '.' :: (Decimal.print (octet address 2) ++ '.' :: Decimal.print (octet address 3))) := by
    simp [inetntoa]
  have small := octet_lt address 3
  rw [inetAton, text, atonParts_dot (octet_lt address 0), atonParts_dot (octet_lt address 1),
    atonParts_dot (octet_lt address 2), atonParts_last small]
  simp only [List.nil_append, List.cons_append, List.head?_nil, Option.any_none, Bool.false_eq_true, if_false,
    if_neg (Nat.not_lt.mpr (Nat.le_of_lt_succ small)), octets_join, BitVec.ofNat_toNat, BitVec.setWidth_eq]

theorem inetAddr_inetntoa (address : Address) : inetAddr (inetntoa address) = address := by
  rw [inetAddr, inetAton_inetntoa, Option.getD_some]

end SolidIrcd.UserBan
