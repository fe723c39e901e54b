import SolidIrcd.Channel.MaskGlob
import SolidIrcd.UserBan.Print

/-! Which addresses a mask of numbers means, read as a pattern over the dotted text or as a
prefix, and which addresses the ban covers that `make_hostbased_ban` makes of it. They are
the same exactly for masks in plain decimal. -/

namespace SolidIrcd.UserBan

open Scan (Text)
open Mask (Means isWild splitFirst)

/-- Octets with dots between them. -/
def dotted (octets : List Text) : Text := ['.'].intercalate octets

def octetTexts (address : Address) : List Text :=
  [Decimal.print (octet address 0), Decimal.print (octet address 1), Decimal.print (octet address 2),
    Decimal.print (octet address 3)]

/-- `a.b.c.d/n` in plain decimal. -/
def SlashForm (host : Text) (net : Address) (n : Nat) : Prop :=
  ∃ len, host = inetntoa net ++ '/' :: len ∧ len ≠ [] ∧ (∀ c ∈ len, isDigit c = true) ∧
    Nat.ofDigitChars 10 len 0 = n ∧ n ≤ 32

/-- What a mask says of an address: a prefix its first bits, any other mask its text. -/
def MaskReads (host : Text) (address : Address) : Prop :=
  if '/' ∈ host then
    ∃ net n, SlashForm host net n ∧ address.toNat >>> (32 - n) = net.toNat >>> (32 - n)
  else Means host (inetntoa address)

/-- Every number of the mask is written as it is printed. -/
def WellWritten (host : Text) : Prop :=
  if '/' ∈ host then ∃ net n, SlashForm host net n
  else '*' ∈ host → ∀ o ∈ host.splitOn '.', o = ['*'] ∨ ∃ value : Nat, value < 256 ∧ o = Decimal.print value

section Text

theorem dotted_cons {o : Text} {rest : List Text} (more : rest ≠ []) : dotted (o :: rest) = o ++ '.' :: dotted rest := by
  rw [dotted, List.intercalate_cons_of_ne_nil more, dotted, List.append_assoc, List.singleton_append]

theorem dotted_splitOn (host : Text) : dotted (host.splitOn '.') = host := List.intercalate_splitOn '.'

theorem dotted_octetTexts (address : Address) : dotted (octetTexts address) = inetntoa address := by
  simp [octetTexts, dotted, inetntoa]

theorem length_print_octet {value : Nat} (small : value < 256) : (Decimal.print value).length ≤ 3 := by
  have every : ∀ value : Fin 256, (Decimal.print value.val).length ≤ 3 := by decide +kernel
  exact every ⟨value, small⟩

theorem length_octetTexts (address : Address) : (octetTexts address).length = 4 := rfl

theorem mem_octetTexts (member : o ∈ octetTexts address) : ∃ value : Nat, value < 256 ∧ o = Decimal.print value := by
  simp only [octetTexts, List.mem_cons, List.not_mem_nil, or_false] at member
  obtain rfl | rfl | rfl | rfl := member
  · exact ⟨_, octet_lt address 0, rfl⟩
  · exact ⟨_, octet_lt address 1, rfl⟩
  · exact ⟨_, octet_lt address 2, rfl⟩
  · exact ⟨_, octet_lt address 3, rfl⟩

private theorem toUpper_digit (digit : isDigit c = true) : toUpper c = c := by
  simp only [isDigit, Bool.and_eq_true, decide_eq_true_eq] at digit
  have high : c.toNat ≤ '9'.toNat := digit.2
  apply Char.toNat_inj.mp
  rw [toNat_toUpper, if_neg]
  rintro ⟨low, -⟩
  exact absurd (Nat.le_trans low high) (by decide)

private theorem toUpper_dot : toUpper '.' = '.' := by decide

private theorem digit_ne_dot (digit : isDigit c = true) : c ≠ '.' := by
  rintro rfl
  exact absurd digit (by decide)

private theorem plain_of_digit (digit : isDigit c = true) : isWild c = false := by
  cases wild : isWild c with
  | false => rfl
  | true =>
    obtain rfl | rfl := (Mask.isWild_iff c).mp wild
    · exact absurd digit (by decide)
    · exact absurd digit (by decide)

/-- A number in front of a dot is the number of the text: an octet that is read only in
part never is. -/
theorem means_number {o t : Text} (few : t.length < room) (numbers : ∀ c ∈ o.take room, isDigit c = true)
    (digits : ∀ c ∈ t, isDigit c = true) (mask string : Text) :
    Means (o ++ '.' :: mask) (t ++ '.' :: string) ↔ o = t ∧ Means mask string := by
  have dot : Mask.atom '.' = .one '.' := Mask.atom_plain (by decide)
  induction o generalizing t room with
  | nil =>
    cases t with
    | nil => simp [Means, dot, Mask.Fits]
    | cons d t =>
      have digit := digits d (List.mem_cons_self ..)
      simp [Means, dot, Mask.Fits, toUpper_digit digit, toUpper_dot, digit_ne_dot digit]
  | cons c o ih =>
    cases room with
    | zero => simp at few
    | succ room =>
      have number := numbers c (by simp)
      have atom : Mask.atom c = .one c := Mask.atom_plain (plain_of_digit number)
      cases t with
      | nil => simp [Means, atom, Mask.Fits, toUpper_digit number, toUpper_dot, (digit_ne_dot number).symm]
      | cons d t =>
        have digit := digits d (List.mem_cons_self ..)
        have less : t.length < room := by simpa using few
        have rest : Means (o ++ '.' :: mask) (t ++ '.' :: string) ↔ o = t ∧ Means mask string :=
          ih less (fun c member => numbers c (by simp [member])) fun c member => digits c (List.mem_cons_of_mem _ member)
        have here : Means (c :: (o ++ '.' :: mask)) (d :: (t ++ '.' :: string)) ↔
            c = d ∧ Means (o ++ '.' :: mask) (t ++ '.' :: string) := by
          rw [Means, List.map_cons, atom, Glob.reads_one_cons, Mask.Fits, toUpper_digit number, toUpper_digit digit,
            eq_comm]
          rfl
        rw [List.cons_append, List.cons_append, here, rest, List.cons.injEq, and_assoc]

/-- Stars take what is left of an address. -/
theorem means_stars {stars texts : List Text} (all : ∀ o ∈ stars, o = ['*']) (some : stars ≠ [])
    (enough : stars.length ≤ texts.length) : Means (dotted stars) (dotted texts) := by
  induction stars generalizing texts with
  | nil => exact absurd rfl some
  | cons o stars ih =>
    obtain rfl : o = ['*'] := all o (List.mem_cons_self ..)
    cases stars with
    | nil =>
      have last : dotted [['*']] = ['*'] := List.intercalate_singleton
      rw [last]
      exact Glob.reads_run_last
    | cons o stars =>
      cases texts with
      | nil => simp at enough
      | cons t texts =>
        have more : texts ≠ [] := by
          rintro rfl
          simp at enough
        have rest := ih (fun o member => all o (List.mem_cons_of_mem _ member)) (by simp) (Nat.le_of_succ_le_succ enough)
        rw [dotted_cons (by simp), dotted_cons more]
        exact .run t (.one rfl rest)

private theorem take_star {o : Text} : o.take 6 = ['*'] ↔ o = ['*'] := by
  constructor
  · intro star
    have size := congrArg List.length star
    rw [List.length_take, List.length_singleton] at size
    rwa [List.take_of_length_le (by omega)] at star
  · rintro rfl
    rfl

theorem stars_of_convertible {octets : List Text} (shape : convertible true (octets.map (List.take 6)) = true) :
    ∀ o ∈ octets, o = ['*'] := by
  induction octets with
  | nil => simp
  | cons o octets ih =>
    rw [List.map_cons, convertible] at shape
    by_cases star : o = ['*']
    · rw [if_pos (take_star.mpr star)] at shape
      simpa [star] using ih shape
    · rw [if_neg (take_star.not.mpr star)] at shape
      simp at shape

/-- The numbers in front of the stars. -/
def leading (octets : List Text) : List Text := octets.takeWhile (· != ['*'])

theorem leading_star (octets : List Text) : leading (['*'] :: octets) = [] := rfl

theorem leading_number (number : o ≠ ['*']) (octets : List Text) : leading (o :: octets) = o :: leading octets :=
  List.takeWhile_cons_of_pos (by simpa using number)

/-- A mask of numbers and stars means the addresses that begin with its numbers. -/
theorem means_octets {octets texts : List Text} (shape : convertible false (octets.map (List.take 6)) = true)
    (wild : ['*'] ∈ octets) (enough : octets.length ≤ texts.length)
    (plain : ∀ t ∈ texts, ∃ value : Nat, value < 256 ∧ t = Decimal.print value) :
    Means (dotted octets) (dotted texts) ↔ leading octets <+: texts := by
  induction octets generalizing texts with
  | nil => simp at wild
  | cons o octets ih =>
    rw [List.map_cons, convertible] at shape
    by_cases star : o = ['*']
    · rw [if_pos (take_star.mpr star)] at shape
      have rest := stars_of_convertible shape
      have all : ∀ other ∈ o :: octets, other = ['*'] := by simpa [star] using rest
      have none : leading (o :: octets) = [] := by rw [star, leading_star]
      rw [none]
      exact iff_of_true (means_stars all (by simp) enough) List.nil_prefix
    · rw [if_neg (take_star.not.mpr star)] at shape
      simp only [Bool.not_false, Bool.true_and, Bool.and_eq_true, List.all_eq_true] at shape
      have later : ['*'] ∈ octets := by simpa [Ne.symm star] using wild
      have more : octets ≠ [] := List.ne_nil_of_mem later
      cases texts with
      | nil => simp at enough
      | cons t texts =>
        have room : octets.length ≤ texts.length := Nat.le_of_succ_le_succ enough
        have behind : texts ≠ [] := by
          rintro rfl
          exact more (List.length_eq_zero_iff.mp (Nat.le_zero.mp room))
        obtain ⟨value, small, rfl⟩ := plain t (List.mem_cons_self ..)
        have few : (Decimal.print value).length < 6 := by
          have short := length_print_octet small
          omega
        have rest := ih shape.2 later room fun other member => plain other (List.mem_cons_of_mem _ member)
        rw [dotted_cons more, dotted_cons behind, means_number few shape.1 (fun c => mem_print_nat), rest,
          leading_number star, List.cons_prefix_cons]

end Text

section Bits

private theorem getLsbD_cidrToNetmask {cidr i : Nat} (small : cidr ≤ 32) (inside : i < 32) :
    (cidrToNetmask cidr).getLsbD i = decide (32 - cidr ≤ i) := by
  have every : ∀ cidr : Fin 33, ∀ i : Fin 32,
      (cidrToNetmask cidr.val).getLsbD i.val = decide (32 - cidr.val ≤ i.val) := by decide +kernel
  exact every ⟨cidr, Nat.lt_succ_of_le small⟩ ⟨i, inside⟩

/-- Under a netmask two addresses are the same when their first bits are. -/
theorem and_cidrToNetmask {cidr : Nat} (small : cidr ≤ 32) (first second : Address) :
    first &&& cidrToNetmask cidr = second &&& cidrToNetmask cidr ↔
      first.toNat >>> (32 - cidr) = second.toNat >>> (32 - cidr) := by
  constructor
  · intro same
    apply Nat.eq_of_testBit_eq
    intro i
    rw [Nat.testBit_shiftRight, Nat.testBit_shiftRight]
    by_cases inside : 32 - cidr + i < 32
    · have bits := congrArg (BitVec.getLsbD · (32 - cidr + i)) same
      have equal : first.getLsbD (32 - cidr + i) = second.getLsbD (32 - cidr + i) := by
        simpa [getLsbD_cidrToNetmask small inside] using bits
      exact equal
    · have beyond (address : Address) : address.toNat.testBit (32 - cidr + i) = false :=
        BitVec.getLsbD_of_ge address _ (Nat.le_of_not_lt inside)
      rw [beyond, beyond]
  · intro same
    apply BitVec.eq_of_getLsbD_eq
    intro i inside
    rw [BitVec.getLsbD_and, BitVec.getLsbD_and, getLsbD_cidrToNetmask small inside]
    by_cases kept : 32 - cidr ≤ i
    · have bits := congrArg (Nat.testBit · (i - (32 - cidr))) same
      have equal : first.getLsbD i = second.getLsbD i := by
        simp only [Nat.testBit_shiftRight, Nat.add_sub_cancel' kept] at bits
        exact bits
      rw [equal]
    · simp [kept]

end Bits

/-- The address of four octets. -/
def addressOf (a b c d : Nat) : Address := BitVec.ofNat 32 (a * 16777216 + b * 65536 + c * 256 + d)

section Octets

variable {a b c d : Nat} (first : a < 256) (second : b < 256) (third : c < 256) (fourth : d < 256)
include first second third fourth

theorem toNat_addressOf : (addressOf a b c d).toNat = a * 16777216 + b * 65536 + c * 256 + d := by
  rw [addressOf, BitVec.toNat_ofNat]
  omega

theorem inetntoa_addressOf : inetntoa (addressOf a b c d) =
    Decimal.print a ++ '.' :: Decimal.print b ++ '.' :: Decimal.print c ++ '.' :: Decimal.print d := by
  have whole := toNat_addressOf first second third fourth
  have one : octet (addressOf a b c d) 0 = a := by
    simp only [octet, whole, Nat.sub_zero, Nat.reduceMul, Nat.shiftRight_eq_div_pow, Nat.reducePow]
    omega
  have two : octet (addressOf a b c d) 1 = b := by
    simp only [octet, whole, Nat.reduceSub, Nat.reduceMul, Nat.shiftRight_eq_div_pow, Nat.reducePow]
    omega
  have three : octet (addressOf a b c d) 2 = c := by
    simp only [octet, whole, Nat.reduceSub, Nat.reduceMul, Nat.shiftRight_eq_div_pow, Nat.reducePow]
    omega
  have four : octet (addressOf a b c d) 3 = d := by
    simp only [octet, whole, Nat.reduceMul, Nat.shiftRight_eq_div_pow, Nat.reducePow, Nat.sub_self]
    omega
  rw [inetntoa, one, two, three, four]

end Octets

theorem print_octet_inj {value value' : Nat} (small : value < 256) (small' : value' < 256)
    (same : Decimal.print value = Decimal.print value') : value = value' := by
  have read := congrArg Decimal.strtol same
  have bound (value : Nat) (few : value < 256) : (value : Int) ≤ Decimal.intMax := by
    unfold Decimal.intMax
    omega
  rw [Decimal.strtol_print_int (Int.natCast_nonneg _) (bound value small),
    Decimal.strtol_print_int (Int.natCast_nonneg _) (bound value' small')] at read
  exact Int.ofNat_inj.mp (Prod.mk.inj read).1

private theorem print_octet {value : Nat} (small : value < 256) (address : Address) (index : Nat) :
    Decimal.print value = Decimal.print (octet address index) ↔ value = octet address index := by
  constructor
  · exact print_octet_inj small (octet_lt address index)
  · rintro rfl
    rfl

/-- How an address comes out of a mask: as it stands, from a prefix, or from numbers and stars. -/
inductive Converts : Text → Form → Prop where
  | single (slash : '/' ∉ host) (plain : ∀ c ∈ host, isWild c = false) : Converts host (.text { ip := true } host)
  | slash (slash : '/' ∈ host) (forced : cidrForce host = some form) : Converts host form
  | stars (slash : '/' ∉ host) (dots : host.count '.' ≤ 3)
      (shape : convertible false ((host.splitOn '.').map (List.take 6)) = true)
      (made : wildAddress host = some form) : Converts host form

/-- The network that one, two or three numbers are widened to. -/
def Widened : List Text → Form → Prop
  | [a], form => cidrForce (a ++ ".0.0.0/8".toList) = some form
  | [a, b], form => cidrForce (a ++ '.' :: b ++ ".0.0/16".toList) = some form
  | [a, b, c], form => cidrForce (a ++ '.' :: b ++ '.' :: c ++ ".0/24".toList) = some form
  | _, _ => False

theorem forced_of_widened {numbers : List Text} (widened : Widened numbers form) : ∃ text, cidrForce text = some form := by
  rcases numbers with _ | ⟨a, _ | ⟨b, _ | ⟨c, _ | ⟨d, rest⟩⟩⟩⟩
  · exact widened.elim
  · exact ⟨_, widened⟩
  · exact ⟨_, widened⟩
  · exact ⟨_, widened⟩
  · exact widened.elim

/-- Plain numbers are widened to the addresses that begin with them. -/
theorem widened_net {numbers : List Text} (plain : ∀ o ∈ numbers, ∃ value : Nat, value < 256 ∧ o = Decimal.print value)
    (widened : Widened numbers form) :
    ∃ text net n, SlashForm text net n ∧ cidrForce text = some form ∧
      ∀ address, numbers <+: octetTexts address ↔ address.toNat >>> (32 - n) = net.toNat >>> (32 - n) := by
  have zero : Decimal.print (0 : Nat) = ['0'] := by decide
  rcases numbers with _ | ⟨o, _ | ⟨o', _ | ⟨o'', _ | ⟨d, rest⟩⟩⟩⟩
  · exact widened.elim
  · obtain ⟨a, first, rfl⟩ := plain o (by simp)
    refine ⟨_, addressOf a 0 0 0, 8, ⟨['8'], ?_, by simp, by simp [isDigit], by decide, by omega⟩, widened, ?_⟩
    · rw [inetntoa_addressOf first (by omega) (by omega) (by omega), zero]
      simp
    · intro address
      have bound := address.isLt
      rw [octetTexts, List.cons_prefix_cons, print_octet first, toNat_addressOf first (by omega) (by omega) (by omega)]
      simp only [List.nil_prefix, and_true, octet, Nat.sub_zero, Nat.reduceMul, Nat.reduceSub,
        Nat.shiftRight_eq_div_pow, Nat.reducePow]
      omega
  · obtain ⟨a, first, rfl⟩ := plain o (by simp)
    obtain ⟨b, second, rfl⟩ := plain o' (by simp)
    refine ⟨_, addressOf a b 0 0, 16, ⟨"16".toList, ?_, by simp, by simp [isDigit], by decide, by omega⟩, widened, ?_⟩
    · rw [inetntoa_addressOf first second (by omega) (by omega), zero]
      simp
    · intro address
      have bound := address.isLt
      rw [octetTexts, List.cons_prefix_cons, List.cons_prefix_cons, print_octet first, print_octet second,
        toNat_addressOf first second (by omega) (by omega)]
      simp only [List.nil_prefix, and_true, octet, Nat.sub_zero, Nat.reduceMul, Nat.reduceSub,
        Nat.shiftRight_eq_div_pow, Nat.reducePow]
      omega
  · obtain ⟨a, first, rfl⟩ := plain o (by simp)
    obtain ⟨b, second, rfl⟩ := plain o' (by simp)
    obtain ⟨c, third, rfl⟩ := plain o'' (by simp)
    refine ⟨_, addressOf a b c 0, 24, ⟨"24".toList, ?_, by simp, by simp [isDigit], by decide, by omega⟩, widened, ?_⟩
    · rw [inetntoa_addressOf first second third (by omega), zero]
      simp
    · intro address
      have bound := address.isLt
      rw [octetTexts, List.cons_prefix_cons, List.cons_prefix_cons, List.cons_prefix_cons, print_octet first,
        print_octet second, print_octet third, toNat_addressOf first second third (by omega)]
      simp only [List.nil_prefix, and_true, octet, Nat.sub_zero, Nat.reduceMul, Nat.reduceSub,
        Nat.shiftRight_eq_div_pow, Nat.reducePow]
      omega
  · exact widened.elim

section Converted

variable {host : Text} {user : Option Text} {form : Form}

private theorem number_of_convertible {o : Text} {rest : List Text} (number : o ≠ ['*'])
    (shape : convertible false (o :: rest) = true) : convertible false rest = true := by
  rw [convertible, if_neg number] at shape
  simp only [Bool.and_eq_true] at shape
  exact shape.2

private theorem star_of_convertible {tail : Text} {rest : List Text}
    (shape : convertible false (('*' :: tail) :: rest) = true) : tail = [] := by
  rw [convertible] at shape
  split at shape
  next star => exact (List.cons.inj star).2
  next =>
    have digit : isDigit '*' = false := by decide
    simp [digit] at shape

theorem wildAddress_made (made : wildAddress host = some form)
    (shape : convertible false ((host.splitOn '.').map (List.take 6)) = true) :
    ∃ numbers stars, host.splitOn '.' = numbers ++ ['*'] :: stars ∧ (∀ o ∈ numbers, o ≠ ['*']) ∧
      Widened (numbers.map (List.take 6)) form := by
  rw [wildAddress] at made
  simp only [shape, Bool.true_eq_false, if_false] at made
  split at made
  next => cases made
  next a tail rest first octets =>
    rw [octets] at shape
    have number : a ≠ ['*'] := first []
    obtain rfl := star_of_convertible (number_of_convertible number shape)
    obtain ⟨o, others, split, rfl, mapped⟩ := List.map_eq_cons_iff.mp octets
    obtain ⟨star, stars, rfl, starred, -⟩ := List.map_eq_cons_iff.mp mapped
    obtain rfl := take_star.mp starred
    exact ⟨[o], stars, split, by simpa using take_star.not.mp number, made⟩
  next a b tail rest first second octets =>
    rw [octets] at shape
    have number : a ≠ ['*'] := first []
    have number' : b ≠ ['*'] := second []
    obtain rfl := star_of_convertible (number_of_convertible number' (number_of_convertible number shape))
    obtain ⟨o, others, split, rfl, mapped⟩ := List.map_eq_cons_iff.mp octets
    obtain ⟨o', others', rfl, rfl, mapped'⟩ := List.map_eq_cons_iff.mp mapped
    obtain ⟨star, stars, rfl, starred, -⟩ := List.map_eq_cons_iff.mp mapped'
    obtain rfl := take_star.mp starred
    exact ⟨[o, o'], stars, split, by simpa using ⟨take_star.not.mp number, take_star.not.mp number'⟩, made⟩
  next a b c tail rest first second third octets =>
    rw [octets] at shape
    have number : a ≠ ['*'] := first []
    have number' : b ≠ ['*'] := second []
    have number'' : c ≠ ['*'] := third []
    obtain rfl := star_of_convertible
      (number_of_convertible number'' (number_of_convertible number' (number_of_convertible number shape)))
    obtain ⟨o, others, split, rfl, mapped⟩ := List.map_eq_cons_iff.mp octets
    obtain ⟨o', others', rfl, rfl, mapped'⟩ := List.map_eq_cons_iff.mp mapped
    obtain ⟨o'', others'', rfl, rfl, mapped''⟩ := List.map_eq_cons_iff.mp mapped'
    obtain ⟨star, stars, rfl, starred, -⟩ := List.map_eq_cons_iff.mp mapped''
    obtain rfl := take_star.mp starred
    exact ⟨[o, o', o''], stars, split,
      by simpa using ⟨take_star.not.mp number, take_star.not.mp number', take_star.not.mp number''⟩, made⟩
  next => cases made

theorem converts_of_classify (classified : classify user host = some form) (tame : (form.ban user).flags.wild = false)
    (address : (form.ban user).flags.host = false) : Converts host form := by
  unfold classify at classified
  simp only at classified
  split at classified
  next =>
    split at classified
    next => cases classified
    next =>
      obtain rfl := Option.some.inj classified
      simp [Form.ban] at tame
  next =>
    split at classified
    next => cases classified
    next general =>
      split at classified
      next =>
        split at classified
        next => cases classified
        next simple =>
          obtain ⟨noslash, few⟩ := not_or.mp simple
          have slash : '/' ∉ host := by simpa [List.count_eq_zero] using noslash
          by_cases shape : convertible false ((host.splitOn '.').map (List.take 6)) = true
          · exact .stars slash (by omega) shape classified
          · rw [wildAddress] at classified
            simp only [shape, if_true] at classified
            obtain rfl := Option.some.inj classified
            simp [Form.ban] at tame
      next =>
        split at classified
        next plain => exact .slash (by simpa [List.count_eq_zero] using plain.2.2.2) classified
        next =>
          split at classified
          next => cases classified
          next noslash =>
            have slash : '/' ∉ host := by simpa [List.count_eq_zero] using noslash
            split at classified
            next =>
              obtain rfl := Option.some.inj classified
              have none : host.countP isWild = 0 := by simpa [Form.ban] using tame
              have plain : ∀ c ∈ host, isWild c = false := by simpa [List.countP_eq_zero] using none
              simpa [none] using Converts.single slash plain
            next =>
              obtain rfl := Option.some.inj classified
              simp [Form.ban] at address

theorem slashForm_unique (first : SlashForm host net n) (second : SlashForm host net' n') : net' = net ∧ n' = n := by
  obtain ⟨len, rfl, -, -, rfl, -⟩ := first
  obtain ⟨len', same, -, -, rfl, -⟩ := second
  have parts := congrArg (splitFirst '/') same
  rw [Mask.splitFirst_join (slash_not_mem_inetntoa net), Mask.splitFirst_join (slash_not_mem_inetntoa net')] at parts
  obtain ⟨quad, rfl⟩ := Prod.mk.inj (Option.some.inj parts)
  have read := congrArg inetAddr quad
  rw [inetAddr_inetntoa, inetAddr_inetntoa] at read
  exact ⟨read.symm, rfl⟩

/-- A plain prefix is the network that is written there. -/
theorem cidrForce_slashForm (slash : SlashForm host net n) (forced : cidrForce host = some form) :
    ∃ flags : Flags, flags.ip = false ∧ flags.host = false ∧ (flags.cidr4 || flags.cidr4big) = true ∧
      form = .net flags (net &&& cidrToNetmask n) (cidrToNetmask n) := by
  obtain ⟨len, rfl, some, digits, rfl, small⟩ := slash
  generalize value : Nat.ofDigitChars 10 len 0 = n at small forced ⊢
  have bound : (n : Int) ≤ Decimal.intMax := by
    unfold Decimal.intMax
    omega
  have clamped : Decimal.clamp n = n := by
    unfold Decimal.clamp Decimal.longMax
    omega
  have read : Decimal.strtol len = ((n : Int), []) := by rw [Decimal.strtol_digits some digits, value, clamped]
  have kept := Decimal.toInt_of_small (Int.natCast_nonneg n) bound
  simp only [cidrForce, Mask.splitFirst_join (slash_not_mem_inetntoa net), read, inetAddr_inetntoa, kept] at forced
  split at forced
  next => cases forced
  next =>
    rw [if_neg (by simp), if_neg (by omega)] at forced
    obtain rfl := Option.some.inj forced
    refine ⟨_, ?_, ?_, ?_, rfl⟩ <;> split <;> rfl

/-- Who matches a network. -/
theorem userMatchBan_net {flags : Flags} (ip : flags.ip = false) (noname : flags.host = false)
    (is : (flags.cidr4 || flags.cidr4big) = true) (small : n ≤ 32) (cptr : Client)
    (passes : ((Form.net flags (net &&& cidrToNetmask n) (cidrToNetmask n)).ban user).userDiffers cptr = false) :
    userMatchBan cptr ((Form.net flags (net &&& cidrToNetmask n) (cidrToNetmask n)).ban user) = true ↔
      cptr.ip.toNat >>> (32 - n) = net.toNat >>> (32 - n) := by
  rw [userMatchBan, passes, ← and_cidrToNetmask small]
  simp only [Form.ban, ip, noname, is, Ban.coversIp, Bool.false_eq_true, if_false, if_true, beq_iff_eq]

theorem leading_append {numbers : List Text} (all : ∀ o ∈ numbers, o ≠ ['*']) (stars : List Text) :
    leading (numbers ++ ['*'] :: stars) = numbers := by
  induction numbers with
  | nil => rfl
  | cons o numbers ih =>
    rw [List.cons_append, leading_number (all o (List.mem_cons_self ..)),
      ih fun other member => all other (List.mem_cons_of_mem _ member)]

theorem star_or_leading {octets : List Text} (shape : convertible false (octets.map (List.take 6)) = true)
    (member : o ∈ octets) : o = ['*'] ∨ o ∈ leading octets := by
  induction octets with
  | nil => cases member
  | cons first octets ih =>
    by_cases star : first = ['*']
    · subst star
      rw [List.map_cons, convertible, if_pos (take_star.mpr rfl)] at shape
      obtain rfl | later := List.mem_cons.mp member
      · exact .inl rfl
      · exact .inl (stars_of_convertible shape o later)
    · have rest := number_of_convertible (take_star.not.mpr star) shape
      rw [leading_number star]
      obtain rfl | later := List.mem_cons.mp member
      · exact .inr (List.mem_cons_self ..)
      · exact (ih rest later).imp id (List.mem_cons_of_mem _)

theorem length_splitOn (host : Text) : (host.splitOn '.').length = host.count '.' + 1 := by
  induction host with
  | nil => rfl
  | cons c host ih =>
    rw [List.splitOn, List.splitOnP_cons_eq_if_modifyHead]
    rw [List.splitOn] at ih
    by_cases dot : c = '.'
    · simp [dot, ih]
    · simp [dot, ih]

theorem iptmp_whole (cptr : Client) : cptr.iptmp = inetntoa cptr.ip := by
  have first := length_print_octet (octet_lt cptr.ip 0)
  have second := length_print_octet (octet_lt cptr.ip 1)
  have third := length_print_octet (octet_lt cptr.ip 2)
  have fourth := length_print_octet (octet_lt cptr.ip 3)
  apply List.take_of_length_le
  simp only [inetntoa, List.length_append, List.length_cons, hostIpLen]
  omega

/-- Every address that a mask of numbers and stars means begins with its numbers. -/
theorem maskReads_stars (slash : '/' ∉ host) (dots : host.count '.' ≤ 3) (wild : ['*'] ∈ host.splitOn '.')
    (shape : convertible false ((host.splitOn '.').map (List.take 6)) = true) (address : Address) :
    MaskReads host address ↔ leading (host.splitOn '.') <+: octetTexts address := by
  have enough : (host.splitOn '.').length ≤ (octetTexts address).length := by
    rw [length_splitOn, length_octetTexts]
    omega
  have reads := means_octets shape wild enough fun t => mem_octetTexts
  rwa [dotted_splitOn, dotted_octetTexts, ← show MaskReads host address ↔ Means host (inetntoa address) by
    rw [MaskReads, if_neg slash]] at reads

theorem wellWritten_stars (slash : '/' ∉ host) (wild : '*' ∈ host)
    (shape : convertible false ((host.splitOn '.').map (List.take 6)) = true) :
    WellWritten host ↔ ∀ o ∈ leading (host.splitOn '.'), ∃ value : Nat, value < 256 ∧ o = Decimal.print value := by
  rw [WellWritten, if_neg slash]
  constructor
  · intro written o member
    have number : o ≠ ['*'] := by simpa using List.mem_takeWhile_imp member
    exact (written wild o ((List.takeWhile_prefix _).subset member)).resolve_left number
  · intro written _ o member
    exact (star_or_leading shape member).imp id (written o)

private theorem mem_dotted {octets : List Text} (member : o ∈ octets) (inside : c ∈ o) : c ∈ dotted octets := by
  induction octets with
  | nil => cases member
  | cons first octets ih =>
    cases octets with
    | nil =>
      obtain rfl := List.mem_singleton.mp member
      simpa [dotted] using inside
    | cons second octets =>
      rw [dotted_cons (by simp), List.mem_append, List.mem_cons]
      obtain rfl | later := List.mem_cons.mp member
      · exact .inl inside
      · exact .inr (.inr (ih later))

/-- A network covers an address at least. -/
theorem exists_covered (forced : cidrForce text = some form)
    (passes : ∀ ip, (form.ban user).userDiffers ⟨username, realhost, ip⟩ = false) :
    ∃ ip, userMatchBan ⟨username, realhost, ip⟩ (form.ban user) = true := by
  obtain ⟨cidr, ia, small, -, rfl⟩ := cidrForce_net forced
  refine ⟨ia, ?_⟩
  rw [userMatchBan, passes]
  by_cases big : cidr < 16
  · simp [Form.ban, big, Ban.coversIp]
  · simp [Form.ban, big, Ban.coversIp]

/-- A ban made of an address mask covers what the mask means, for all addresses, exactly
when the mask is in plain decimal. -/
theorem userMatchBan_reads (inside : host.length < 512) (made : makeHostbasedBan user host = some ban)
    (tame : ban.flags.wild = false) (noname : ban.flags.host = false)
    (passes : ban.userDiffers ⟨username, realhost, 0⟩ = false) :
    (∀ ip, userMatchBan ⟨username, realhost, ip⟩ ban = true ↔ MaskReads host ip) ↔ WellWritten host := by
  obtain ⟨form, classified, rfl⟩ := Option.map_eq_some_iff.mp made
  rw [List.take_of_length_le (Nat.le_of_lt inside)] at classified
  have passes' (ip : Address) : (form.ban user).userDiffers ⟨username, realhost, ip⟩ = false := passes
  cases converts_of_classify classified tame noname with
  | single slash plain =>
    have written : WellWritten host := by
      rw [WellWritten, if_neg slash]
      intro star
      exact absurd (plain '*' star) (by decide)
    refine iff_of_true ?_ written
    intro ip
    rw [MaskReads, if_neg slash, Mask.means_plain plain, userMatchBan, passes' ip]
    simp [Form.ban, iptmp_whole]
  | slash slash forced =>
    rw [WellWritten, if_pos slash]
    constructor
    · intro same
      obtain ⟨ip, covered⟩ := exists_covered forced passes'
      have reads := (same ip).mp covered
      rw [MaskReads, if_pos slash] at reads
      obtain ⟨net, n, written, -⟩ := reads
      exact ⟨net, n, written⟩
    · rintro ⟨net, n, written⟩ ip
      have small : n ≤ 32 := written.choose_spec.2.2.2.2
      obtain ⟨flags, noip, nohost, is, rfl⟩ := cidrForce_slashForm written forced
      rw [userMatchBan_net noip nohost is small _ (passes' ip), MaskReads, if_pos slash]
      constructor
      · intro covered
        exact ⟨net, n, written, covered⟩
      · rintro ⟨net', n', written', covered⟩
        obtain ⟨rfl, rfl⟩ := slashForm_unique written written'
        exact covered
  | stars slash dots shape made =>
    obtain ⟨numbers, stars, split, all, widened⟩ := wildAddress_made made shape
    have wild : ['*'] ∈ host.splitOn '.' := by simp [split]
    have star : '*' ∈ host := by
      rw [← dotted_splitOn host]
      exact mem_dotted wild (by simp)
    have front : leading (host.splitOn '.') = numbers := by rw [split, leading_append all]
    have reads := maskReads_stars slash dots wild shape
    rw [front] at reads
    rw [wellWritten_stars slash star shape, front]
    constructor
    · intro same o member
      obtain ⟨text, forced⟩ := forced_of_widened widened
      obtain ⟨ip, covered⟩ := exists_covered forced passes'
      exact mem_octetTexts (((reads ip).mp ((same ip).mp covered)).subset member)
    · intro plain ip
      have short : ∀ o ∈ numbers, o.take 6 = id o := by
        intro o member
        obtain ⟨value, few, rfl⟩ := plain o member
        have size := length_print_octet few
        exact List.take_of_length_le (by omega)
      rw [List.map_congr_left short, List.map_id] at widened
      obtain ⟨text, net, n, written, forced, covers⟩ := widened_net plain widened
      have small : n ≤ 32 := written.choose_spec.2.2.2.2
      obtain ⟨flags, noip, nohost, is, rfl⟩ := cidrForce_slashForm written forced
      rw [userMatchBan_net noip nohost is small _ (passes' ip), reads ip, covers ip]

end Converted

def tenSeven : Ban := (Form.net { cidr4 := true } 0x0a070000 0xffff0000).ban (some ['*'])

private theorem made_tenSeven : makeHostbasedBan (some ['*']) "10.7.*".toList = some tenSeven := by decide +kernel

theorem userMatchBan_reads_tenSeven :
    (∀ ip, userMatchBan ⟨"joe".toList, "host.net".toList, ip⟩ tenSeven = true ↔ MaskReads "10.7.*".toList ip) ↔
      WellWritten "10.7.*".toList :=
  userMatchBan_reads (by decide) made_tenSeven rfl rfl rfl

private def eight : Ban := (Form.net { cidr4big := true } 0x08000000 0xff000000).ban (some ['*'])

/-- `010.*` is read as octal, and bans the addresses that begin with 8. -/
theorem octal_mask_differs :
    ¬ ∀ (user : Option Text) (host : Text) (ban : Ban) (cptr : Client), host.length < 512 →
      makeHostbasedBan user host = some ban → ban.flags.wild = false → ban.flags.host = false →
      ban.userDiffers cptr = false → (userMatchBan cptr ban = true ↔ MaskReads host cptr.ip) := by
  intro claim
  have made : makeHostbasedBan (some ['*']) "010.*".toList = some eight := by decide +kernel
  have same := claim (some ['*']) "010.*".toList eight ⟨"joe".toList, "host.net".toList, 0x08010101⟩
    (by decide) made rfl rfl rfl
  have reads : MaskReads "010.*".toList 0x08010101#32 := same.mp (by decide +kernel)
  have text : inetntoa 0x08010101#32 = "8.1.1.1".toList := by decide +kernel
  have zero : Mask.atom '0' = .one '0' := Mask.atom_plain (by decide)
  rw [MaskReads, if_neg (by decide), text, Means] at reads
  simp [zero, Mask.Fits, toUpper] at reads

end SolidIrcd.UserBan
