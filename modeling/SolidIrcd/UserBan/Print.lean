import SolidIrcd.UserBan.Ban

/-! A ban that is printed as user and host gives the same ban when `make_hostbased_ban`
reads it again. -/

namespace SolidIrcd.UserBan

open Scan (Text)
open Mask (isWild splitFirst)

/-- The host as the journals and `get_userban_host` print it. -/
def Ban.hostText (ban : Ban) : Text :=
  if ban.flags.cidr4 || ban.flags.cidr4big then ban.network else ban.h.getD []

/-- `get_userban_host` with a buffer of `buflen` bytes. -/
def getUserbanHost (ban : Ban) (buflen : Nat) : Text := ban.hostText.take (buflen - 1)

/-- The user, with a star for everyone. -/
def Ban.userText (ban : Ban) : Text := ban.u.getD ['*']

theorem mem_inetntoa (member : c ∈ inetntoa address) : c = '.' ∨ isDigit c = true := by
  have digits (value : Nat) (inside : c ∈ Decimal.print (value : Int)) : isDigit c = true := by
    rw [Decimal.print, if_neg (by omega)] at inside
    exact Decimal.isDigit_of_mem inside
  simp only [inetntoa, List.mem_append, List.mem_cons] at member
  obtain ((first | rfl | second) | rfl | third) | rfl | fourth := member
  · exact .inr (digits _ first)
  · exact .inl rfl
  · exact .inr (digits _ second)
  · exact .inl rfl
  · exact .inr (digits _ third)
  · exact .inl rfl
  · exact .inr (digits _ fourth)

theorem mem_print_nat {value : Nat} (member : c ∈ Decimal.print value) : isDigit c = true := by
  rw [Decimal.print, if_neg (by omega)] at member
  exact Decimal.isDigit_of_mem member

theorem mem_networkText (member : c ∈ inetntoa address ++ '/' :: Decimal.print (cidr : Nat)) :
    c = '.' ∨ c = '/' ∨ isDigit c = true := by
  simp only [List.mem_append, List.mem_cons] at member
  obtain quad | rfl | digit := member
  · exact (mem_inetntoa quad).elim .inl fun digit => .inr (.inr digit)
  · exact .inr (.inl rfl)
  · exact .inr (.inr (mem_print_nat digit))

theorem slash_not_mem_inetntoa (address : Address) : '/' ∉ inetntoa address := by
  intro member
  obtain same | digit := mem_inetntoa member
  · exact absurd same (by decide)
  · exact absurd digit (by decide)

/-- The printed network goes straight to `cidrforce`. -/
theorem classify_networkText (user : Option Text) (address : Address) (cidr : Nat) :
    classify user (inetntoa address ++ '/' :: Decimal.print cidr) =
      cidrForce (inetntoa address ++ '/' :: Decimal.print cidr) := by
  generalize text : inetntoa address ++ '/' :: Decimal.print cidr = host
  have shown (c : Char) (member : c ∈ host) : c = '.' ∨ c = '/' ∨ isDigit c = true := by
    rw [← text] at member
    exact mem_networkText member
  have wild : host.countP isWild = 0 := by
    rw [List.countP_eq_zero]
    intro c member wild
    obtain rfl | rfl | digit := shown c member
    · exact absurd wild (by decide)
    · exact absurd wild (by decide)
    · obtain rfl | rfl : c = '*' ∨ c = '?' := by simpa [isWild] using wild
      · exact absurd digit (by decide)
      · exact absurd digit (by decide)
  have other : host.countP isOther = 0 := by
    rw [List.countP_eq_zero]
    intro c member other
    obtain rfl | rfl | digit := shown c member
    · exact absurd other (by decide)
    · exact absurd other (by decide)
    · simp [isOther, digit] at other
  have digits : host.countP isDigit ≠ 0 := by
    obtain ⟨c, rest, shape⟩ := List.exists_cons_of_ne_nil (Decimal.print_ne_nil (cidr : Int))
    have first : c ∈ Decimal.print (cidr : Int) := by simp [shape]
    have digit : isDigit c = true := mem_print_nat first
    rw [ne_eq, List.countP_eq_zero]
    intro none
    exact none c (by simp [← text, shape]) digit
  have dots : host.count '.' ≠ 0 := by
    rw [ne_eq, List.count_eq_zero]
    intro none
    exact none (by simp [← text, inetntoa])
  have slashes : host.count '/' = 1 := by
    have after : '/' ∉ Decimal.print (cidr : Int) := fun member => absurd (mem_print_nat member) (by decide)
    rw [← text, List.count_append, List.count_cons_self, List.count_eq_zero.mpr (slash_not_mem_inetntoa address),
      List.count_eq_zero.mpr after]
  simp [classify, wild, other, digits, dots, slashes]

theorem cidrForce_networkText (valid : ip ≠ 0xFFFFFFFF#32) (masked : ip &&& cidrToNetmask cidr = ip)
    (small : cidr ≤ 32) :
    cidrForce (inetntoa ip ++ '/' :: Decimal.print cidr) =
      some (.net (if cidr < 16 then { cidr4big := true } else { cidr4 := true }) ip (cidrToNetmask cidr)) := by
  have parts : splitFirst '/' (inetntoa ip ++ '/' :: Decimal.print cidr) =
      some (inetntoa ip, Decimal.print (cidr : Int)) := Mask.splitFirst_join (slash_not_mem_inetntoa ip)
  have bound : (cidr : Int) ≤ Decimal.intMax := by
    unfold Decimal.intMax
    omega
  have read := Decimal.strtol_print_int (Int.natCast_nonneg cidr) bound
  have kept := Decimal.toInt_of_small (Int.natCast_nonneg cidr) bound
  have fits : ¬ ((cidr : Int) < 0 ∨ (cidr : Int) > 32) := by omega
  have big : ((cidr : Int) < 16) ↔ cidr < 16 := by omega
  simp only [cidrForce, parts, inetAddr_inetntoa, valid, read, kept, fits, if_false, ne_eq, not_true_eq_false,
    Int.toNat_natCast, masked, big]

theorem isEveryone_userText (user : Option Text) (form : Form) :
    isEveryone (some (form.ban user).userText) = isEveryone user := by
  have owner : (form.ban user).u = if isEveryone user then none else user := by cases form <;> rfl
  rw [Ban.userText, owner]
  cases everyone : isEveryone user with
  | true => rfl
  | false =>
    cases user with
    | none => simp [isEveryone] at everyone
    | some name => simpa using everyone

theorem classify_congr (same : isEveryone first = isEveryone second) (host : Text) :
    classify first host = classify second host := by
  simp only [classify, same]

theorem ban_userText (user : Option Text) (form : Form) : form.ban (some (form.ban user).userText) = form.ban user := by
  have everyone := isEveryone_userText user form
  have owner : (form.ban user).u = if isEveryone user then none else user := by cases form <;> rfl
  have same : (if isEveryone user then none else some (form.ban user).userText) =
      if isEveryone user then none else user := by
    rw [Ban.userText, owner]
    cases all : isEveryone user with
    | true => rfl
    | false =>
      cases user with
      | none => simp [isEveryone] at all
      | some name => rfl
  cases form with
  | text flags host => simp only [Form.ban] at everyone same ⊢; simp only [everyone, same]
  | net flags c4h c4m => simp only [Form.ban] at everyone same ⊢; simp only [everyone, same]

theorem length_networkText_le {cidr : Nat} (address : Address) (small : cidr ≤ 32) :
    (inetntoa address ++ '/' :: Decimal.print cidr).length ≤ 60 := by
  have bound (value : Nat) (few : value < 256) : (Decimal.print value).length ≤ 10 := by
    apply Decimal.length_print_le (Int.natCast_nonneg value)
    unfold Decimal.intMax
    omega
  have first := bound _ (octet_lt address 0)
  have second := bound _ (octet_lt address 1)
  have third := bound _ (octet_lt address 2)
  have fourth := bound _ (octet_lt address 3)
  have last := bound cidr (by omega)
  simp only [inetntoa, List.length_append, List.length_cons]
  omega

theorem userText_cases (made : makeHostbasedBan (some user) phost = some ban) :
    ban.userText = user ∨ ban.userText = ['*'] := by
  obtain ⟨form, -, rfl⟩ := Option.map_eq_some_iff.mp made
  have owner : (form.ban (some user)).u = if isEveryone (some user) then none else some user := by cases form <;> rfl
  rw [Ban.userText, owner]
  split
  · exact .inr rfl
  · exact .inl rfl

theorem hostText_cases (made : makeHostbasedBan user phost = some ban) :
    ban.hostText = phost.take 512 ∨
      ∃ address : Address, ∃ cidr ≤ 32, ban.hostText = inetntoa address ++ '/' :: Decimal.print (cidr : Nat) := by
  obtain ⟨form, classified, rfl⟩ := Option.map_eq_some_iff.mp made
  obtain ⟨isHost, wild, wildhost, rfl⟩ | ⟨text, forced⟩ := classify_cases classified
  · exact .inl rfl
  · obtain ⟨cidr, ia, small, -, rfl⟩ := cidrForce_net forced
    refine .inr ⟨ia &&& cidrToNetmask cidr, cidr, small, ?_⟩
    by_cases big : cidr < 16 <;>
      simp [Ban.hostText, Ban.network, Form.ban, big, netmaskToCidr_cidrToNetmask small]

theorem mem_hostText (made : makeHostbasedBan user phost = some ban) (member : c ∈ ban.hostText) :
    c ∈ phost ∨ c = '.' ∨ c = '/' ∨ isDigit c = true := by
  obtain text | ⟨address, cidr, -, text⟩ := hostText_cases made
  · rw [text] at member
    exact .inl (List.mem_of_mem_take member)
  · rw [text] at member
    exact .inr (mem_networkText member)

theorem length_hostText_le (made : makeHostbasedBan user phost = some ban) :
    ban.hostText.length ≤ phost.length + 60 := by
  obtain text | ⟨address, cidr, small, text⟩ := hostText_cases made
  · rw [text, List.length_take]
    omega
  · rw [text]
    have short := length_networkText_le address small
    omega

/-- The printed host is read as what it was printed from. -/
theorem classify_hostText {phost : Text} (classified : classify user (phost.take 512) = some form) :
    classify user ((form.ban user).hostText.take 512) = some form := by
  obtain ⟨isHost, wild, wildhost, rfl⟩ | ⟨text, forced⟩ := classify_cases classified
  · have shown : (Form.ban user (.text { host := isHost, ip := !isHost, wild := wild, wildhost := wildhost }
        (phost.take 512))).hostText = phost.take 512 := rfl
    rw [shown, List.take_take, Nat.min_self, classified]
  · obtain ⟨cidr, ia, small, valid, rfl⟩ := cidrForce_net forced
    have masked : ia &&& cidrToNetmask cidr &&& cidrToNetmask cidr = ia &&& cidrToNetmask cidr := by
      rw [BitVec.and_assoc, BitVec.and_self]
    have proper : ia &&& cidrToNetmask cidr ≠ 0xFFFFFFFF#32 := by
      intro full
      have ones : BitVec.allOnes 32 = ia &&& cidrToNetmask cidr := full.symm
      exact valid (BitVec.and_eq_allOnes_iff.mp ones.symm).1
    have shown : (Form.ban user (.net (if cidr < 16 then { cidr4big := true } else { cidr4 := true })
        (ia &&& cidrToNetmask cidr) (cidrToNetmask cidr))).hostText =
        inetntoa (ia &&& cidrToNetmask cidr) ++ '/' :: Decimal.print cidr := by
      by_cases big : cidr < 16 <;>
        simp [Ban.hostText, Ban.network, Form.ban, big, netmaskToCidr_cidrToNetmask small]
    have short := length_networkText_le (ia &&& cidrToNetmask cidr) small
    rw [shown, List.take_of_length_le (by omega), classify_networkText,
      cidrForce_networkText proper masked small]

/-- A printed ban is read back. -/
theorem makeHostbasedBan_again (made : makeHostbasedBan user phost = some ban) :
    makeHostbasedBan (some ban.userText) ban.hostText = some ban := by
  obtain ⟨form, classified, rfl⟩ := Option.map_eq_some_iff.mp made
  rw [makeHostbasedBan, classify_congr (isEveryone_userText user form), classify_hostText classified, Option.map_some,
    ban_userText]

end SolidIrcd.UserBan
