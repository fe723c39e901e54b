import SolidIrcd.Common
import SolidIrcd.Lib.Token

/-! `USERHOST` and `USERIP`: where the two handlers write in the static `buf`
of `s_user.c`. The formatted writes go through the `ircsnprintf` of
`ircsprintf.c`, which takes a size of 0 for no limit. -/

namespace SolidIrcd.UserHost

open Scan (Text tokens)

/-- A user that `find_person` can return, with the field sizes of `struct.h`. -/
structure Person where
  name : Text
  username : Text
  host : Text
  hostip : Text
  isAnOper : Bool
  away : Bool
  isULine : Bool
  name_le : name.length ≤ nickLen
  username_le : username.length ≤ userLen
  host_le : host.length ≤ hostLen
  hostip_le : hostip.length ≤ hostIpLen

/-- The names in the reply header. -/
structure Header where
  me : Text
  parv0 : Text
  me_le : me.length ≤ hostLen
  parv0_le : parv0.length ≤ hostLen

/-- `ircsprintf(buf, text)`, `buf[offset] = ' '`, or
`ircsnprintf(buf + offset, size, text)`. -/
inductive Write where
  | header (text : Text)
  | space (offset : Nat)
  | format (offset size : Nat) (text : Text)
  deriving DecidableEq

/-- The bytes a write touches start at `offset`; `vsnprintf` stops at `size`,
terminator included, and size 0 means `vsprintf`. -/
def Write.stop : Write → Nat
  | .header text => text.length + 1
  | .space offset => offset + 1
  | .format offset size text =>
    offset + if size = 0 then text.length + 1 else min (text.length + 1) size

/-- The number of values of a 64-bit `size_t`. -/
def sizeTValues : Nat := 18446744073709551616

/-- `sizeof(buf) - (len + 1)` in `size_t`. -/
def remaining (len : Nat) : Nat := (sizeTValues + bufSize - (len + 1)) % sizeTValues

/-- `rpl_str(RPL_USERHOST)`. -/
def Header.text (header : Header) : Text :=
  ":".toList ++ header.me ++ " 302 ".toList ++ header.parv0 ++ " :".toList

/-- `"%s%s=%c%s@%s"`. -/
def entry (acptr : Person) (host : Text) : Text :=
  acptr.name ++ (if acptr.isAnOper then "*".toList else []) ++ "=".toList ++
    (if acptr.away then "-".toList else "+".toList) ++ acptr.username ++ "@".toList ++ host

/-- The loop over the tokens of `parv[1]`, at most `i` of them. -/
def replyLoop (findPerson : Text → Option Person) (text : Person → Text) :
    (i : Nat) → List Text → (len res : Nat) → List Write
  | 0, _, _, _ => []
  | _, [], _, _ => []
  | i + 1, s :: rest, len, res =>
    match findPerson s with
    | none => replyLoop findPerson text i rest len res
    | some acptr =>
      if 0 < res then
        .space len :: .format (len + 1) (remaining (len + 1)) (text acptr) ::
          replyLoop findPerson text i rest (len + 1 + (text acptr).length) (res + 1)
      else
        .format len (remaining len) (text acptr) ::
          replyLoop findPerson text i rest (len + (text acptr).length) (res + 1)

def reply (findPerson : Text → Option Person) (header : Header) (text : Person → Text)
    (parv1 : Text) : List Write :=
  .header header.text ::
    replyLoop findPerson text 5 (tokens ' ' parv1) header.text.length 0

/-- `m_userhost`. -/
def mUserhost (findPerson : Text → Option Person) (header : Header) (parv1 : Text) : List Write :=
  reply findPerson header (fun acptr => entry acptr acptr.host) parv1

/-- The address `m_userip` shows. -/
def shownIp (acptr : Person) : Text :=
  if acptr.isULine then "0.0.0.0".toList else acptr.hostip

/-- `m_userip` for an oper. -/
def mUserip (findPerson : Text → Option Person) (header : Header) (parv1 : Text) : List Write :=
  reply findPerson header (fun acptr => entry acptr (shownIp acptr)) parv1

/-- The write stays in `buf`, and a formatted one gets what is really left:
neither the wrapped difference nor the size 0. -/
def Write.Inside (write : Write) : Prop :=
  write.stop ≤ bufSize ∧
    ∀ offset size text, write = .format offset size text →
      offset ≤ bufSize ∧ size + offset + 1 = bufSize ∧ size ≠ 0

/-- The persons a request finds among its first five names. -/
def found (findPerson : Text → Option Person) (parv1 : Text) : List Person :=
  ((tokens ' ' parv1).take 5).filterMap findPerson

/-- Where the last of the formatted writes starts: behind the header, the other
entries and a space after each of those. -/
def lastStart (header : Header) (text : Person → Text) (persons : List Person) : Nat :=
  (header.text ++ persons.dropLast.flatMap fun acptr => text acptr ++ [' ']).length

/-- The loop, once the tokens that name nobody are gone. -/
private def personLoop (text : Person → Text) : List Person → (len res : Nat) → List Write
  | [], _, _ => []
  | acptr :: rest, len, res =>
    if 0 < res then
      .space len :: .format (len + 1) (remaining (len + 1)) (text acptr) ::
        personLoop text rest (len + 1 + (text acptr).length) (res + 1)
    else
      .format len (remaining len) (text acptr) ::
        personLoop text rest (len + (text acptr).length) (res + 1)

private theorem replyLoop_eq (findPerson : Text → Option Person) (text : Person → Text) (i : Nat)
    (names : List Text) (len res : Nat) :
    replyLoop findPerson text i names len res =
      personLoop text ((names.take i).filterMap findPerson) len res := by
  induction i generalizing names len res with
  | zero => simp [replyLoop, personLoop]
  | succ i ih =>
    cases names with
    | nil => simp [replyLoop, personLoop]
    | cons s rest =>
      cases known : findPerson s with
      | none => simp [replyLoop, known, ih]
      | some acptr => simp [replyLoop, personLoop, known, ih]

private theorem format_inside_iff (len : Nat) (text : Text) :
    (Write.format len (remaining len) text).Inside ↔ len ≤ 510 := by
  constructor
  · rintro ⟨-, sized⟩
    obtain ⟨-, exact, positive⟩ := sized _ _ _ rfl
    simp only [bufSize] at exact
    omega
  · intro small
    have left : remaining len = 511 - len := by
      simp only [remaining, bufSize, sizeTValues]
      omega
    refine ⟨?_, ?_⟩
    · have positive : ¬ 511 - len = 0 := by omega
      simp only [Write.stop, left, bufSize, positive, ↓reduceIte]
      omega
    · rintro _ _ _ ⟨⟩
      simp only [left, bufSize]
      omega

private theorem space_inside (small : len ≤ 511) : (Write.space len).Inside :=
  ⟨Nat.succ_le_succ small, by rintro _ _ _ ⟨⟩⟩

private theorem personLoop_inside_iff (text : Person → Text) (acptr : Person) (rest : List Person)
    (len res : Nat) :
    (∀ write ∈ personLoop text (acptr :: rest) len res, write.Inside) ↔
      len + (if 0 < res then 1 else 0) +
        ((acptr :: rest).dropLast.flatMap fun acptr => text acptr ++ [' ']).length ≤ 510 := by
  induction rest generalizing acptr len res with
  | nil =>
    by_cases later : 0 < res
    · simp only [personLoop, later, ↓reduceIte, List.forall_mem_cons, format_inside_iff,
        List.not_mem_nil, false_imp_iff, implies_true, and_true, List.dropLast_singleton,
        List.flatMap_nil, List.length_nil, Nat.add_zero, and_iff_right_iff_imp]
      intro small
      exact space_inside (by omega)
    · simp [personLoop, later, format_inside_iff]
  | cons next rest ih =>
    by_cases later : 0 < res
    · rw [personLoop]
      simp only [later, ↓reduceIte, List.forall_mem_cons, format_inside_iff, ih, Nat.succ_pos,
        List.dropLast_cons_cons, List.flatMap_cons, List.length_append, List.length_singleton]
      constructor
      · rintro ⟨-, -, bound⟩
        omega
      · intro bound
        exact ⟨space_inside (by omega), by omega, by omega⟩
    · rw [personLoop]
      simp only [later, ↓reduceIte, List.forall_mem_cons, format_inside_iff, ih, Nat.succ_pos,
        List.dropLast_cons_cons, List.flatMap_cons, List.length_append, List.length_singleton]
      omega

private theorem header_length_le (header : Header) : header.text.length ≤ 134 := by
  have first := header.me_le
  have second := header.parv0_le
  simp only [hostLen] at first second
  simp [Header.text]
  omega

theorem reply_inside_iff (findPerson : Text → Option Person) (header : Header)
    (text : Person → Text) (parv1 : Text) :
    (∀ write ∈ reply findPerson header text parv1, write.Inside) ↔
      lastStart header text (found findPerson parv1) ≤ 510 := by
  have short := header_length_le header
  have opening : (Write.header header.text).Inside :=
    ⟨by simp only [Write.stop, bufSize]; omega, by rintro _ _ _ ⟨⟩⟩
  rw [reply, List.forall_mem_cons, replyLoop_eq, and_iff_right opening, lastStart, List.length_append]
  change (∀ write ∈ personLoop text (found findPerson parv1) _ _, _) ↔ _
  cases found findPerson parv1 with
  | nil => simpa [personLoop] using short.trans (by decide)
  | cons acptr rest => simpa using personLoop_inside_iff text acptr rest header.text.length 0

private theorem length_entry_userip (acptr : Person) :
    (entry acptr (shownIp acptr)).length + 1 ≤ 91 := by
  have name := acptr.name_le
  have username := acptr.username_le
  have hostip := acptr.hostip_le
  simp only [nickLen, userLen, hostIpLen] at name username hostip
  unfold entry shownIp
  split <;> split <;> split <;> simp <;> omega

private theorem length_entries_le (persons : List Person) :
    (persons.flatMap fun acptr => entry acptr (shownIp acptr) ++ [' ']).length ≤ persons.length * 91 := by
  induction persons with
  | nil => simp
  | cons acptr rest ih =>
    have one := length_entry_userip acptr
    simp only [List.flatMap_cons, List.length_append, List.length_cons, List.length_nil]
    omega

/-- At most five addresses cannot fill the buffer. -/
private theorem lastStart_userip (header : Header) (persons : List Person)
    (few : persons.length ≤ 5) :
    lastStart header (fun acptr => entry acptr (shownIp acptr)) persons ≤ 510 := by
  have short := header_length_le header
  have total := length_entries_le persons.dropLast
  simp only [List.length_dropLast] at total
  simp only [lastStart, List.length_append]
  omega

/-- `USERHOST` stays in its buffer exactly when the last entry starts within the
first 511 bytes; `USERIP`, whose addresses are shorter, always does. -/
theorem userhost_inside_iff (findPerson : Text → Option Person) (header : Header) (parv1 : Text) :
    ((∀ write ∈ mUserhost findPerson header parv1, write.Inside) ↔
      lastStart header (fun acptr => entry acptr acptr.host) (found findPerson parv1) ≤ 510) ∧
    ∀ write ∈ mUserip findPerson header parv1, write.Inside := by
  refine ⟨reply_inside_iff findPerson header _ parv1, ?_⟩
  refine (reply_inside_iff findPerson header _ parv1).mpr (lastStart_userip header _ ?_)
  exact (List.length_filterMap_le _ _).trans (List.length_take_le _ _)

/-- An oper with every field at its limit. -/
def longest : Person where
  name := List.replicate 30 'n'
  username := List.replicate 10 'u'
  host := List.replicate 63 'h'
  hostip := "192.0.2.1".toList
  isAnOper := true
  away := false
  isULine := false
  name_le := by decide
  username_le := by decide
  host_le := by decide
  hostip_le := by decide

/-- Five times the same long name: the space before the fifth entry is byte 532
of 512, and the size passed for that entry has wrapped around. -/
theorem userhost_wraps :
    ∃ write ∈ mUserhost (fun _ => some longest)
        ⟨List.replicate 63 's', List.replicate 30 'p', by decide, by decide⟩ "a b c d e".toList,
      write = .format 533 (sizeTValues - 22) (entry longest longest.host) ∧ ¬ write.Inside := by
  refine ⟨_, ?_, rfl, ?_⟩
  · decide +kernel
  · intro inside
    exact absurd (inside.2 _ _ _ rfl).1 (by decide)

end SolidIrcd.UserHost
