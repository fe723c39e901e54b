import SolidIrcd.Parse.Params
import SolidIrcd.Transport.SendMessage

/-! The Diffie-Hellman exchange of a server link: `m_dkey`, on the sessions of `dh.c`. -/

namespace SolidIrcd.Transport

open Scan (Text)

def encode (text : Text) : Bytes := text.map fun c => UInt8.ofNat c.toNat

def decode (line : Bytes) : Text := line.map fun g => Char.ofNat g.toNat

/-- What `dh.c` takes from OpenSSL: `pub_key` as `BN_bn2hex` writes it, and `DH_compute_key` of a number in hex. -/
structure Dh (S : Type) where
  pubKey : S → Text
  computeKey : S → Text → Option Bytes

def isHex (c : Char) : Bool := isDigit c || ('a' ≤ c && c ≤ 'f') || ('A' ≤ c && c ≤ 'F')

/-- Keys are written in hex digits, and fewer than `keybuf` holds; both ends compute the same secret. -/
structure Dh.Lawful {S : Type} (dh : Dh S) : Prop where
  hex : ∀ session, dh.pubKey session ≠ [] ∧ ∀ c ∈ dh.pubKey session, isHex c = true
  short : ∀ session, (dh.pubKey session).length ≤ 256
  agrees : ∀ mine theirs, ∃ secret, secret.length ≤ 1024 ∧ dh.computeKey mine (dh.pubKey theirs) = some secret ∧
    dh.computeKey theirs (dh.pubKey mine) = some secret

/-- `struct session_info`. -/
structure Session (S : Type) where
  dh : S
  sessionShared : Option Bytes

/-- The pairs that `strtol` reads to their end. -/
def hexPairs : Text → Bool
  | first :: second :: rest =>
    (isHex first || isSpace first || first == '+' || first == '-') && isHex second && hexPairs rest
  | _ => true

/-- `verify_is_hex`. -/
def verifyIsHex (string : Text) : Bool := hexPairs (if string.length % 2 = 1 then '0' :: string else string)

variable {S D I : Type} (zlib : Zlib D I) (dh : Dh S)

/-- `dh_generate_shared`. -/
def dhGenerateShared (session : Session S) (publicKey : Text) : Option (Session S) :=
  if !verifyIsHex publicKey || session.sessionShared.isSome then none
  else (dh.computeKey session.dh publicKey).map fun key => { session with sessionShared := some key }

/-- `dh_get_s_shared` with a `keybuf` of 1024. -/
def dhGetSShared (session : Session S) : Option Bytes :=
  session.sessionShared.bind fun key => if 1024 < key.length then none else some key

/-- What an end keeps of the exchange in its flags and in `serv`; `rc4In` is the state that was set up. -/
structure Dkey (S : Type) where
  nego : Bool
  sessioninfoIn : Option (Session S)
  sessioninfoOut : Option (Session S)
  gotin : Bool
  gotout : Bool
  rc4In : Option Rc4
  isRc4in : Bool
  estab : Bool

/-- An end of a link, with the lines it has parsed. -/
structure Serv (S D : Type) where
  dkey : Dkey S
  output : Output D
  heard : List Bytes

def Dkey.idle : Dkey S := ⟨false, none, none, false, false, none, false, false⟩

def Serv.sendtoOne (serv : Serv S D) (msg : Text) : Serv S D :=
  { serv with
    output :=
      ⟨sendMessage zlib serv.output.sender (encode msg) false,
        serv.output.sent ++ [serv.output.sender.lineOf (encode msg) false]⟩ }

/-- What `m_dkey` does behind both keys: `DKEY_DONE`. -/
def Serv.gotBoth (serv : Serv S D) : Serv S D × Verdict I :=
  if serv.dkey.gotin && serv.dkey.gotout then
    let serv := serv.sendtoOne zlib "DKEY DONE".toList
    match serv.dkey.sessioninfoIn.bind dhGetSShared, serv.dkey.sessioninfoOut.bind dhGetSShared with
    | some keyIn, some keyOut =>
      ({ serv with
          dkey := { serv.dkey with rc4In := some (rc4Initstate keyIn), sessioninfoIn := none, sessioninfoOut := none }
          output :=
            { serv.output with sender := { serv.output.sender with rc4Out := some (rc4Initstate keyOut) } } }, .other)
    | _, _ => (serv, .flushBuffer)
  else (serv, .other)

/-- `m_dkey` from the link itself; `sessions` are those that `dh_start_session` gives it. -/
def mDkey (sessions : S × S) (serv : Serv S D) (parv : List Text) : Serv S D × Verdict I :=
  match parv with
  | [] => (serv, .flushBuffer)
  | option :: parv =>
    if !serv.dkey.nego then (serv, .flushBuffer)
    else if mycmp option "START".toList then
      if parv ≠ [] || (serv.dkey.sessioninfoIn.isSome && serv.dkey.sessioninfoOut.isSome) then (serv, .flushBuffer)
      else
        let serv := { serv with
          dkey := { serv.dkey with sessioninfoIn := some ⟨sessions.1, none⟩, sessioninfoOut := some ⟨sessions.2, none⟩ } }
        let serv := serv.sendtoOne zlib ("DKEY PUB I ".toList ++ dh.pubKey sessions.1)
        (serv.sendtoOne zlib ("DKEY PUB O ".toList ++ dh.pubKey sessions.2), .other)
    else if mycmp option "PUB".toList then
      match parv, serv.dkey.sessioninfoIn, serv.dkey.sessioninfoOut with
      | [direction, publicKey], some sessionIn, some sessionOut =>
        if mycmp direction "O".toList then
          match dhGenerateShared dh sessionIn publicKey with
          | none => (serv, .flushBuffer)
          | some session =>
            Serv.gotBoth zlib { serv with dkey := { serv.dkey with sessioninfoIn := some session, gotout := true } }
        else if mycmp direction "I".toList then
          match dhGenerateShared dh sessionOut publicKey with
          | none => (serv, .flushBuffer)
          | some session =>
            Serv.gotBoth zlib { serv with dkey := { serv.dkey with sessioninfoOut := some session, gotin := true } }
        else (serv, .flushBuffer)
      | _, _, _ => (serv, .flushBuffer)
    else if mycmp option "DONE".toList then
      match serv.dkey.rc4In with
      | none => (serv, .flushBuffer)
      | some cipher =>
        if serv.dkey.sessioninfoIn.isSome || serv.dkey.sessioninfoOut.isSome || serv.output.sender.rc4Out.isNone then
          (serv, .flushBuffer)
        else
          (Serv.sendtoOne zlib { serv with dkey := { serv.dkey with isRc4in := true } } "DKEY EXIT".toList,
            .rc4NextBuffer cipher)
    else if mycmp option "EXIT".toList then
      if serv.dkey.isRc4in && serv.output.sender.rc4Out.isSome then
        ({ serv with dkey := { serv.dkey with nego := false, estab := true } }, .other)
      else (serv, .flushBuffer)
    else (serv, .other)

/-- The command of a line and its parameters; a link that is no server yet has its prefix skipped. -/
def commandWords (line : Text) : Text × List Text :=
  let ch := line.dropWhile (· == ' ')
  let ch := if ch.head? = some ':' then (ch.dropWhile (· != ' ')).dropWhile (· == ' ') else ch
  (ch.takeWhile (· != ' '), Parse.params (maxPara - 1) (ch.dropWhile (· != ' ')))

def isDkey (line : Bytes) : Bool := mycmp (commandWords (decode line)).1 "DKEY".toList

/-- `SVINFO` with the only parameter `ZIP`. -/
def isZip (line : Bytes) : Bool :=
  mycmp (commandWords (decode line)).1 "SVINFO".toList &&
    match (commandWords (decode line)).2 with
    | [option] => mycmp option "ZIP".toList
    | _ => false

/-- `parse` as far as the stages of the link go: `m_dkey`, and the `ZIP` of `m_svinfo` from a server. -/
def parseLink (sessions : S × S) (serv : Serv S D) (line : Bytes) : Serv S D × Verdict I :=
  let serv := { serv with heard := serv.heard ++ [line] }
  if isDkey line then mDkey zlib dh sessions serv (commandWords (decode line)).2
  else if serv.dkey.estab && isZip line then (serv, .zipNextBuffer zlib.inflateInit)
  else (serv, .other)

section

variable {zlib dh}

theorem decode_encode (plain : ∀ c ∈ text, c.toNat < 128) : decode (encode text) = text := by
  rw [decode, encode, List.map_map]
  conv_rhs => rw [← List.map_id text]
  refine List.map_congr_left fun c inside => ?_
  have small := plain c inside
  simp only [Function.comp_apply, UInt8.toNat_ofNat', id]
  rw [Nat.mod_eq_of_lt (by omega), Char.ofNat_toNat]

/-- A parameter as `m_dkey` sends it. -/
structure Param (text : Text) : Prop where
  word : Parse.Word text
  plain : ∀ c ∈ text, c.toNat < 128 ∧ c ≠ '\n' ∧ c ≠ '\r'

theorem Param.of_all (nonempty : text ≠ [])
    (checked : (text.all fun c => c.toNat < 128 && c != '\n' && c != '\r' && c != ' ' && c != ':') = true) : Param text := by
  have each (c : Char) (inside : c ∈ text) : c.toNat < 128 ∧ c ≠ '\n' ∧ c ≠ '\r' ∧ c ≠ ' ' ∧ c ≠ ':' := by
    simpa [and_assoc] using List.all_eq_true.mp checked c inside
  refine ⟨⟨nonempty, fun space => (each _ space).2.2.2.1 rfl, fun colon => ?_⟩,
    fun c inside => ⟨(each c inside).1, (each c inside).2.1, (each c inside).2.2.1⟩⟩
  exact (each _ (List.mem_of_mem_head? colon)).2.2.2.2 rfl

theorem isHex_range (hex : isHex c = true) : 48 ≤ c.toNat ∧ c.toNat ≤ 57 ∨ 65 ≤ c.toNat ∧ c.toNat ≤ 70 ∨
    97 ≤ c.toNat ∧ c.toNat ≤ 102 := by
  simp only [isHex, isDigit, Bool.or_eq_true, Bool.and_eq_true, decide_eq_true_eq, Char.le_def, UInt32.le_iff_toNat_le] at hex
  have value (mark : Char) : mark.val.toNat = mark.toNat := rfl
  simp only [value] at hex
  have digits : '0'.toNat = 48 ∧ '9'.toNat = 57 ∧ 'a'.toNat = 97 ∧ 'f'.toNat = 102 ∧ 'A'.toNat = 65 ∧ 'F'.toNat = 70 := by
    decide
  omega

theorem Dh.Lawful.param (lawful : dh.Lawful) (session : S) : Param (dh.pubKey session) := by
  obtain ⟨nonempty, hex⟩ := lawful.hex session
  refine .of_all nonempty (List.all_eq_true.mpr fun c inside => ?_)
  have range := isHex_range (hex c inside)
  have other (mark : Char) (outside : mark.toNat < 48 ∨ mark.toNat = 58) : c ≠ mark := by
    rintro rfl
    omega
  have newline := other '\n' (by decide)
  have carriage := other '\r' (by decide)
  have space := other ' ' (by decide)
  have colon := other ':' (by decide)
  simp only [Bool.and_eq_true, decide_eq_true_eq, bne_iff_ne]
  exact ⟨⟨⟨⟨by omega, newline⟩, carriage⟩, space⟩, colon⟩

theorem hexPairs_of_hex (hex : ∀ c ∈ string, isHex c = true) : hexPairs string = true := by
  induction string using hexPairs.induct with
  | case1 first second rest ih =>
    simp only [List.mem_cons, forall_eq_or_imp] at hex
    rw [hexPairs, hex.1, hex.2.1, ih hex.2.2]
    rfl
  | case2 string short =>
    unfold hexPairs
    split
    · exact absurd rfl (short _ _ _)
    · rfl

/-- The peer's public key makes the secret, once. -/
theorem Dh.Lawful.generates (lawful : dh.Lawful) (mine theirs : S) :
    ∃ secret, secret.length ≤ 1024 ∧ dh.computeKey mine (dh.pubKey theirs) = some secret ∧
      dh.computeKey theirs (dh.pubKey mine) = some secret ∧
      dhGenerateShared dh ⟨mine, none⟩ (dh.pubKey theirs) = some ⟨mine, some secret⟩ := by
  obtain ⟨secret, short, first, second⟩ := lawful.agrees mine theirs
  refine ⟨secret, short, first, second, ?_⟩
  have hex : verifyIsHex (dh.pubKey theirs) = true := by
    rw [verifyIsHex]
    refine hexPairs_of_hex fun c inside => ?_
    split at inside
    · rcases List.mem_cons.mp inside with rfl | later
      · decide
      · exact (lawful.hex theirs).2 c later
    · exact (lawful.hex theirs).2 c inside
  simp [dhGenerateShared, hex, first]

def dkeyLine (parv : List Text) : Bytes := encode ("DKEY".toList ++ Parse.spaced parv)

theorem commandWords_words (noColon : (line.dropWhile (· == ' ')).head? ≠ some ':') :
    commandWords line = ((Parse.words (':' :: ' ' :: line)).command, (Parse.words (':' :: ' ' :: line)).parv) := by
  simp [commandWords, Parse.words, noColon]

theorem dkeyLine_plain (params : ∀ text ∈ parv, Param text) :
    ∀ c ∈ "DKEY".toList ++ Parse.spaced parv, c.toNat < 128 ∧ c ≠ '\n' ∧ c ≠ '\r' := by
  intro c inside
  rcases List.mem_append.mp inside with command | spaced
  · exact List.all_eq_true.mp (show ("DKEY".toList.all fun c => decide (c.toNat < 128 ∧ c ≠ '\n' ∧ c ≠ '\r')) = true by
      decide) c command |> of_decide_eq_true
  · obtain ⟨text, member, part⟩ := List.mem_flatMap.mp spaced
    rcases List.mem_cons.mp part with rfl | later
    · decide
    · exact (params text member).plain c later

theorem commandWords_dkeyLine (params : ∀ text ∈ parv, Param text) (few : parv.length < maxPara - 1) :
    commandWords (decode (dkeyLine parv)) = ("DKEY".toList, parv) := by
  have words : Parse.words (':' :: [] ++ ' ' :: "DKEY".toList ++ Parse.spaced parv) = ⟨[], "DKEY".toList, parv⟩ :=
    Parse.words_spaced List.not_mem_nil (by decide) (by decide) (fun text member => (params text member).word) few
  rw [dkeyLine, decode_encode fun c inside => (dkeyLine_plain params c inside).1, commandWords_words (by simp)]
  simp only [List.nil_append, List.cons_append] at words ⊢
  rw [words]

theorem isDkey_dkeyLine (params : ∀ text ∈ parv, Param text) (few : parv.length < maxPara - 1) :
    isDkey (dkeyLine parv) = true := by
  rw [isDkey, commandWords_dkeyLine params few]
  exact mycmp_refl _

theorem dkeyLine_eol (params : ∀ text ∈ parv, Param text) : ∀ g ∈ dkeyLine parv, isEol g = false := by
  intro g inside
  obtain ⟨c, member, rfl⟩ := List.mem_map.mp inside
  obtain ⟨small, newline, carriage⟩ := dkeyLine_plain params c member
  have other (mark : Char) (differs : c ≠ mark) (low : mark.toNat < 128) :
      UInt8.ofNat c.toNat ≠ UInt8.ofNat mark.toNat := by
    intro same
    have value := congrArg UInt8.toNat same
    simp only [UInt8.toNat_ofNat'] at value
    rw [Nat.mod_eq_of_lt (by omega), Nat.mod_eq_of_lt (by omega)] at value
    exact differs (by rw [← Char.ofNat_toNat c, value, Char.ofNat_toNat])
  have first := other '\n' newline (by decide)
  have second := other '\r' carriage (by decide)
  simpa [isEol] using ⟨first, second⟩

/-- Every line of the exchange but `DKEY DONE` leaves the stage as it is. -/
theorem dkeyLine_Plain (params : ∀ text ∈ parv, Param text) (few : parv.length < maxPara - 1)
    (other : parv ≠ ["DONE".toList]) : Plain (dkeyLine parv) := by
  have named := isDkey_dkeyLine params few
  refine ⟨fun none => ?_, dkeyLine_eol params, fun same => ?_, fun same => ?_⟩
  · rw [none] at named
    exact absurd named (by decide +kernel)
  · have words := commandWords_dkeyLine params few
    rw [same] at words
    have done : commandWords (decode dkeyDone) = ("DKEY".toList, ["DONE".toList]) := by decide +kernel
    rw [done] at words
    exact other (Prod.mk.inj words).2.symm
  · rw [same] at named
    exact absurd named (by decide +kernel)

end

end SolidIrcd.Transport
