import SolidIrcd.User.Umode
import SolidIrcd.Lib.CString

/-! Host masking of local users: `Maskchecksum`, `make_hostmask` and
`set_hostmask` with the fixed arrays they write to. -/

namespace SolidIrcd.HostMask

open Scan
open Umode (UModes)

/-- A dotted quad, which is all `inetntoa` writes. -/
structure Address where
  a : Fin 256
  b : Fin 256
  c : Fin 256
  d : Fin 256

/-- `0.0.0.0`. -/
def Address.any : Address := ⟨0, 0, 0, 0⟩

def Address.front (address : Address) : Text :=
  Nat.toDigits 10 address.a ++ '.' :: Nat.toDigits 10 address.b ++ '.' :: Nat.toDigits 10 address.c

/-- `inetntoa`. -/
def Address.hostip (address : Address) : Text :=
  address.front ++ '.' :: Nat.toDigits 10 address.d

/-- What masking depends on: the configured prefix and staff address, the name
the resolver stored, and the address. `crc32` is zlib's. -/
structure Config where
  crc32 : Text → BitVec 32
  hostPrefix : Text
  staffAddress : Text
  hostPrefix_le : hostPrefix.length ≤ hostLen
  staffAddress_le : staffAddress.length ≤ hostLen

structure Peer where
  sockhost : Text
  address : Address
  sockhost_le : sockhost.length ≤ hostLen

/-- The arrays of `anUser` that hold a host. -/
structure Hosts where
  realhost : Text
  maskhost : Text
  host : Text

/-- `%08lx` of a 32-bit sum. -/
def hex8 (sum : BitVec 32) : Text :=
  [28, 24, 20, 16, 12, 8, 4, 0].map fun shift => Nat.digitChar ((sum.toNat >>> shift) % 16)

/-- `Maskchecksum`, behind its assertion. -/
def maskchecksum (config : Config) (ip : Text) : BitVec 32 :=
  config.crc32 ("crc32-".toList ++ ip)

/-- The assertion of `Maskchecksum`. -/
def LengthAssertion (ip : Text) : Prop := ip.length < ipLen

/-- A name, and not an address, by the letter it has somewhere. -/
def isdns (sockhost : Text) : Bool := sockhost.any isAlpha

/-- A host name loses what stands before its first dot. -/
def domain (sockhost : Text) : Text :=
  if '.' ∈ sockhost then afterFirst '.' sockhost else sockhost

/-- What stands before the last dot of an address, where there is one. -/
def beforeLastDot (ip : Text) : Option Text :=
  if '.' ∈ ip then some (afterFirst '.' ip.reverse).reverse else none

/-- The text `make_hostmask` prints into `mask`. -/
def mask (config : Config) (peer : Peer) : Text :=
  let ip := peer.address.hostip
  let sum := hex8 (maskchecksum config ip)
  if isdns peer.sockhost then
    config.hostPrefix ++ '-' :: sum ++ '.' :: domain peer.sockhost
  else
    match beforeLastDot ip with
    | none => config.hostPrefix ++ '-' :: sum
    | some ipmask => config.hostPrefix ++ '-' :: ipmask ++ '.' :: sum

/-- `make_hostmask`: `strncpy` to `maskhost`, then `strcpy` of that to `host`. -/
def makeHostmask (config : Config) (peer : Peer) (hosts : Hosts) : Hosts :=
  let maskhost := strncpy hosts.maskhost (mask config peer) (hostLen + 1)
  { hosts with maskhost := maskhost, host := strcpy hosts.host (textAt maskhost 0) }

/-- `set_hostmask` under the modes the user has. -/
def setHostmask (config : Config) (peer : Peer) (umode : UModes) (hosts : Hosts) : Hosts :=
  if (.o ∈ umode ∨ .O ∈ umode) ∧ .H ∉ umode then
    { hosts with host := snprintf hosts.host config.staffAddress (hostLen + 1) }
  else if .v ∉ umode then
    { hosts with host := snprintf hosts.host (textAt hosts.realhost 0) (hostLen + 1) }
  else if textAt hosts.maskhost 0 = [] then makeHostmask config peer hosts
  else { hosts with host := snprintf hosts.host (textAt hosts.maskhost 0) (hostLen + 1) }

/-- The arrays as `register_user` prepares them; `strncpyzt` is given `HOSTLEN`. -/
def initialHosts (peer : Peer) : Hosts :=
  let zeros := List.replicate (hostLen + 1) nul
  let copied := snprintf zeros peer.sockhost hostLen
  { realhost := copied, maskhost := zeros, host := copied }

/-- Registration makes the mask; every later change of modes chooses again. -/
def afterChanges (config : Config) (peer : Peer) (changes : List UModes) : Hosts :=
  changes.foldl (fun hosts umode => setHostmask config peer umode hosts)
    (makeHostmask config peer (initialHosts peer))

/-- The part of the name or address that stays readable. -/
def kept (peer : Peer) : Text :=
  if isdns peer.sockhost then domain peer.sockhost else peer.address.front

private theorem digits_byte :
    ∀ byte : Fin 256, '.' ∉ Nat.toDigits 10 byte ∧ (Nat.toDigits 10 byte).length ≤ 3 := by
  decide +kernel

private theorem length_front_le (address : Address) : address.front.length ≤ 11 := by
  have first := (digits_byte address.a).2
  have second := (digits_byte address.b).2
  have third := (digits_byte address.c).2
  simp only [Address.front, List.append_assoc, List.cons_append, List.length_append, List.length_cons]
  omega

theorem lengthAssertion_hostip (address : Address) : LengthAssertion address.hostip := by
  have front := length_front_le address
  have last := (digits_byte address.d).2
  simp only [LengthAssertion, Address.hostip, ipLen, List.length_append, List.length_cons]
  omega

private theorem beforeLastDot_hostip (address : Address) :
    beforeLastDot address.hostip = some address.front := by
  have clean : '.' ∉ (Nat.toDigits 10 address.d).reverse := by simp [(digits_byte address.d).1]
  have split : address.hostip.reverse =
      (Nat.toDigits 10 address.d).reverse ++ '.' :: address.front.reverse := by
    simp [Address.hostip]
  have dotted : '.' ∈ address.hostip := by simp [Address.hostip]
  rw [beforeLastDot, if_pos dotted, split, afterFirst_of_split clean, List.reverse_reverse]

theorem length_mask (config : Config) (peer : Peer) :
    (mask config peer).length = config.hostPrefix.length + 10 + (kept peer).length := by
  unfold mask kept
  split
  · simp [hex8]
    omega
  · simp only [beforeLastDot_hostip]
    simp [hex8]
    omega

/-- Both arrays still have their size and a terminator. -/
def Hosts.Sound (hosts : Hosts) : Prop :=
  Terminated (hostLen + 1) hosts.maskhost ∧ Terminated (hostLen + 1) hosts.host

private theorem makeHostmask_sound {config : Config} {peer : Peer} {hosts : Hosts}
    (fits : (mask config peer).length ≤ hostLen) (masked : hosts.maskhost.length = hostLen + 1)
    (sized : hosts.host.length = hostLen + 1) : (makeHostmask config peer hosts).Sound := by
  have stored := strncpy_terminated masked (Nat.lt_succ_of_le fits)
  exact ⟨stored, strcpy_terminated sized (length_textAt_lt stored)⟩

private theorem setHostmask_sound {config : Config} {peer : Peer} {hosts : Hosts}
    (fits : (mask config peer).length ≤ hostLen) (sound : hosts.Sound) (umode : UModes) :
    (setHostmask config peer umode hosts).Sound := by
  have chosen (text : Text) : Terminated (hostLen + 1) (snprintf hosts.host text (hostLen + 1)) :=
    snprintf_terminated text sound.2.1 (Nat.succ_pos _) (Nat.le_refl _)
  unfold setHostmask
  split
  · exact ⟨sound.1, chosen _⟩
  · split
    · exact ⟨sound.1, chosen _⟩
    · split
      · exact makeHostmask_sound fits sound.1.1 sound.2.1
      · exact ⟨sound.1, chosen _⟩

private theorem foldl_sound {config : Config} {peer : Peer} {hosts : Hosts}
    (fits : (mask config peer).length ≤ hostLen) (sound : hosts.Sound) (changes : List UModes) :
    (changes.foldl (fun hosts umode => setHostmask config peer umode hosts) hosts).Sound := by
  induction changes generalizing hosts with
  | nil => exact sound
  | cons umode rest ih => exact ih (setHostmask_sound fits sound umode)

private theorem initialHosts_sized (peer : Peer) :
    (initialHosts peer).maskhost.length = hostLen + 1 ∧
      (initialHosts peer).host.length = hostLen + 1 := by
  refine ⟨List.length_replicate, ?_⟩
  exact (snprintf_terminated peer.sockhost List.length_replicate (by decide) (by decide)).1

/-- The mask fits, the stored hosts are terminated after any changes of modes
and the assertion holds, exactly when the prefix leaves room for the part of
the name that is kept. -/
theorem hostmask_sound_iff (config : Config) (peer : Peer) (changes : List UModes) :
    ((mask config peer).length + 1 ≤ hostLen + 1 ∧ (afterChanges config peer changes).Sound ∧
      LengthAssertion peer.address.hostip) ↔
      config.hostPrefix.length + 10 + (kept peer).length ≤ hostLen := by
  rw [← length_mask]
  constructor
  · rintro ⟨fits, -, -⟩
    exact Nat.le_of_succ_le_succ fits
  · intro fits
    have sized := initialHosts_sized peer
    exact ⟨Nat.succ_le_succ fits, foldl_sound fits (makeHostmask_sound fits sized.1 sized.2) changes,
      lengthAssertion_hostip peer.address⟩

/-- `DEFAULT_HOST_PREFIX`, and the name of a host in a domain of 61 bytes. -/
def defaults : Config := ⟨fun _ => 0, "RZ".toList, "staff.example".toList, by decide, by decide⟩

def deepHost : Peer := ⟨"h.".toList ++ List.replicate 61 'd', ⟨192, 0, 2, 1⟩, by decide⟩

/-- The mask has 73 bytes, and `strncpy` leaves `maskhost` without a terminator. -/
theorem hostmask_overflow :
    ¬ (mask defaults deepHost).length + 1 ≤ hostLen + 1 ∧
      nul ∉ (afterChanges defaults deepHost []).maskhost := by
  decide +kernel

end SolidIrcd.HostMask
