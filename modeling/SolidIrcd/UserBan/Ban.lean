import SolidIrcd.Channel.Mask
import SolidIrcd.UserBan.Inet

/-! One user ban: how `make_hostbased_ban` reads a mask, and which clients
`user_match_ban` finds under it. -/

namespace SolidIrcd.UserBan

open Scan (Text)
open Mask (isWild matchMask splitFirst)

/-- The bits of `flags`: UBAN_LOCAL, UBAN_NETWORK and so on. -/
structure Flags where
  isLocal : Bool := false
  network : Bool := false
  conf : Bool := false
  gline : Bool := false
  host : Bool := false
  ip : Bool := false
  shun : Bool := false
  wild : Bool := false
  cidr4 : Bool := false
  cidr4big : Bool := false
  wilduser : Bool := false
  wildhost : Bool := false
  temporary : Bool := false
  deriving DecidableEq, Repr

/-- `struct userBan`; `internalEnt` tells the entries of the lists apart. -/
structure Ban where
  flags : Flags
  u : Option Text
  h : Option Text
  cidr4ip : Address
  cidr4mask : Address
  reason : Option Text
  timeset : Int
  duration : Int
  internalEnt : Nat
  deriving DecidableEq, Repr

/-- What is known at the label `success`: a text to compare with, or a network. -/
inductive Form where
  | text (flags : Flags) (host : Text)
  | net (flags : Flags) (c4h c4m : Address)
  deriving DecidableEq, Repr

def isEveryone (user : Option Text) : Bool :=
  match user with
  | none => true
  | some user => user == [] || mycmp user ['*']

/-- From the label `cidrforce` on; `sval` is an `int`. -/
def cidrForce (host : Text) : Option Form :=
  match splitFirst '/' host with
  | none => none
  | some (address, sep) =>
    let ia := inetAddr address
    let (value, err) := Decimal.strtol sep
    let sval := Decimal.toInt value
    if ia = 0xFFFFFFFF#32 then none
    else if err ≠ [] then none
    else if sval < 0 ∨ sval > 32 then none
    else
      let na := cidrToNetmask sval.toNat
      some (.net (if sval < 16 then { cidr4big := true } else { cidr4 := true }) (ia &&& na) na)

/-- Numbers first, then nothing but stars. -/
def convertible (gotwild : Bool) : List Text → Bool
  | [] => true
  | octet :: rest =>
    if octet = ['*'] then convertible true rest
    else !gotwild && octet.all isDigit && convertible gotwild rest

/-- A wildcarded address, which may be a network; an octet keeps its first six characters. -/
def wildAddress (host : Text) : Option Form :=
  let octets := (host.splitOn '.').map (List.take 6)
  if convertible false octets = false then some (.text { ip := true, wild := true } host)
  else
    match octets with
    | ('*' :: _) :: _ => none
    | a :: ('*' :: _) :: _ => cidrForce (a ++ ".0.0.0/8".toList)
    | a :: b :: ('*' :: _) :: _ => cidrForce (a ++ '.' :: b ++ ".0.0/16".toList)
    | a :: b :: c :: ('*' :: _) :: _ => cidrForce (a ++ '.' :: b ++ '.' :: c ++ ".0/24".toList)
    | _ => none

def isOther (c : Char) : Bool := !(isDigit c || isWild c || c == '.' || c == '/')

/-- `make_hostbased_ban` up to `success`. -/
def classify (user : Option Text) (host : Text) : Option Form :=
  let numcount := host.countP isDigit
  let wildcount := host.countP isWild
  let dotcount := host.count '.'
  let slashcount := host.count '/'
  let othercount := host.countP isOther
  if wildcount ≠ 0 ∧ numcount = 0 ∧ othercount = 0 then
    if isEveryone user then none
    else some (.text { host := true, wild := true, wildhost := mycmp host "*.*".toList || mycmp host ['*'] } host)
  else if dotcount = 0 ∨ slashcount > 1 then none
  else if wildcount ≠ 0 ∧ numcount ≠ 0 ∧ othercount = 0 then
    if slashcount ≠ 0 ∨ dotcount > 3 then none else wildAddress host
  else if wildcount = 0 ∧ numcount ≠ 0 ∧ othercount = 0 ∧ slashcount ≠ 0 then cidrForce host
  else if slashcount ≠ 0 then none
  else if othercount = 0 then some (.text { ip := true, wild := decide (wildcount ≠ 0) } host)
  else some (.text { host := true, wild := decide (wildcount ≠ 0) } host)

def Form.ban (user : Option Text) : Form → Ban
  | .text flags host =>
    { flags := { flags with wilduser := isEveryone user }
      u := if isEveryone user then none else user
      h := some host
      cidr4ip := 0
      cidr4mask := 0
      reason := none
      timeset := 0
      duration := 0
      internalEnt := 0 }
  | .net flags c4h c4m =>
    { flags := { flags with wilduser := isEveryone user }
      u := if isEveryone user then none else user
      h := none
      cidr4ip := c4h
      cidr4mask := c4m
      reason := none
      timeset := 0
      duration := 0
      internalEnt := 0 }

/-- `make_hostbased_ban`; no caller has a mask that fills the 512 bytes of `host`. -/
def makeHostbasedBan (user : Option Text) (phost : Text) : Option Ban :=
  (classify user (phost.take 512)).map (Form.ban user)

/-- What the callers of `make_hostbased_ban` still set: whose ban it is, and `timeset`
with `duration` for UBAN_TEMPORARY. -/
structure Marks where
  isLocal : Bool := false
  network : Bool := false
  conf : Bool := false
  gline : Bool := false
  shun : Bool := false
  reason : Option Text := none
  lasts : Option (Int × Int) := none
  deriving DecidableEq, Repr

def Ban.mark (ban : Ban) (marks : Marks) : Ban :=
  { ban with
    flags :=
      { ban.flags with
        isLocal := marks.isLocal
        network := marks.network
        conf := marks.conf
        gline := marks.gline
        shun := marks.shun
        temporary := marks.lasts.isSome }
    reason := marks.reason
    timeset := (marks.lasts.map Prod.fst).getD 0
    duration := (marks.lasts.map Prod.snd).getD 0 }

/-- The part of a client that bans look at. -/
structure Client where
  username : Text
  realhost : Text
  ip : Address
  deriving DecidableEq, Repr

def Client.iptmp (cptr : Client) : Text := (inetntoa cptr.ip).take hostIpLen

def Ban.expired (ban : Ban) (now : Int) : Bool := ban.flags.temporary && ban.timeset + ban.duration ≤ now

def Ban.userDiffers (ban : Ban) (cptr : Client) : Bool :=
  !ban.flags.wilduser && !ban.u.any (matchMask · cptr.username)

def Ban.coversIp (ban : Ban) (cptr : Client) : Bool := cptr.ip &&& ban.cidr4mask == ban.cidr4ip

/-- `user_match_ban`. -/
def userMatchBan (cptr : Client) (ban : Ban) : Bool :=
  if ban.userDiffers cptr then false
  else if ban.flags.ip then
    if ban.flags.wild then ban.h.any (matchMask · cptr.iptmp) else ban.h.any (mycmp · cptr.iptmp)
  else if ban.flags.host then
    if ban.flags.wild then ban.flags.wildhost || ban.h.any (matchMask · cptr.realhost)
    else ban.h.any (mycmp · cptr.realhost)
  else if ban.flags.cidr4 || ban.flags.cidr4big then ban.coversIp cptr
  else false

/-- A network as `%s/%d` of `inetntoa` and `netmask_to_cidr`. -/
def Ban.network (ban : Ban) : Text :=
  inetntoa ban.cidr4ip ++ '/' :: Decimal.print (netmaskToCidr ban.cidr4mask)

/-- The four kinds of bans: one of the bits, with what it needs. -/
inductive Kind : Ban → Prop where
  | ip (h : Text) (is : ban.flags.ip = true) (host : ban.flags.host = false) (cidr4 : ban.flags.cidr4 = false)
      (cidr4big : ban.flags.cidr4big = false) (text : ban.h = some h) (noip : ban.cidr4ip = 0)
      (nomask : ban.cidr4mask = 0) : Kind ban
  | host (h : Text) (is : ban.flags.host = true) (ip : ban.flags.ip = false) (cidr4 : ban.flags.cidr4 = false)
      (cidr4big : ban.flags.cidr4big = false) (text : ban.h = some h) (noip : ban.cidr4ip = 0)
      (nomask : ban.cidr4mask = 0) : Kind ban
  | cidr4 (cidr : Nat) (is : ban.flags.cidr4 = true) (cidr4big : ban.flags.cidr4big = false)
      (ip : ban.flags.ip = false) (host : ban.flags.host = false) (mask : ban.cidr4mask = cidrToNetmask cidr)
      (wide : 16 ≤ cidr) (small : cidr ≤ 32) (notext : ban.h = none) : Kind ban
  | cidr4big (is : ban.flags.cidr4big = true) (cidr4 : ban.flags.cidr4 = false) (ip : ban.flags.ip = false)
      (host : ban.flags.host = false) (notext : ban.h = none) : Kind ban

theorem Ban.expired_mono {ban : Ban} (ranOut : ban.expired now = true) (on : now ≤ later) : ban.expired later = true := by
  simp only [Ban.expired, Bool.and_eq_true, decide_eq_true_eq] at ranOut ⊢
  exact ⟨ranOut.1, Int.le_trans ranOut.2 on⟩

theorem cidrForce_net (made : cidrForce host = some form) :
    ∃ cidr ia, cidr ≤ 32 ∧ ia ≠ 0xFFFFFFFF#32 ∧
      form = .net (if cidr < 16 then { cidr4big := true } else { cidr4 := true }) (ia &&& cidrToNetmask cidr)
        (cidrToNetmask cidr) := by
  unfold cidrForce at made
  split at made
  next => cases made
  next address sep _ =>
    simp only at made
    split at made
    next => cases made
    next valid =>
      split at made
      next => cases made
      next =>
        split at made
        next => cases made
        next range =>
          obtain ⟨low, high⟩ := not_or.mp range
          refine ⟨(Decimal.toInt (Decimal.strtol sep).1).toNat, inetAddr address, by omega, valid, ?_⟩
          obtain rfl := Option.some.inj made
          congr 1
          have small : (Decimal.toInt (Decimal.strtol sep).1 < 16) ↔
              (Decimal.toInt (Decimal.strtol sep).1).toNat < 16 := by omega
          simp only [small]

theorem kind_of_text (user : Option Text) (isHost wild wildhost : Bool) (host : Text) :
    Kind (Form.ban user (.text { host := isHost, ip := !isHost, wild := wild, wildhost := wildhost } host)) := by
  cases isHost with
  | true => exact .host host rfl rfl rfl rfl rfl rfl rfl
  | false => exact .ip host rfl rfl rfl rfl rfl rfl rfl

theorem kind_of_cidrForce (made : cidrForce host = some form) (user : Option Text) : Kind (form.ban user) := by
  obtain ⟨cidr, ia, small, -, rfl⟩ := cidrForce_net made
  by_cases big : cidr < 16
  · rw [if_pos big]
    exact .cidr4big rfl rfl rfl rfl rfl
  · rw [if_neg big]
    exact .cidr4 _ rfl rfl rfl rfl rfl (Nat.le_of_not_lt big) small rfl

theorem wildAddress_cases (made : wildAddress host = some form) :
    form = .text { ip := true, wild := true } host ∨ ∃ text, cidrForce text = some form := by
  unfold wildAddress at made
  simp only at made
  split at made
  next => exact .inl (Option.some.inj made).symm
  next =>
    split at made
    next => cases made
    next => exact .inr ⟨_, made⟩
    next => exact .inr ⟨_, made⟩
    next => exact .inr ⟨_, made⟩
    next => cases made

/-- A text stays as it is; all else has gone through `cidrforce`. -/
theorem classify_cases (made : classify user host = some form) :
    (∃ isHost wild wildhost, form = .text { host := isHost, ip := !isHost, wild := wild, wildhost := wildhost } host) ∨
      ∃ text, cidrForce text = some form := by
  unfold classify at made
  simp only at made
  split at made
  next =>
    split at made
    next => cases made
    next => exact .inl ⟨true, _, _, (Option.some.inj made).symm⟩
  next =>
    split at made
    next => cases made
    next =>
      split at made
      next =>
        split at made
        next => cases made
        next =>
          obtain same | forced := wildAddress_cases made
          · exact .inl ⟨false, _, _, same⟩
          · exact .inr forced
      next =>
        split at made
        next => exact .inr ⟨_, made⟩
        next =>
          split at made
          next => cases made
          next =>
            split at made
            next => exact .inl ⟨false, _, _, (Option.some.inj made).symm⟩
            next => exact .inl ⟨true, _, _, (Option.some.inj made).symm⟩

/-- Every ban is of one kind only. -/
theorem makeHostbasedBan_kind (made : makeHostbasedBan user phost = some ban) : Kind ban := by
  obtain ⟨form, classified, rfl⟩ := Option.map_eq_some_iff.mp made
  obtain ⟨isHost, wild, wildhost, rfl⟩ | ⟨text, forced⟩ := classify_cases classified
  · exact kind_of_text user isHost wild wildhost _
  · exact kind_of_cidrForce forced user

/-- The kind shows in what the callers leave alone. -/
theorem Kind.congr (kind : Kind ban) (ip : other.flags.ip = ban.flags.ip) (host : other.flags.host = ban.flags.host)
    (cidr4 : other.flags.cidr4 = ban.flags.cidr4) (cidr4big : other.flags.cidr4big = ban.flags.cidr4big)
    (text : other.h = ban.h) (address : other.cidr4ip = ban.cidr4ip) (mask : other.cidr4mask = ban.cidr4mask) :
    Kind other := by
  cases kind with
  | ip h is hostless netless bigless shown noip nomask =>
    exact .ip h (ip.trans is) (host.trans hostless) (cidr4.trans netless) (cidr4big.trans bigless) (text.trans shown)
      (address.trans noip) (mask.trans nomask)
  | host h is ipless netless bigless shown noip nomask =>
    exact .host h (host.trans is) (ip.trans ipless) (cidr4.trans netless) (cidr4big.trans bigless) (text.trans shown)
      (address.trans noip) (mask.trans nomask)
  | cidr4 cidr is bigless ipless hostless masked wide small notext =>
    exact .cidr4 cidr (cidr4.trans is) (cidr4big.trans bigless) (ip.trans ipless) (host.trans hostless)
      (mask.trans masked) wide small (text.trans notext)
  | cidr4big is netless ipless hostless notext =>
    exact .cidr4big (cidr4big.trans is) (cidr4.trans netless) (ip.trans ipless) (host.trans hostless)
      (text.trans notext)

theorem Kind.mark (kind : Kind ban) (marks : Marks) : Kind (ban.mark marks) := kind.congr rfl rfl rfl rfl rfl rfl rfl

end SolidIrcd.UserBan
