import SolidIrcd.Dns.Resolver

/-! Replies of name servers: `proc_answer` and `get_res`. `dn_expand` has decoded the names of a packet. -/

namespace SolidIrcd.Dns

open Scan (Text)

/-- A record of an answer, as the loop of `proc_answer` comes to it. -/
inductive Record where
  /-- Without an address where the length is not that of one. -/
  | a (owner : Text) (dr : Option InAddr)
  /-- Without a name where `dn_expand` fails. -/
  | ptr (owner : Text) (target : Option Text)
  | cname (owner : Text) (target : Option Text)
  | other (owner : Text)
  deriving DecidableEq, Repr

/-- A datagram; `question` is the first question, where its name can be decoded. -/
structure Packet where
  sin : InAddr
  id : Nat
  rcode : Rcode
  qdcount : Nat
  ancount : Nat
  question : Option (Text × RType × Bool)
  records : List Record

/-- The records up to one with a name that cannot be decoded. -/
def met : List Record → List Record
  | [] => []
  | .ptr owner none :: _ => [.ptr owner none]
  | .cname owner none :: _ => [.cname owner none]
  | record :: rest => record :: met rest

def Packet.answers (packet : Packet) : List Record := met (packet.records.take packet.ancount)

/-- The default domain is copied over a name without dots. -/
def defaultDomain (res : Res) (hostbuf : Text) : Text :=
  if '.' ∉ hostbuf ∧ res.defnames = true then
    let hostbuf := hostbuf ++ ['.']
    let room := hostLen - hostbuf.length
    if hostbuf.length + 2 < hostLen + 1 then
      if res.defdname.length < room then res.defdname
      else (res.defdname.take room ++ hostbuf.drop room).take hostLen
    else hostbuf
  else hostbuf

/-- The text up to a dot, and what stands behind it. -/
def fragment (text : Text) : Option (Text × Text) :=
  match text.dropWhile (· ≠ '.') with
  | [] => none
  | _ :: rest => some (text.takeWhile (· ≠ '.'), rest)

/-- `(u_char) atoi(text)`. -/
def octet (text : Text) : UInt8 := UInt8.ofNat (Decimal.atoi text % 256).toNat

/-- `arpa_to_ip`. -/
def arpaToIp (arpastring : Text) : Option InAddr := do
  let (first, rest) ← fragment arpastring
  let (second, rest) ← fragment rest
  let (third, rest) ← fragment rest
  let (fourth, rest) ← fragment rest
  if mycmp rest "in-addr.arpa".toList then some ⟨octet fourth, octet third, octet second, octet first⟩ else none

/-- The name that is asked for an address. -/
def arpa (ip : InAddr) : Text :=
  Decimal.print ip.b3.toNat ++ '.' :: Decimal.print ip.b2.toNat ++ '.' :: Decimal.print ip.b1.toNat ++
    '.' :: Decimal.print ip.b0.toNat ++ ".in-addr.arpa".toList

/-- `is_acceptable_answer`. -/
def isAcceptableAnswer (acceptable : List Text) (h : Text) : Bool := acceptable.any (mycmp · h)

/-- `add_acceptable_answer`. -/
def addAcceptableAnswer (acceptable : List Text) (x : Text) : List Text :=
  if acceptable.length < maxAcceptableAns then acceptable ++ [x] else acceptable

/-- Whether a record is about what was asked, or about a name that a CNAME gave for it. -/
def owned (res : Res) (origtype : RType) (rptr : ResRQ) (acceptable : List Text) : Record → Bool
  | .a owner _ =>
    rptr.name.any fun name =>
      mycmp name (defaultDomain res owner) || isAcceptableAnswer acceptable (defaultDomain res owner)
  | .ptr owner _ =>
    isAcceptableAnswer acceptable (defaultDomain res owner) || arpaToIp (defaultDomain res owner) == some rptr.addr
  | .cname owner _ =>
    match origtype with
    | .ptr =>
      isAcceptableAnswer acceptable (defaultDomain res owner) || arpaToIp (defaultDomain res owner) == some rptr.addr
    | .a =>
      rptr.name.any fun name =>
        mycmp name (defaultDomain res owner) || isAcceptableAnswer acceptable (defaultDomain res owner)
    | _ => true
  | .other _ => true

/-- What the loop of `proc_answer` has come to. -/
structure Proc where
  rptr : ResRQ
  acceptable : List Text
  adr : Nat
  ans : Nat

/-- A record that is owned; an address of another length makes the reply malicious. -/
def Proc.keep (res : Res) (proc : Proc) : Record → Option Proc
  | .a _ none => none
  | .a owner (some dr) =>
    let rptr := proc.rptr
    let hAddrList := if proc.adr < maxAddrs then rptr.he.hAddrList.set proc.adr dr else rptr.he.hAddrList
    let adr := if proc.adr < maxAddrs then proc.adr + 1 else proc.adr
    let hName := rptr.he.hName.or (some (defaultDomain res owner))
    some { proc with
      rptr := { rptr with he := { rptr.he with hName := hName, hAddrList := hAddrList }, type := .a }
      adr := adr
      ans := proc.ans + 1 }
  | .ptr _ none => some proc
  | .ptr _ (some target) =>
    let rptr := proc.rptr
    match rptr.he.hName with
    | some _ =>
      if maxAliases - 1 ≤ rptr.he.hAliases.length then some proc
      else some { proc with
        rptr := { rptr with he := { rptr.he with hAliases := rptr.he.hAliases ++ [target] }, type := .ptr }
        ans := proc.ans + 1 }
    | none =>
      some { proc with
        rptr := { rptr with he := { rptr.he with hName := some target }, type := .ptr }
        ans := proc.ans + 1 }
  | .cname owner target =>
    let rptr := proc.rptr
    if maxAliases - 1 ≤ rptr.he.hAliases.length then some proc
    else some { proc with
      rptr := { rptr with
        he := { rptr.he with hAliases := rptr.he.hAliases ++ [defaultDomain res owner] }, type := .cname }
      acceptable := (target.map (addAcceptableAnswer proc.acceptable)).getD proc.acceptable
      ans := proc.ans + 1 }
  | .other _ => some proc

/-- What `proc_answer` returns. -/
inductive Verdict where
  | broken
  | strange
  | malicious
  | answers (ans : Nat)
  deriving DecidableEq, Repr

/-- The loop of `proc_answer`. -/
def procRecords (res : Res) (origtype : RType) : Proc → List Record → ResRQ × Verdict
  | proc, [] => (proc.rptr, .answers proc.ans)
  | proc, record :: rest =>
    if owned res origtype proc.rptr proc.acceptable record then
      match proc.keep res record with
      | none => (proc.rptr, .malicious)
      | some proc => procRecords res origtype proc rest
    else (proc.rptr, .strange)

/-- Whether the question is the one that was asked, where the request still knows. -/
def asked (rptr : ResRQ) (question : Text × RType × Bool) : Option Bool :=
  let (hostbuf, type, classIn) := question
  match rptr.type, rptr.name with
  | .a, some name => some (classIn && type == .a && mycmp name hostbuf)
  | .ptr, _ => some (classIn && type == .ptr && mycmp (arpa rptr.addr) hostbuf)
  | _, _ => none

/-- `proc_answer`. -/
def procAnswer (res : Res) (rptr : ResRQ) (packet : Packet) : ResRQ × Verdict :=
  if packet.qdcount ≠ 1 then (rptr, .broken)
  else
    match packet.question.bind (asked rptr) with
    | none => (rptr, .broken)
    | some false => (rptr, .strange)
    | some true => procRecords res rptr.type ⟨rptr, [], rptr.he.addrs.length, 0⟩ packet.answers

/-- `getres_err`. -/
def getresErr (res : Res) (state : Resolver) (rptr : ResRQ) (sending : Option Sending) : Resolver × Option Link :=
  if state.hErrno ≠ .tryAgain then
    if res.defnames then
      let rptr := { rptr with srch := rptr.srch + 1 }
      if rptr.srch = 0 then
        (resendQuery state { rptr with retries := res.retry.toInt8, sends := 0, resend := true } sending, none)
      else (resendQuery state rptr sending, none)
    else (resendQuery state rptr sending, none)
  else (setRequest state rptr, some rptr.cinfo)

/-- The check against fake replies; where `sends` has run over, no server is looked at and any source passes. -/
def fromNameserver (res : Res) (rptr : ResRQ) (sin : InAddr) : Bool :=
  let max := min (res.nsaddrList.length : Int) rptr.sends.toInt
  let max := if max = 0 then 1 else max
  max < 0 || (res.nsaddrList.take max.toNat).any fun ns => ns == .zero || ns == sin

def Rcode.hErrno : Rcode → HErrno
  | .nxDomain | .servFail => .tryAgain
  | .noError => .noData
  | .formErr | .notImp | .refused => .noRecovery

/-- The addresses of the forward answer that the reverse one has too. -/
def matching (rptr : ResRQ) : List InAddr := rptr.he.addrs.filter (· ∈ rptr.heRev.addrs)

/-- The forward answer, without the addresses that the reverse one lacks; `none` where nothing is left. -/
def confirm (rptr : ResRQ) : Option ResRQ :=
  if rptr.he.hName = none ∨ rptr.heRev.hName = none ∨ rptr.he.addrs = [] ∨ rptr.heRev.addrs = [] then none
  else if matching rptr = [] then none
  else if (matching rptr).length = rptr.he.addrs.length then some rptr
  else some { rptr with he := { rptr.he with hAddrList := matching rptr } }

/-- `get_res` once `proc_answer` has counted answers. -/
def accept (state : Resolver) (rptr : ResRQ) (sending : Option Sending) :
    Resolver × Option Link × Option ACache :=
  match rptr.type, rptr.hasRev with
  | .ptr, _ =>
    match rptr.he.hName with
    | none => (remRequest state rptr.address, none, none)
    | some hName =>
      let state := gethostByname state hName rptr.cinfo sending
      let last := state.requests.getLast?.map fun last => { last with heRev := rptr.he, hasRev := true }
      (remRequest { state with requests := state.requests.dropLast ++ last.toList } rptr.address, none, none)
  | .a, true =>
    match confirm rptr with
    | none => (remRequest state rptr.address, some rptr.cinfo, none)
    | some rptr =>
      let (state, cp) := makeCache state rptr
      (remRequest state rptr.address, some rptr.cinfo, cp)
  | _, _ =>
    let (state, cp) := makeCache state rptr
    (remRequest state rptr.address, some rptr.cinfo, cp)

/-- `get_res`: for whom a lookup is done, and the host. -/
def getRes (res : Res) (state : Resolver) (packet : Packet) (sending : Option Sending) :
    Resolver × Option Link × Option ACache :=
  match state.requests.find? (·.id = some packet.id) with
  | none => (state, none, none)
  | some rptr =>
    if !fromNameserver res rptr packet.sin then
      let (state, lp) := getresErr res state rptr sending
      (state, lp, none)
    else if packet.rcode ≠ .noError ∨ packet.ancount = 0 then
      let rptr := if packet.rcode.hErrno = .tryAgain then rptr else { rptr with resend := false, retries := 0 }
      let (state, lp) := getresErr res { state with hErrno := packet.rcode.hErrno } rptr sending
      (state, lp, none)
    else
      match procAnswer res rptr packet with
      | (rptr, .strange) =>
        let rptr := { rptr with resend := true, retries := rptr.retries - 1 }
        if rptr.retries ≤ 0 then
          let (state, lp) := getresErr res { state with hErrno := .tryAgain } rptr sending
          (state, lp, none)
        else (resendQuery state rptr sending, none, none)
      | (rptr, .malicious) => (remRequest state rptr.address, some rptr.cinfo, none)
      | (rptr, .answers (_ + 1)) => accept state rptr sending
      | (rptr, _) =>
        if rptr.sent = 0 then (remRequest state rptr.address, none, none) else (setRequest state rptr, none, none)

/-- `del_queries`: the newest request for whom it was. -/
def delQueries (state : Resolver) (cp : ClientId ⊕ Nat) : Resolver :=
  match state.requests.reverse.find? (·.cinfo.cp = cp) with
  | none => state
  | some rptr => remRequest state rptr.address

/-- A turn of `timeout_query_list` for a request that has waited too long. -/
def timeoutQuery (state : Resolver) (address : Nat) (sending : Option Sending) : Resolver :=
  match state.requests.find? (·.address = address) with
  | none => state
  | some rptr =>
    let rptr := { rptr with retries := rptr.retries - 1 }
    if rptr.retries ≤ 0 then remRequest state address else resendQuery state rptr sending

end SolidIrcd.Dns
