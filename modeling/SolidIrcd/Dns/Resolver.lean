import SolidIrcd.Common
import SolidIrcd.Lib.Decimal
import SolidIrcd.Lib.Machine

/-! The resolver: `res.c`, built without `ALLOW_CACHE_NAMES` and `SEARCH_CACHE_ADDRESSES`. Names are looked up
for connect blocks; for a client, its address first and then the name that was given for it. -/

namespace SolidIrcd.Dns

open Scan (Text)

abbrev ClientId := Nat

/-- `struct in_addr`, byte by byte. -/
structure InAddr where
  b0 : UInt8
  b1 : UInt8
  b2 : UInt8
  b3 : UInt8
  deriving DecidableEq, Repr

/-- What ends a list of addresses. -/
def InAddr.zero : InAddr := ⟨0, 0, 0, 0⟩

def maxAliases : Nat := 10
def maxAddrs : Nat := 10
def maxCached : Nat := 281
def maxAcceptableAns : Nat := 10

inductive RType where
  | a | ptr | cname | other
  deriving DecidableEq, Repr

inductive Rcode where
  | noError | formErr | servFail | nxDomain | notImp | refused
  deriving DecidableEq, Repr

inductive HErrno where
  | success | tryAgain | noRecovery | noData
  deriving DecidableEq, Repr

/-- `cinfo`: whom a lookup is for. -/
inductive Link where
  | client (cptr : ClientId)
  | connect (aconn : Nat)
  | conf (aconn : Nat)
  deriving DecidableEq, Repr

/-- `cinfo.value.cp`. -/
def Link.cp : Link → ClientId ⊕ Nat
  | .client cptr => .inl cptr
  | .connect aconn | .conf aconn => .inr aconn

/-- `struct hent`; the addresses end at the first that is zero. -/
structure Hent where
  hName : Option Text
  hAliases : List Text
  hAddrList : List InAddr
  deriving DecidableEq, Repr

def Hent.blank : Hent := ⟨none, [], List.replicate maxAddrs .zero⟩

def Hent.addrs (he : Hent) : List InAddr := he.hAddrList.takeWhile (· ≠ .zero)

/-- `ResRQ`, at its address. -/
structure ResRQ where
  address : Nat
  id : Option Nat
  sent : Nat
  srch : Int
  type : RType
  /-- A `char`, and so is `sends`. -/
  retries : Int8
  sends : Int8
  resend : Bool
  addr : InAddr
  name : Option Text
  cinfo : Link
  he : Hent
  hasRev : Bool
  heRev : Hent

/-- The host of an `aCache`, at its address. -/
structure ACache where
  address : Nat
  hName : Text
  hAliases : List Text
  hAddrList : List InAddr
  deriving DecidableEq, Repr

structure Resolver where
  /-- From `first` to `last`. -/
  requests : List ResRQ
  cachetop : List ACache
  numList : Nat → List ACache
  incache : Nat
  hErrno : HErrno
  /-- How many requests and hosts were made. -/
  made : Nat

/-- `_res`. -/
structure Res where
  nsaddrList : List InAddr
  defnames : Bool
  defdname : Text
  retry : Int

/-- What sending a query comes to: its id, and to how many servers it went. -/
structure Sending where
  id : Nat
  sent : Nat

/-! Requests -/

/-- `make_request`. -/
def makeRequest (state : Resolver) (lp : Link) : ResRQ :=
  { address := state.made, id := none, sent := 0, srch := -1, type := .other, retries := 3, sends := 0, resend := true
    addr := .zero, name := none, cinfo := lp, he := .blank, hasRev := false, heRev := .blank }

def addRequest (state : Resolver) (rptr : ResRQ) : Resolver :=
  { state with requests := state.requests ++ [rptr], made := state.made + 1 }

/-- `rem_request`. -/
def remRequest (state : Resolver) (address : Nat) : Resolver :=
  { state with requests := state.requests.filter (·.address ≠ address) }

/-- What a request holds is written. -/
def setRequest (state : Resolver) (rptr : ResRQ) : Resolver :=
  { state with requests := state.requests.map fun old => if old.address = rptr.address then rptr else old }

/-- `query_name`, where `res_mkquery` may fail. -/
def queryName (rptr : ResRQ) (hErrno : HErrno) : Option Sending → ResRQ × HErrno
  | none => (rptr, .noRecovery)
  | some sending =>
    ({ rptr with id := some sending.id, sends := rptr.sends + 1, sent := rptr.sent + sending.sent },
      if sending.sent = 0 then .tryAgain else hErrno)

/-- `do_query_name` for a new request. -/
def doQueryName (state : Resolver) (lp : Link) (name : Text) (sending : Option Sending) : Resolver :=
  let rptr := { makeRequest state lp with type := .a, name := some name }
  let (rptr, hErrno) := queryName rptr state.hErrno sending
  { addRequest state rptr with hErrno := hErrno }

/-- `do_query_number` for a new request. -/
def doQueryNumber (state : Resolver) (lp : Link) (numb : InAddr) (sending : Option Sending) : Resolver :=
  let rptr := makeRequest state lp
  let rptr := { rptr with
    type := .ptr, addr := numb, he := { rptr.he with hAddrList := rptr.he.hAddrList.set 0 numb } }
  let (rptr, hErrno) := queryName rptr state.hErrno sending
  { addRequest state rptr with hErrno := hErrno }

/-- `resend_query`. -/
def resendQuery (state : Resolver) (rptr : ResRQ) (sending : Option Sending) : Resolver :=
  if rptr.resend && (rptr.type = .ptr || rptr.type = .a) then
    let (rptr, hErrno) := queryName rptr state.hErrno sending
    { setRequest state rptr with hErrno := hErrno }
  else setRequest state rptr

/-! The cache -/

/-- `hash_number`. -/
def hashNumber (ip : InAddr) : Nat :=
  (((ip.b0.toNat * 2 + ip.b1.toNat) * 2 + ip.b2.toNat) * 2 + ip.b3.toNat) % 307

/-- `update_list` without a request. -/
def updateList (state : Resolver) (cp : ACache) : Resolver :=
  if cp ∈ state.cachetop then { state with cachetop := cp :: state.cachetop.filter (· ≠ cp) } else state

/-- `find_cache_number`. -/
def findCacheNumber (state : Resolver) (numb : InAddr) : Resolver × Option ACache :=
  match (state.numList (hashNumber numb)).find? fun cp => numb ∈ cp.hAddrList with
  | some cp => (updateList state cp, some cp)
  | none => (state, none)

/-- `rem_cache`. -/
def remCache (state : Resolver) (ocp : ACache) : Resolver :=
  let hashv := hashNumber (ocp.hAddrList.headD .zero)
  { state with
    cachetop := state.cachetop.filter (· ≠ ocp)
    numList := Function.update state.numList hashv ((state.numList hashv).filter (· ≠ ocp))
    incache := state.incache - 1 }

/-- `add_to_cache`, for a host with a name and an address. -/
def addToCache (state : Resolver) (ocp : ACache) : Resolver :=
  let hashv := hashNumber (ocp.hAddrList.headD .zero)
  let state := { state with
    cachetop := ocp :: state.cachetop
    numList := Function.update state.numList hashv (ocp :: state.numList hashv)
    incache := state.incache + 1
    made := state.made + 1 }
  if maxCached < state.incache then (state.cachetop.getLast?.map (remCache state)).getD state else state

/-- The addresses of a new host are looked for one after the other. -/
def findCacheNumbers (state : Resolver) : List InAddr → Resolver × Option ACache
  | [] => (state, none)
  | numb :: rest =>
    match findCacheNumber state numb with
    | (state, some cp) => (state, some cp)
    | (state, none) => findCacheNumbers state rest

/-- `make_cache`. -/
def makeCache (state : Resolver) (rptr : ResRQ) : Resolver × Option ACache :=
  match rptr.he.hName, rptr.he.addrs with
  | none, _ | _, [] => (state, none)
  | some hName, addrs =>
    match findCacheNumbers state addrs with
    | (state, some cp) => (state, some cp)
    | (state, none) =>
      let cp := ⟨state.made, hName, rptr.he.hAliases, addrs⟩
      (addToCache state cp, some cp)

/-- `gethost_byname`; no names are cached. -/
def gethostByname (state : Resolver) (name : Text) (lp : Link) (sending : Option Sending) : Resolver :=
  doQueryName state lp name sending

/-- `gethost_byaddr`. -/
def gethostByaddr (state : Resolver) (addr : InAddr) (lp : Link) (sending : Option Sending) :
    Resolver × Option ACache :=
  match findCacheNumber state addr with
  | (state, some cp) => (state, some cp)
  | (state, none) => (doQueryNumber state lp addr sending, none)

end SolidIrcd.Dns
