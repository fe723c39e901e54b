import SolidIrcd.UserBan.Command
import SolidIrcd.UserBan.Exact

/-! The K-line journal of `klines.c`: its records, how they are read again, the compaction,
and the commands that write it. -/

namespace SolidIrcd.Kline

open Scan (Text)
open Mask (splitFirst)
open UserBan

def klineMinStoreTime : Int := 180
def klineStoreCompactThresh : Nat := 1000
def defaultKlineTime : Int := 30

def expiretime (ub : Ban) : Int := if ub.flags.temporary then ub.timeset + ub.duration else 0

/-- What `ks_write` puts on a line for `+`; the time is printed as an `int`. -/
def plusRecord (ub : Ban) : Text :=
  '+' :: ' ' :: (Decimal.print (Decimal.toInt (expiretime ub)) ++
    ' ' :: (ub.userText ++ ' ' :: (ub.hostText ++ ' ' :: ub.reason.getD [])))

/-- What it puts there for `-`. -/
def minusRecord (ub : Ban) : Text := '-' :: ' ' :: (ub.userText ++ ' ' :: ub.hostText)

/-- `ks_read` on a `+` line once the mask is known. -/
def ksAdd (now : Int) (store : Store) (duration : Int) (user host reason : Text) : Store × Bool :=
  match makeHostbasedBan (some user) host with
  | none => (store, false)
  | some ban =>
    let marks : Marks :=
      { isLocal := true
        reason := if reason = [] then none else some reason
        lasts := if duration = 0 then none else some (now, duration) }
    ((store.addHostbasedUserban (ban.mark marks)).getD store, true)

/-- `ks_read` on a `-` line once the mask is known. -/
def ksRemove (store : Store) (user host : Text) : Store × Bool :=
  match makeHostbasedBan (some user) host with
  | none => (store, false)
  | some ban =>
    match store.findUserbanExact (ban.mark { isLocal := true }) { isLocal := true, conf := true } with
    | none => (store, true)
    | some existing => (store.removeUserban existing.internalEnt, true)

/-- `ks_read`: the store, and whether the line was well formed. -/
def ksRead (now : Int) (store : Store) (s : Text) : Store × Bool :=
  match s with
  | '+' :: ' ' :: s =>
    let (expire, s) := Decimal.strtolAuto s
    if expire ≠ 0 ∧ now ≥ expire then (store, true)
    else
      match s with
      | ' ' :: s =>
        match splitFirst ' ' s with
        | none => (store, false)
        | some (user, s) =>
          match splitFirst ' ' s with
          | none => (store, false)
          | some (host, reason) => ksAdd now store (if expire = 0 then 0 else expire - now) user host reason
      | _ => (store, false)
  | '-' :: ' ' :: s =>
    match splitFirst ' ' s with
    | none => (store, false)
    | some (user, host) => ksRemove store user host
  | _ => (store, false)

/-- `fgets` with a buffer of `size` bytes: what it stores, and what is left. -/
def fgets (size : Nat) (stream : Text) : Text × Text :=
  let room := stream.take (size - 1)
  let buf := if '\n' ∈ room then room.takeWhile (· ≠ '\n') ++ ['\n'] else room
  (buf, stream.drop buf.length)

/-- The loop of `klinestore_init`; every turn takes at least a byte of the stream. -/
def replay (now : Int) : Nat → Store → Text → Store
  | 0, store, _ => store
  | turns + 1, store, stream =>
    if stream = [] then store
    else
      let (buf, rest) := fgets 1024 stream
      if '\n' ∈ buf then
        match ksRead now store (buf.takeWhile (· ≠ '\n')) with
        | (store, true) => replay now turns store rest
        | (store, false) => store
      else store

/-- The tests of `ks_dumplist`. -/
def isKline (ub : Ban) : Bool := ub.flags.isLocal && !ub.flags.conf

def storable (ub : Ban) : Bool := isKline ub && !(ub.flags.temporary && ub.duration < klineMinStoreTime * 60)

/-- The lists in the order of `ks_dumpklines`. -/
def dumpSlots : List Slot :=
  ((List.range 256).flatMap fun i => (List.range 256).map fun j => .cidr4 i j) ++
    [.cidr4big, .hostWild, .ipWild] ++ (List.range hashSize).flatMap fun i => [.hostBucket i, .ipBucket i]

/-- The bans `ks_dumpklines` writes, one after the other. -/
def dumped (store : Store) : List Ban := dumpSlots.flatMap fun slot => (store.lists slot).filter storable

def ksDumpklines (store : Store) : Text := (dumped store).flatMap fun ub => plusRecord ub ++ ['\n']

/-- Where `klinestore_compact` can fail. -/
inductive Fault where
  | openTemp | rename | reopen
  deriving DecidableEq, Repr

/-- The bans in memory and the journal; `isOpen` says that `journal` is a descriptor. -/
structure Server where
  store : Store
  isOpen : Bool
  file : Text
  journalcount : Nat
  now : Int

/-- `klinestore_compact`. -/
def Server.compact (server : Server) (fault : Option Fault) : Server :=
  let server := { server with journalcount := 0 }
  match fault with
  | some .openTemp => server
  | some .rename => { server with isOpen := false }
  | some .reopen => { server with isOpen := false, file := ksDumpklines server.store }
  | none => { server with isOpen := true, file := ksDumpklines server.store }

/-- What `klinestore_add` and `klinestore_remove` share. -/
def Server.journalWrite (server : Server) (record : Text) (fault : Option Fault) : Server :=
  let server := if server.isOpen then { server with file := server.file ++ (record ++ ['\n']) } else server
  let server := { server with journalcount := server.journalcount + 1 }
  if server.journalcount > klineStoreCompactThresh then server.compact fault else server

@[simp] theorem compact_now (server : Server) (fault : Option Fault) : (server.compact fault).now = server.now := by
  rcases fault with _ | _ | _ | _ <;> rfl

@[simp] theorem compact_store (server : Server) (fault : Option Fault) : (server.compact fault).store = server.store := by
  rcases fault with _ | _ | _ | _ <;> rfl

@[simp] theorem journalWrite_now (server : Server) (record : Text) (fault : Option Fault) :
    (server.journalWrite record fault).now = server.now := by
  unfold Server.journalWrite
  simp only
  split
  · split <;> simp
  · split <;> simp

@[simp] theorem journalWrite_store (server : Server) (record : Text) (fault : Option Fault) :
    (server.journalWrite record fault).store = server.store := by
  unfold Server.journalWrite
  simp only
  split
  · split <;> simp
  · split <;> simp

/-- `klinestore_add`. -/
def Server.klinestoreAdd (server : Server) (ban : Ban) (fault : Option Fault) : Server :=
  server.journalWrite (plusRecord ban) fault

/-- `klinestore_remove`. -/
def Server.klinestoreRemove (server : Server) (ban : Ban) (fault : Option Fault) : Server :=
  server.journalWrite (minusRecord ban) fault

/-- `klinestore_init`. -/
def Server.klinestoreInit (server : Server) (noreload : Bool) (fault : Option Fault) : Server :=
  if server.isOpen && noreload then server
  else
    { server with
      isOpen := false
      store := replay server.now server.file.length server.store server.file }.compact fault

/-- An operator, as far as the K-line commands look at one. -/
structure Oper where
  client : Client
  canKline : Bool
  canUnKline : Bool
  deriving DecidableEq, Repr

/-- The duration, the target and the reason of `m_kline`. -/
def klineParams (parv : List Text) : Option (Int × Text × Text) := banParams defaultKlineTime parv

/-- `m_kline` from the ban on. -/
def Server.addKline (server : Server) (sptr : Client) (ban : Ban) (tkminutes : Int) (rbuf : Text)
    (fault : Option Fault) : Server :=
  match server.store.findUserbanExact (ban.mark { isLocal := true }) { isLocal := true } with
  | some _ => server
  | none =>
    if userMatchBan sptr (ban.mark { isLocal := true }) then server
    else
      let marks : Marks :=
        { isLocal := true
          reason := some rbuf
          lasts := if tkminutes * 60 ≠ 0 then some (server.now, tkminutes * 60) else none }
      let ban := ban.mark marks
      let server := { server with store := (server.store.addHostbasedUserban ban).getD server.store }
      if tkminutes = 0 ∨ tkminutes ≥ klineMinStoreTime then server.klinestoreAdd ban fault else server

/-- `m_kline`. -/
def Server.mKline (server : Server) (sptr : Oper) (parv : List Text) (date : Text) (fault : Option Fault) : Server :=
  if !sptr.canKline then server
  else
    match klineParams parv with
    | none => server
    | some (minutes, target, reason) =>
      let (user, host) := userHost target
      if tooWide user host then server
      else
        match makeHostbasedBan (some user) host with
        | none => server
        | some ban => server.addKline sptr.client ban (banMinutes minutes) (datedReason reason date) fault

/-- The ban that `m_unkline` finds for a target. -/
def Server.existing (server : Server) (target : Text) : Option Ban :=
  let (user, host) := userHost target
  match makeHostbasedBan (some user) host with
  | none => none
  | some ban => server.store.findUserbanExact (ban.mark { isLocal := true }) { isLocal := true }

/-- `m_unkline`. -/
def Server.mUnkline (server : Server) (sptr : Oper) (parv : List Text) (fault : Option Fault) : Server :=
  if !sptr.canUnKline then server
  else
    match parv with
    | [] => server
    | target :: _ =>
      match server.existing target with
      | none => server
      | some existing =>
        if existing.flags.conf then server
        else
          { server with store := server.store.removeUserban existing.internalEnt }.klinestoreRemove existing fault

end SolidIrcd.Kline
