import SolidIrcd.Dns.Datagram
import SolidIrcd.Dns.Cache

/-! The answers of a datagram with the times they live: where they stand in a reply that is well formed, and what it
says. -/

namespace SolidIrcd.Dns

open Scan (Text)
open SignExtend (spread)

/-- A field of four bytes, in host order. -/
def Datagram.long (d : Datagram) (place : Nat) : Nat := d.count place * 65536 + d.count (place + 2)

/-! Replies that are well formed -/

/-- A record of a reply, with the bytes that its owner and its data take. -/
structure Entry where
  record : Record
  ttl : Nat
  ownerSize : Nat
  size : Nat
  deriving DecidableEq, Repr

def Record.owner : Record → Text
  | .a owner _ | .ptr owner _ | .cname owner _ | .other owner => owner

/-- Of a type that the resolver looks for. -/
def Record.sought : Record → Bool
  | .other _ => false
  | _ => true

def Entry.length (entry : Entry) : Nat := entry.ownerSize + 10 + entry.size

/-- The entry stands at a place, with its fields in network order. -/
structure Stands (dnExpand : DnExpand) (d : Datagram) (place : Nat) (entry : Entry) : Prop where
  owner : dnExpand d place = some (entry.record.owner, entry.ownerSize)
  ttl : d.long (place + entry.ownerSize + 4) = entry.ttl
  size : d.count (place + entry.ownerSize + 8) = entry.size
  inside : place + entry.length ≤ d.rc
  data : match entry.record with
    | .a _ dr =>
      d.count (place + entry.ownerSize) = 1 ∧ entry.size = 4 ∧
        dr = some ⟨d.buf (place + entry.ownerSize + 10), d.buf (place + entry.ownerSize + 11),
          d.buf (place + entry.ownerSize + 12), d.buf (place + entry.ownerSize + 13)⟩
    | .ptr _ target =>
      d.count (place + entry.ownerSize) = 12 ∧
        ∃ name, target = some name ∧ dnExpand d (place + entry.ownerSize + 10) = some (name, entry.size)
    | .cname _ target =>
      d.count (place + entry.ownerSize) = 5 ∧
        ∃ name, target = some name ∧ dnExpand d (place + entry.ownerSize + 10) = some (name, entry.size)
    | .other _ => d.count (place + entry.ownerSize) ∉ [1, 5, 12]

/-- They stand one behind the other. -/
def Lays (dnExpand : DnExpand) (d : Datagram) : Nat → List Entry → Prop
  | _, [] => True
  | place, entry :: rest => Stands dnExpand d place entry ∧ Lays dnExpand d (place + entry.length) rest

/-- Where they stand. -/
def boundaries : Nat → List Entry → List Nat
  | _, [] => []
  | place, entry :: rest => place :: boundaries (place + entry.length) rest

/-- The name behind an alias. -/
def Record.leads : Record → List Text
  | .cname _ target => target.toList
  | _ => []

/-- Every record is about the name that was asked for, or about one that an alias has led to. -/
def Pertains (res : Res) (rptr : ResRQ) : List Text → List Record → Prop
  | _, [] => True
  | known, record :: rest =>
    owned res rptr.type rptr known record = true ∧ Pertains res rptr (known ++ record.leads) rest

/-- Where the answers begin. -/
def answersAt (dnExpand : DnExpand) (d : Datagram) : Nat := headerSize + ((dnExpand d headerSize).map Prod.snd).getD 0 + 4

def rtypeOf (type : Nat) : RType := if type = 1 then .a else if type = 12 then .ptr else if type = 5 then .cname else .other

/-- A reply that is well formed answers the query of a request. -/
structure Reply (res : Res) (dnExpand : DnExpand) (rptr : ResRQ) (d : Datagram) (entries : List Entry) : Prop where
  qdcount : d.qdcount = 1
  question : ∃ hostbuf n, dnExpand d headerSize = some (hostbuf, n) ∧
    asked rptr (hostbuf, rtypeOf (d.count (headerSize + n)), d.count (headerSize + n + 2) == 1) = some true
  ancount : d.ancount = entries.length
  lays : Lays dnExpand d (answersAt dnExpand d) entries
  pertains : Pertains res rptr [] (entries.map (·.record))

/-! What a reply says -/

/-- The aliases that records give, to a host that may have a name already. -/
def aliases (res : Res) : Bool → List Record → List Text
  | _, [] => []
  | _, .a _ _ :: rest => aliases res true rest
  | named, .ptr _ target :: rest => (if named then target.toList else []) ++ aliases res true rest
  | named, .cname owner _ :: rest => defaultDomain res owner :: aliases res named rest
  | named, .other _ :: rest => aliases res named rest

/-- The addresses fill the places behind those that are taken. -/
def filled (table : List InAddr) (taken : Nat) (addresses : List InAddr) : List InAddr :=
  (table.take taken ++ addresses).take maxAddrs ++ table.drop (taken + addresses.length)

def sought (entries : List Entry) : List Entry := entries.filter (·.record.sought)

/-- The records are read where they stand; the names, the aliases and the addresses are theirs, as far as there is
room; the time is that of the last that is looked for, and an entry of the cache lives as long; and without the records
of other types it is the same. -/
structure Decodes (res : Res) (dnExpand : DnExpand) (rptr : ResRQ) (before : UInt32) (d : Datagram)
    (entries : List Entry) : Prop where
  places : (procDatagram res dnExpand rptr before d).places = boundaries (answersAt dnExpand d) entries
  verdict : ∃ ans, (procDatagram res dnExpand rptr before d).verdict = .answers ans
  hName : (procDatagram res dnExpand rptr before d).rptr.he.hName =
    rptr.he.hName.or ((entries.map (·.record)).findSome? (·.gives res))
  hAliases : (procDatagram res dnExpand rptr before d).rptr.he.hAliases =
    (rptr.he.hAliases ++ aliases res rptr.he.hName.isSome (entries.map (·.record))).take (maxAliases - 1)
  hAddrList : (procDatagram res dnExpand rptr before d).rptr.he.hAddrList =
    filled rptr.he.hAddrList rptr.he.addrs.length ((entries.map (·.record)).filterMap Record.address)
  ttl : ∀ last, (sought entries).getLast? = some last → (procDatagram res dnExpand rptr before d).ttl.toNat = last.ttl
  lifetime : ∀ last, (sought entries).getLast? = some last →
    ∀ (server : Server) (final : ResRQ) (now : Nat) (cp : ACache),
      (findCacheNumbers server.resolver final.he.addrs).2 = none →
      (server.makeCache final (procDatagram res dnExpand rptr before d).ttl.toNat now).2 = some cp →
        (server.makeCache final (procDatagram res dnExpand rptr before d).ttl.toNat now).1.expireat
          cp = now + max 600 last.ttl
  removed : ∀ other, Reply res dnExpand rptr other (sought entries) →
    (procDatagram res dnExpand rptr before other).rptr = (procDatagram res dnExpand rptr before d).rptr ∧
      (procDatagram res dnExpand rptr before other).verdict = (procDatagram res dnExpand rptr before d).verdict ∧
      (sought entries ≠ [] → (procDatagram res dnExpand rptr before other).ttl = (procDatagram res
        dnExpand rptr before d).ttl)

/-! When it is decoded so -/

/-- A name and the number of aliases, once a record is kept. -/
def Record.kept : Record → Bool × Nat → Bool × Nat
  | .a _ _, (_, count) => (true, count)
  | .ptr _ _, (named, count) => (true, if named ∧ count < maxAliases - 1 then count + 1 else count)
  | .cname _ _, (named, count) => (named, count + 1)
  | .other _, held => held

/-- The loop goes on behind the data: another type has none, and an alias finds room. -/
def Entry.Steps (entry : Entry) (held : Bool × Nat) : Prop :=
  match entry.record with
  | .other _ => entry.size = 0
  | .cname _ _ => held.2 < maxAliases - 1
  | _ => True

/-- So it is for every entry in front of another. -/
def Aligned : Bool × Nat → List Entry → Prop
  | _, [] | _, [_] => True
  | held, entry :: next :: rest => entry.Steps held ∧ Aligned (entry.record.kept held) (next :: rest)

/-- The time of the last record, read so, is that of the last that is looked for. -/
def Timed (entries : List Entry) : Prop :=
  ∀ last final, (sought entries).getLast? = some last → entries.getLast? = some final → spread final.ttl = last.ttl

end SolidIrcd.Dns
