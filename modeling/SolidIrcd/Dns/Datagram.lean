import SolidIrcd.Dns.Reply
import SolidIrcd.Lib.SignExtend

/-! `proc_answer` on the bytes of a datagram: where it reads its records, with the times they live, and how
far it goes into the receive buffer and its arrays. -/

namespace SolidIrcd.Dns

open Scan (Text)
open SignExtend (signed)

/-- The receive buffer, with the bytes that longer datagrams have left in it, and how many bytes have come. -/
structure Datagram where
  buf : Nat → UInt8
  rc : Nat

/-- `dn_expand` at a place of a datagram: the name and the bytes it takes there. -/
abbrev DnExpand := Datagram → Nat → Option (Text × Nat)

/-- What is relied on: the bytes lie in the datagram, and the name fits `hostbuf`. -/
def Expands (dnExpand : DnExpand) : Prop :=
  ∀ d place name n, dnExpand d place = some (name, n) → 0 < n ∧ place + n ≤ d.rc ∧ name.length ≤ hostLen

/-- How far an access goes: a part of the datagram, or an array up to a place. -/
inductive Access where
  | packet (place size : Nat)
  | hostbuf (size : Nat)
  | tmphost (size : Nat)
  | acceptable (row size : Nat)
  | alias (size : Nat)
  | addr (size : Nat)
  | filtered (size : Nat)
  deriving DecidableEq, Repr

def Access.InBounds (d : Datagram) : Access → Prop
  | .packet place size => place + size ≤ d.rc
  | .hostbuf size => size ≤ hostLen + 1
  | .tmphost size => size ≤ hostLen
  | .acceptable row size => row < maxAcceptableAns ∧ size ≤ hostLen + 1
  | .alias size => size ≤ maxAliases
  | .addr size => size ≤ maxAddrs
  | .filtered size => size ≤ maxAddrs

/-- `_getint16`: the bytes are signed. -/
def getint16 (d : Datagram) (place : Nat) : UInt16 :=
  (d.buf place).toInt8.toInt16.toUInt16 <<< 8 ||| (d.buf (place + 1)).toInt8.toInt16.toUInt16

/-- `_getint32`, likewise. -/
def getint32 (d : Datagram) (place : Nat) : UInt32 :=
  let u := signed (d.buf place)
  let u := u <<< 8 ||| signed (d.buf (place + 1))
  let u := u <<< 8 ||| signed (d.buf (place + 2))
  u <<< 8 ||| signed (d.buf (place + 3))

def headerSize : Nat := 12

/-- `MAXPACKET`, behind which the receive buffer ends. -/
def maxPacket : Nat := 1024

/-- A field of the header, in host order. -/
def Datagram.count (d : Datagram) (place : Nat) : Nat := (d.buf place).toNat * 256 + (d.buf (place + 1)).toNat

/-- `NOERROR` is zero. -/
def Datagram.rcode (d : Datagram) : Nat := (d.buf 3).toNat % 16

def Datagram.qdcount (d : Datagram) : Nat := d.count 4

def Datagram.ancount (d : Datagram) : Nat := d.count 6

def rtype (type : UInt16) : RType :=
  if type = 1 then .a else if type = 12 then .ptr else if type = 5 then .cname else .other

variable (res : Res) (dnExpand : DnExpand)

/-- The record whose owner has been read, up to the place behind it. -/
def decode (d : Datagram) (owner : Text) (place : Nat) : Record :=
  match rtype (getint16 d place) with
  | .a =>
    .a owner (if getint16 d (place + 8) = 4 then
      some ⟨d.buf (place + 10), d.buf (place + 11), d.buf (place + 12), d.buf (place + 13)⟩ else none)
  | .ptr => .ptr owner ((dnExpand d (place + 10)).map Prod.fst)
  | .cname => .cname owner ((dnExpand d (place + 10)).map Prod.fst)
  | .other => .other owner

/-- What the default domain writes. -/
def domainWrites (hostbuf : Text) : List Access :=
  if '.' ∉ hostbuf ∧ res.defnames = true then
    .hostbuf (hostbuf.length + 2) ::
      if hostbuf.length + 1 + 2 < hostLen + 1 then [.hostbuf (hostLen - (hostbuf.length + 1)), .hostbuf (hostLen + 1)]
      else []
  else []

/-- What a record that is owned is read for and written to, with its data at a place. -/
def keepAccesses (proc : Proc) (place : Nat) : Record → List Access
  | .a _ _ => if proc.adr < maxAddrs then [.packet place 4, .addr (proc.adr + 1)] else []
  | .ptr _ none => []
  | .ptr _ (some _) =>
    .hostbuf (hostLen + 1) ::
      if proc.rptr.he.hName.isSome ∧ proc.rptr.he.hAliases.length < maxAliases - 1 then
        [.alias (proc.rptr.he.hAliases.length + 2)]
      else []
  | .cname _ target =>
    if maxAliases - 1 ≤ proc.rptr.he.hAliases.length then []
    else
      .alias (proc.rptr.he.hAliases.length + 2) ::
        match target with
        | none => []
        | some target =>
          .hostbuf (hostLen + 1) ::
            if proc.acceptable.length < maxAcceptableAns then
              [.acceptable proc.acceptable.length (target.length + 1)]
            else []
  | .other _ => []

/-- Where the loop goes on behind a record that is kept. -/
def advance (d : Datagram) (proc : Proc) (place : Nat) : Record → Option Nat
  | .a _ _ => some (place + 4)
  | .ptr _ _ => (dnExpand d place).map fun (_, n) => place + n
  | .cname _ _ =>
    if maxAliases - 1 ≤ proc.rptr.he.hAliases.length then some place
    else (dnExpand d place).map fun (_, n) => place + n
  | .other _ => some place

/-- What `proc_answer` leaves, where it has read a record, and how far it has gone. -/
structure Decoding where
  rptr : ResRQ
  ttl : UInt32
  verdict : Verdict
  places : List Nat
  accesses : List Access

def Decoding.from (decoding : Decoding) (place : Nat) (accesses : List Access) : Decoding :=
  { decoding with places := place :: decoding.places, accesses := accesses ++ decoding.accesses }

/-- The loop of `proc_answer`, with `rptr->ttl`. -/
def loop (d : Datagram) (origtype : RType) : Nat → Proc → UInt32 → Nat → Decoding
  | 0, proc, ttl, _ => ⟨proc.rptr, ttl, .answers proc.ans, [], []⟩
  | count + 1, proc, ttl, cp =>
    if d.rc ≤ cp then ⟨proc.rptr, ttl, .answers proc.ans, [], []⟩
    else
      match dnExpand d cp with
      | none => ⟨proc.rptr, ttl, .answers proc.ans, [], []⟩
      | some (owner, n) =>
        let header := .hostbuf (hostLen + 1) :: .packet (cp + n) 10 :: domainWrites res owner
        let ttl := getint32 d (cp + n + 4)
        let record := decode dnExpand d owner (cp + n)
        if owned res origtype proc.rptr proc.acceptable record then
          match proc.keep res record with
          | none => ⟨proc.rptr, ttl, .malicious, [cp], header⟩
          | some next =>
            let accesses := header ++ keepAccesses proc (cp + n + 10) record
            match advance dnExpand d proc (cp + n + 10) record with
            | none => ⟨next.rptr, ttl, .answers next.ans, [cp], accesses⟩
            | some place => (loop d origtype count next ttl place).from cp accesses
        else ⟨proc.rptr, ttl, .strange, [cp], header⟩

/-- The name that was asked, as it is copied to `tmphost`. -/
def tmphost (rptr : ResRQ) : Option Text :=
  match rptr.type, rptr.name with
  | .a, some name => some name
  | .ptr, _ => some (arpa rptr.addr)
  | _, _ => none

/-- `proc_answer`, with `rptr->ttl`. -/
def procDatagram (rptr : ResRQ) (ttl : UInt32) (d : Datagram) : Decoding :=
  let scans := [.addr (rptr.he.addrs.length + 1), .alias (rptr.he.hAliases.length + 1)]
  if d.qdcount ≠ 1 then ⟨rptr, ttl, .broken, [], scans⟩
  else
    match dnExpand d headerSize with
    | none => ⟨rptr, ttl, .broken, [], scans⟩
    | some (hostbuf, n) =>
      let question := scans ++ [.hostbuf (hostLen + 1), .packet (headerSize + n) 4]
      match tmphost rptr with
      | none => ⟨rptr, ttl, .broken, [], question⟩
      | some name =>
        let question := question ++ [.tmphost (name.length + 1)]
        let type := rtype (getint16 d (headerSize + n))
        let classIn := getint16 d (headerSize + n + 2) == 1
        if asked rptr (hostbuf, type, classIn) = some true then
          let decoding := loop res dnExpand d rptr.type d.ancount ⟨rptr, [], rptr.he.addrs.length, 0⟩ ttl
            (headerSize + n + 4)
          { decoding with accesses := question ++ decoding.accesses }
        else ⟨rptr, ttl, .strange, [], question⟩

/-- What `get_res` writes to the filtered list of addresses. -/
def filterAccesses (rptr : ResRQ) : Verdict → List Access
  | .answers (_ + 1) =>
    if rptr.type = .a ∧ rptr.hasRev = true ∧ rptr.he.hName ≠ none ∧ rptr.heRev.hName ≠ none ∧
        rptr.heRev.addrs ≠ [] ∧ matching rptr ≠ [] then
      [.filtered ((matching rptr).length + 1)]
    else []
  | _ => []

/-- All that a datagram from a server that was asked makes `get_res` read and write behind its header. -/
def accesses (rptr : ResRQ) (ttl : UInt32) (d : Datagram) : List Access :=
  if d.rcode ≠ 0 ∨ d.ancount = 0 then []
  else
    let decoding := procDatagram res dnExpand rptr ttl d
    decoding.accesses ++ filterAccesses decoding.rptr decoding.verdict

/-! Every datagram is the packet of some records -/

/-- Where the loop goes on, a name that cannot be decoded is that of an alias without room, which nothing
looks at. -/
theorem advance_some (origtype : RType)
    (onward : advance dnExpand d proc (cp + 10) (decode dnExpand d owner cp) = some place) :
    ∃ record, owned res origtype proc.rptr proc.acceptable record =
        owned res origtype proc.rptr proc.acceptable (decode dnExpand d owner cp) ∧
      proc.keep res record = proc.keep res (decode dnExpand d owner cp) ∧
      ∀ rest, met (record :: rest) = record :: met rest := by
  unfold decode at onward ⊢
  split at onward
  · exact ⟨_, rfl, rfl, fun _ => rfl⟩
  · rw [advance, Option.map_eq_some_iff] at onward
    obtain ⟨pair, read, -⟩ := onward
    rw [read]
    exact ⟨_, rfl, rfl, fun _ => rfl⟩
  · cases read : dnExpand d (cp + 10) with
    | some pair => exact ⟨_, rfl, rfl, fun _ => rfl⟩
    | none =>
      simp only [advance, read, Option.map_none] at onward
      split at onward
      next full =>
        refine ⟨.cname owner (some []), rfl, ?_, fun _ => rfl⟩
        simp only [Proc.keep, if_pos full]
      next => cases onward
  · exact ⟨_, rfl, rfl, fun _ => rfl⟩

theorem met_single (record : Record) : met [record] = [record] := by
  cases record with
  | ptr owner target => cases target <;> rfl
  | cname owner target => cases target <;> rfl
  | _ => rfl

/-- The loop does with the bytes what it does with some records. -/
theorem loop_records (d : Datagram) (origtype : RType) (count : Nat) (proc : Proc) (ttl : UInt32) (cp : Nat) :
    ∃ records : List Record, records.length ≤ count ∧ procRecords res origtype proc (met records) =
      ((loop res dnExpand d origtype count proc ttl cp).rptr,
        (loop res dnExpand d origtype count proc ttl cp).verdict) := by
  induction count generalizing proc ttl cp with
  | zero => exact ⟨[], Nat.le_refl 0, rfl⟩
  | succ count ih =>
    rw [loop]
    split
    · exact ⟨[], Nat.zero_le _, rfl⟩
    · split
      · exact ⟨[], Nat.zero_le _, rfl⟩
      next owner n read =>
        dsimp only
        split
        next owns =>
          cases keeps : proc.keep res (decode dnExpand d owner (cp + n)) with
          | none =>
            refine ⟨[decode dnExpand d owner (cp + n)], Nat.succ_le_succ (Nat.zero_le _), ?_⟩
            rw [met_single, procRecords, if_pos owns, keeps]
          | some next =>
            cases onward : advance dnExpand d proc (cp + n + 10) (decode dnExpand d owner (cp + n)) with
            | none =>
              refine ⟨[decode dnExpand d owner (cp + n)], Nat.succ_le_succ (Nat.zero_le _), ?_⟩
              rw [met_single, procRecords, if_pos owns, keeps]
              rfl
            | some place =>
              obtain ⟨records, short, same⟩ := ih next (getint32 d (cp + n + 4)) place
              obtain ⟨record, owner', kept, stays⟩ := advance_some res dnExpand origtype onward
              refine ⟨record :: records, Nat.succ_le_succ short, ?_⟩
              rw [stays, procRecords, owner', if_pos owns, kept, keeps]
              exact same
        next owns =>
          refine ⟨[decode dnExpand d owner (cp + n)], Nat.succ_le_succ (Nat.zero_le _), ?_⟩
          rw [met_single, procRecords, if_neg owns]

theorem asked_isSome (rptr : ResRQ) (question : Text × RType × Bool) :
    (asked rptr question).isSome = (tmphost rptr).isSome := by
  unfold asked tmphost
  dsimp only
  cases rptr.type with
  | a => cases rptr.name <;> rfl
  | _ => rfl

/-- So what `proc_answer` makes of a datagram it makes of a packet with as many questions and answers. -/
theorem procDatagram_packet (sin : InAddr) (id : Nat) (rcode : Rcode) (rptr : ResRQ) (ttl : UInt32)
    (d : Datagram) : ∃ question records,
      procAnswer res rptr ⟨sin, id, rcode, d.qdcount, d.ancount, question, records⟩ =
        ((procDatagram res dnExpand rptr ttl d).rptr, (procDatagram res dnExpand rptr ttl d).verdict) := by
  unfold procAnswer procDatagram
  split
  · exact ⟨none, [], rfl⟩
  · cases dnExpand d headerSize with
    | none => exact ⟨none, [], rfl⟩
    | some pair =>
      obtain ⟨hostbuf, n⟩ := pair
      generalize is : (hostbuf, rtype (getint16 d (headerSize + n)),
        getint16 d (headerSize + n + 2) == 1) = question
      have known := asked_isSome rptr question
      cases copied : tmphost rptr with
      | none =>
        rw [copied, Option.isSome_none, Option.isSome_eq_false_iff, Option.isNone_iff_eq_none] at known
        exact ⟨some question, [], by simp only [Option.bind_some, known]⟩
      | some name =>
        obtain ⟨records, short, same⟩ := loop_records res dnExpand d rptr.type d.ancount
          ⟨rptr, [], rptr.he.addrs.length, 0⟩ ttl (headerSize + n + 4)
        refine ⟨some question, records, ?_⟩
        rw [copied, Option.isSome_some] at known
        obtain ⟨right, asks⟩ := Option.isSome_iff_exists.mp known
        simp only [is, Option.bind_some, asks]
        cases right with
        | false => rfl
        | true =>
          rw [if_pos rfl, ← same, Packet.answers, List.take_of_length_le short]

end SolidIrcd.Dns
