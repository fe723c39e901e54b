import SolidIrcd.Dns.Confirm
import SolidIrcd.Dns.Datagram

/-! When the parser of replies stays within the datagram and its arrays. -/

namespace SolidIrcd.Dns

open Scan (Text)

variable (res : Res) (dnExpand : DnExpand)

def Within (d : Datagram) (accesses : List Access) : Prop := ∀ access ∈ accesses, access.InBounds d

/-- A name without dots leaves room for one where the default domain is put behind it. -/
def Dotted (name : Text) : Prop := '.' ∉ name → res.defnames = true → name.length < hostLen

/-- The answer has fewer matching addresses than the list of them has places. -/
def Sparse (proc : Proc) : Prop :=
  0 < proc.ans → proc.rptr.type = .a → proc.rptr.hasRev = true → proc.rptr.he.hName ≠ none →
    proc.rptr.heRev.hName ≠ none → (matching proc.rptr).length < maxAddrs

/-- Each record that the loop comes to lies in the datagram. -/
def Fits (d : Datagram) (origtype : RType) : Nat → Proc → Nat → Prop
  | 0, proc, _ => Sparse proc
  | count + 1, proc, cp =>
    if d.rc ≤ cp then Sparse proc
    else
      match dnExpand d cp with
      | none => Sparse proc
      | some (owner, n) =>
        let record := decode dnExpand d owner (cp + n)
        cp + n + 10 ≤ d.rc ∧ Dotted res owner ∧
          (owned res origtype proc.rptr proc.acceptable record = true →
            ∀ next, proc.keep res record = some next →
              (record.address.isSome → proc.adr < maxAddrs → cp + n + 14 ≤ d.rc) ∧
                match advance dnExpand d proc (cp + n + 10) record with
                | none => Sparse next
                | some cp => Fits d origtype count next cp)

/-- The answers are not looked at, or there is a place in the request for another address, its name leaves room for the
end of it, and the question and the records lie in the datagram. -/
def FitsReply (rptr : ResRQ) (d : Datagram) : Prop :=
  d.rcode = 0 → d.ancount ≠ 0 → rptr.he.addrs.length < maxAddrs ∧
    (d.qdcount = 1 → ∀ hostbuf n, dnExpand d headerSize = some (hostbuf, n) →
      headerSize + n + 4 ≤ d.rc ∧
        (∀ name, rptr.type = .a → rptr.name = some name → name.length < hostLen) ∧
          (asked rptr (hostbuf, rtype (getint16 d (headerSize + n)), getint16 d (headerSize + n + 2) == 1) = some true →
            Fits res dnExpand d rptr.type d.ancount ⟨rptr, [], rptr.he.addrs.length, 0⟩ (headerSize + n + 4)))

section

variable {res dnExpand}

theorem domainWrites_inBounds (d : Datagram) (name : Text) :
    Within d (domainWrites res name) ↔ Dotted res name := by
  unfold domainWrites Dotted
  split
  · rename_i applies
    have last : hostLen = 63 := rfl
    constructor
    · intro all _ _
      have first : name.length + 2 ≤ hostLen + 1 := all _ (.head _)
      omega
    · intro short access member
      have room := short applies.1 applies.2
      rcases List.mem_cons.mp member with rfl | rest
      · exact (by omega : name.length + 2 ≤ hostLen + 1)
      · split at rest
        · simp only [List.mem_cons, List.not_mem_nil, or_false] at rest
          rcases rest with rfl | rfl
          · exact (by omega : hostLen - (name.length + 1) ≤ hostLen + 1)
          · exact Nat.le_refl _
        · cases rest
  · rename_i unused
    exact ⟨fun _ plain names => absurd ⟨plain, names⟩ unused, fun _ _ member => absurd member List.not_mem_nil⟩

theorem keepAccesses_inBounds (d : Datagram) (proc : Proc) (place : Nat) (record : Record)
    (names : ∀ owner target, record = .cname owner (some target) → target.length ≤ hostLen) :
    Within d (keepAccesses proc place record) ↔
      (∀ owner dr, record = .a owner dr → proc.adr < maxAddrs → place + 4 ≤ d.rc) := by
  cases record with
  | a owner dr =>
    unfold keepAccesses
    constructor
    · intro all _ _ _ room
      rw [if_pos room] at all
      exact all _ (.head _)
    · intro fits access member
      by_cases room : proc.adr < maxAddrs
      · rw [if_pos room] at member
        simp only [List.mem_cons, List.not_mem_nil, or_false] at member
        rcases member with rfl | rfl
        · exact fits owner dr rfl room
        · exact room
      · rw [if_neg room] at member
        cases member
  | ptr owner target =>
    refine ⟨fun _ _ _ same => (nomatch same), fun _ access member => ?_⟩
    cases target with
    | none => cases member
    | some target =>
      rcases List.mem_cons.mp member with rfl | rest
      · exact Nat.le_refl _
      · split at rest
        · rename_i room
          rw [List.mem_singleton.mp rest]
          exact Nat.succ_le_succ room.2
        · cases rest
  | cname owner target =>
    refine ⟨fun _ _ _ same => (nomatch same), fun _ access member => ?_⟩
    simp only [keepAccesses] at member
    split at member
    · cases member
    · rename_i room
      rcases List.mem_cons.mp member with rfl | rest
      · exact Nat.succ_le_succ (Nat.lt_of_not_le room)
      · cases target with
        | none => cases rest
        | some target =>
          rcases List.mem_cons.mp rest with rfl | last
          · exact Nat.le_refl _
          · split at last
            · rename_i place
              rw [List.mem_singleton.mp last]
              exact ⟨place, Nat.succ_le_succ (names owner target rfl)⟩
            · cases last
  | other owner => exact ⟨fun _ _ _ same => (nomatch same), fun _ _ member => absurd member List.not_mem_nil⟩

/-- The list of accesses of an outcome, with those of `get_res`. -/
theorem filterAccesses_inBounds (d : Datagram) (proc : Proc) :
    Within d (filterAccesses proc.rptr (.answers proc.ans)) ↔ Sparse proc := by
  unfold filterAccesses Sparse
  cases ans : proc.ans with
  | zero => exact ⟨fun _ none => absurd none (Nat.lt_irrefl 0), fun _ _ member => absurd member List.not_mem_nil⟩
  | succ ans =>
    dsimp only
    constructor
    · intro all _ type hasRev hName heRev
      by_cases none : matching proc.rptr = []
      · rw [none]
        decide
      · have reverse : proc.rptr.heRev.addrs ≠ [] := by
          obtain ⟨addr, rest, same⟩ := List.exists_cons_of_ne_nil none
          have inside := (List.mem_filter.mp (same ▸ List.mem_cons_self : addr ∈ matching proc.rptr)).2
          exact List.ne_nil_of_mem (by simpa using inside)
        rw [if_pos ⟨type, hasRev, hName, heRev, reverse, none⟩] at all
        exact all _ (.head _)
    · intro sparse access member
      split at member
      · rename_i filters
        rw [List.mem_singleton.mp member]
        exact sparse (Nat.succ_pos _) filters.1 filters.2.1 filters.2.2.1 filters.2.2.2.1
      · cases member

theorem within_append {d : Datagram} {first second : List Access} :
    Within d (first ++ second) ↔ Within d first ∧ Within d second :=
  List.forall_mem_append

theorem header_inBounds (d : Datagram) (owner : Text) (place : Nat) :
    Within d (.hostbuf (hostLen + 1) :: .packet place 10 :: domainWrites res owner) ↔
      place + 10 ≤ d.rc ∧ Dotted res owner := by
  rw [← domainWrites_inBounds d owner]
  constructor
  · exact fun all => ⟨all _ (.tail _ (.head _)), fun access member => all access (.tail _ (.tail _ member))⟩
  · rintro ⟨place, rest⟩ access (_ | ⟨_, _ | ⟨_, member⟩⟩)
    · exact Nat.le_refl _
    · exact place
    · exact rest access member

theorem decode_names (expands : Expands dnExpand) (d : Datagram) (owner : Text) (place : Nat) (name target : Text)
    (is : decode dnExpand d owner place = .cname name (some target)) : target.length ≤ hostLen := by
  unfold decode at is
  split at is
  · cases is
  · cases is
  · obtain ⟨_, expanded⟩ := Record.cname.inj is
    obtain ⟨pair, read, rfl⟩ := Option.map_eq_some_iff.mp expanded
    exact (expands d _ pair.1 pair.2 read).2.2
  · cases is

/-- The loop, with what `get_res` does of its outcome. -/
theorem loop_inBounds (expands : Expands dnExpand) (d : Datagram) (origtype : RType) (count : Nat) (proc : Proc)
    (ttl : UInt32) (cp : Nat) :
    Within d ((loop res dnExpand d origtype count proc ttl cp).accesses ++
        filterAccesses (loop res dnExpand d origtype count proc ttl cp).rptr
          (loop res dnExpand d origtype count proc ttl cp).verdict) ↔
      Fits res dnExpand d origtype count proc cp := by
  induction count generalizing proc ttl cp with
  | zero => exact filterAccesses_inBounds d proc
  | succ count ih =>
    rw [loop, Fits]
    split
    · exact filterAccesses_inBounds d proc
    · cases read : dnExpand d cp with
      | none => exact filterAccesses_inBounds d proc
      | some name =>
        obtain ⟨owner, n⟩ := name
        dsimp only
        generalize records : decode dnExpand d owner (cp + n) = record
        rw [← and_assoc, ← header_inBounds]
        by_cases owns : owned res origtype proc.rptr proc.acceptable record = true
        · rw [if_pos owns]
          cases keeps : proc.keep res record with
          | none =>
            dsimp only [filterAccesses]
            rw [List.append_nil]
            exact (and_iff_left fun _ _ same => by cases same).symm
          | some next =>
            have data := keepAccesses_inBounds d proc (cp + n + 10) record fun name target is =>
              decode_names expands d owner (cp + n) name target (records.trans is)
            have single : Within d (keepAccesses proc (cp + n + 10) record) ↔
                (record.address.isSome = true → proc.adr < maxAddrs → cp + n + 14 ≤ d.rc) := by
              rw [data]
              cases record with
              | a owner dr =>
                cases dr with
                | none => simp [Proc.keep] at keeps
                | some dr => exact ⟨fun all _ => all owner _ rfl, fun fits _ _ _ => fits rfl⟩
              | _ =>
                constructor
                · intro _ none
                  cases none
                · intro _ _ _ same
                  cases same
            have onwards (P : Proc → Prop) :
                (owned res origtype proc.rptr proc.acceptable record = true → ∀ other, some next = some other → P other) ↔
                  P next :=
              ⟨fun all => all owns next rfl, fun holds _ other same => Option.some.inj same ▸ holds⟩
            rw [onwards]
            cases onward : advance dnExpand d proc (cp + n + 10) record with
            | none => rw [within_append, within_append, single, filterAccesses_inBounds, and_assoc]
            | some cp' =>
              dsimp only [Decoding.from]
              rw [← ih next (getint32 d (cp + n + 4)) cp', List.append_assoc, List.append_assoc,
                within_append, within_append, single]
        · rw [if_neg owns]
          dsimp only [filterAccesses]
          rw [List.append_nil]
          exact (and_iff_left fun owns' => absurd owns' owns).symm

theorem within_cons {d : Datagram} {first : Access} {rest : List Access} :
    Within d (first :: rest) ↔ first.InBounds d ∧ Within d rest :=
  List.forall_mem_cons

theorem within_nil {d : Datagram} : Within d [] := List.forall_mem_nil _

theorem length_arpa (ip : InAddr) : (arpa ip).length < hostLen := by
  have octet (b : UInt8) : (Decimal.print b.toNat).length ≤ 10 := by
    have small := b.toNat_lt
    apply Decimal.length_print_le
    · omega
    · have : Decimal.intMax = 2147483647 := rfl
      omega
  have first := octet ip.b0
  have second := octet ip.b1
  have third := octet ip.b2
  have fourth := octet ip.b3
  have tail : ".in-addr.arpa".toList.length = 13 := rfl
  have : hostLen = 63 := rfl
  simp only [arpa, List.length_append, List.length_cons, tail]
  omega

theorem tmphost_short (rptr : ResRQ) :
    (∀ name, tmphost rptr = some name → name.length < hostLen) ↔
      ∀ name, rptr.type = .a → rptr.name = some name → name.length < hostLen := by
  constructor
  · intro all name type named
    apply all
    simp only [tmphost, type, named]
  · intro short name copied
    unfold tmphost at copied
    split at copied
    · rename_i named type asks
      exact Option.some.inj copied ▸ short _ type asks
    · exact Option.some.inj copied ▸ length_arpa rptr.addr
    · cases copied

/-- Every access for a reply is in bounds just where the reply fits. -/
theorem accesses_inBounds (expands : Expands dnExpand) (d : Datagram) (rptr : ResRQ) (terminated : Terminated rptr)
    (ttl : UInt32) : Within d (accesses res dnExpand rptr ttl d) ↔ FitsReply res dnExpand rptr d := by
  have scans : Within d [.addr (rptr.he.addrs.length + 1), .alias (rptr.he.hAliases.length + 1)] ↔
      rptr.he.addrs.length < maxAddrs := by
    rw [within_cons, within_cons]
    exact ⟨fun all => all.1, fun room => ⟨room, terminated, within_nil⟩⟩
  have broken : filterAccesses rptr .broken = [] := rfl
  have strange : filterAccesses rptr .strange = [] := rfl
  unfold accesses FitsReply
  split
  next skips =>
    refine ⟨fun _ right some' => ?_, fun _ => within_nil⟩
    exact (skips.resolve_left (not_not.mpr right) |> some').elim
  next reads =>
  rw [not_or, not_not] at reads
  simp only [reads.1, reads.2, true_imp_iff, ne_eq, not_false_eq_true]
  unfold procDatagram
  rw [← tmphost_short]
  by_cases single : d.qdcount = 1
  · rw [if_neg (not_not.mpr single)]
    cases read : dnExpand d headerSize with
    | none =>
      dsimp only
      rw [broken, List.append_nil, scans]
      exact (and_iff_left fun _ _ _ same => nomatch same).symm
    | some question =>
      obtain ⟨hostbuf, n⟩ := question
      have header : Within d [.hostbuf (hostLen + 1), .packet (headerSize + n) 4] ↔ headerSize + n + 4 ≤ d.rc := by
        rw [within_cons, within_cons]
        exact ⟨fun all => all.2.1, fun fits => ⟨Nat.le_refl _, fits, within_nil⟩⟩
      have only (P : Text → Nat → Prop) :
          (d.qdcount = 1 → ∀ host m, some (hostbuf, n) = some (host, m) → P host m) ↔ P hostbuf n :=
        ⟨fun all => all single hostbuf n rfl, fun holds _ host m same => by
          obtain ⟨rfl, rfl⟩ := Prod.mk.inj (Option.some.inj same)
          exact holds⟩
      rw [only]
      cases copied : tmphost rptr with
      | none =>
        dsimp only
        rw [broken, List.append_nil, within_append, scans, header]
        refine and_congr_right fun _ => (and_iff_left ⟨fun _ same => (nomatch same), fun asks => ?_⟩).symm
        have none := asked_isSome rptr (hostbuf, rtype (getint16 d (headerSize + n)), getint16 d (headerSize + n + 2) == 1)
        rw [asks, copied] at none
        cases none
      | some name =>
        have copy : Within d [.tmphost (name.length + 1)] ↔ ∀ other, some name = some other → other.length < hostLen := by
          rw [within_cons]
          exact ⟨fun all other same => Option.some.inj same ▸ all.1, fun short => ⟨short name rfl, within_nil⟩⟩
        dsimp only
        by_cases same : asked rptr (hostbuf, rtype (getint16 d (headerSize + n)),
            getint16 d (headerSize + n + 2) == 1) = some true
        · rw [if_pos same]
          dsimp only
          rw [List.append_assoc, within_append, within_append, within_append, scans, header, copy, loop_inBounds expands]
          simp only [same, true_imp_iff, and_assoc]
        · rw [if_neg same, strange, List.append_nil, within_append, within_append, scans,
            header, copy]
          simp only [same, false_imp_iff, and_true, and_assoc]
  · rw [if_pos single]
    dsimp only
    rw [broken, List.append_nil, scans]
    exact (and_iff_left fun only => absurd only single).symm

/-- Its name is decoded, where it has one. -/
def Decoded : Record → Prop
  | .ptr _ none | .cname _ none => False
  | _ => True

/-! Every request of a run -/

theorem getRes_outstanding {P : ResRQ → Prop} (res : Res) (packet : Packet) (steady : Steady P)
    (replies : ∀ rptr, P rptr → P (procAnswer res rptr packet).1)
    (forward : ∀ state rptr hName, P rptr → P (relookup state rptr hName)) (all : Outstanding P state)
    (sending : Option Sending) : Outstanding P (getRes res state packet sending).1 := by
  cases answer : answered res state packet with
  | none => exact (getRes_unanswered res steady replies all answer sending).1
  | some rptr =>
    obtain ⟨after, ans, verdict, accepts⟩ := getRes_answered answer sending
    obtain ⟨found, _⟩ := answered_spec answer
    have holds := replies rptr (all rptr (List.mem_of_find?_eq_some found))
    rw [verdict] at holds
    rw [accepts]
    exact all.accept steady (fun hName => forward state after hName holds) sending

/-- A new query has no aliases yet, and a full list of addresses; what sending it again, a reply and the second lookup
keep holds of every outstanding request. -/
structure Lasting (res : Res) (P : ResRQ → Prop) : Prop where
  steady : Steady P
  replies : ∀ packet rptr, P rptr → P (procAnswer res rptr packet).1
  forward : ∀ state rptr hName, P rptr → P (relookup state rptr hName)
  fresh : ∀ rptr, rptr.he.hAliases = [] → rptr.he.hAddrList.length = maxAddrs → P rptr

theorem Lasting.perform {P : ResRQ → Prop} (lasting : Lasting res P) (event : Event)
    (all : Outstanding P world.resolver) : Outstanding P (perform res ip world event).resolver := by
  have query (state : Resolver) (rptr : ResRQ) (empty : rptr.he.hAliases = [])
      (room : rptr.he.hAddrList.length = maxAddrs) (sending : Option Sending) :
      P (queryName rptr state.hErrno sending).1 :=
    lasting.steady _ _ (queryName_resent rptr state.hErrno sending) (lasting.fresh rptr empty room)
  cases event with
  | addConnection cptr sending =>
    obtain ⟨requests, _, _⟩ := findCacheNumber_spec world.resolver (ip cptr)
    simp only [Dns.perform, gethostByaddr]
    rcases step : findCacheNumber world.resolver (ip cptr) with ⟨middle, hit⟩
    rw [step] at requests
    have middle' : Outstanding P middle := by
      unfold Outstanding
      rw [requests]
      exact all
    cases hit with
    | some cp => exact middle'
    | none => exact Outstanding.addRequest middle' (query middle _ rfl List.length_set sending)
  | gethostByname name lp sending => exact Outstanding.addRequest all (query world.resolver _ rfl rfl sending)
  | getRes packet sending =>
    have after := getRes_outstanding res packet lasting.steady (lasting.replies packet) lasting.forward all sending
    simp only [Dns.perform]
    rcases result : getRes res world.resolver packet sending with ⟨resolver, lp, hp⟩
    rw [result] at after
    cases lp with
    | none => exact after
    | some lp =>
      cases lp with
      | client cptr => exact after.delQueries _
      | connect aconn => exact after
      | conf aconn => exact after
  | timeoutQuery address sending => exact all.timeoutQuery lasting.steady address sending
  | delQueries cp => exact all.delQueries cp
  | remCache ocp => exact all

theorem Lasting.run {P : ResRQ → Prop} (lasting : Lasting res P)
    (run : (lookups res ip).Run Machine.Any World.start world) : Outstanding P world.resolver := by
  apply run.invariant (fun world => Outstanding P world.resolver)
  · exact fun world event _ _ all => lasting.perform event all
  · exact fun _ member => absurd member List.not_mem_nil

theorem lasting_terminated (res : Res) : Lasting res Terminated where
  steady := terminated_steady
  replies packet _ terminated := procAnswer_terminated terminated packet
  forward _ _ _ _ := Nat.zero_lt_succ 9
  fresh rptr empty _ := by
    unfold Terminated
    rw [empty]
    exact Nat.zero_lt_succ 9

/-- Whatever request is outstanding in a run, a datagram is parsed within its bytes and the arrays just where it
fits. -/
theorem parsing_inBounds (expands : Expands dnExpand) (run : (lookups res ip).Run Machine.Any World.start world)
    (outstanding : rptr ∈ world.resolver.requests) (ttl : UInt32) (d : Datagram) :
    Within d (accesses res dnExpand rptr ttl d) ↔ FitsReply res dnExpand rptr d :=
  accesses_inBounds expands d rptr ((lasting_terminated res).run run rptr outstanding) ttl

end

/-- `dn_expand` where every name is the root, which is one byte and has no text. -/
private def expandRoot : DnExpand := fun d place => if place < d.rc ∧ d.buf place = 0 then some ([], 1) else none

private theorem expandRoot_expands : Expands expandRoot := by
  intro d place name n read
  unfold expandRoot at read
  split at read
  · rename_i inside
    obtain ⟨rfl, rfl⟩ := Prod.mk.inj (Option.some.inj read)
    exact ⟨Nat.one_pos, inside.1, Nat.zero_le _⟩
  · cases read

/-- A header for one question and one record, and zeros. -/
private def rootQuestion (rc : Nat) : Datagram := ⟨fun place => if place = 5 ∨ place = 7 then 1 else 0, rc⟩

private def stub : Res := ⟨[⟨127, 0, 0, 1⟩], false, [], 4⟩

private def asker : ClientId → InAddr := fun _ => ⟨192, 0, 2, 7⟩

private def waiting : World := perform stub asker .start (.addConnection 0 (some ⟨1, 1⟩))

private theorem waiting_run : (lookups stub asker).Run Machine.Any World.start waiting :=
  Machine.Run.of_list [Event.addConnection 0 (some ⟨1, 1⟩)] (.refl _) ⟨trivial, trivial, trivial⟩

private def reverseLookup : ResRQ :=
  (queryName { makeRequest World.start.resolver (.client 0) with
    type := .ptr, addr := asker 0, he := { Hent.blank with hAddrList := Hent.blank.hAddrList.set 0 (asker 0) } }
    .success (some ⟨1, 1⟩)).1

private theorem reverseLookup_waits : reverseLookup ∈ waiting.resolver.requests := .head _

/-- A datagram that ends behind the name of its question: the type and the class are read behind its end. -/
theorem parsing_astray :
    ¬ ∀ (res : Res) (ip : ClientId → InAddr) (dnExpand : DnExpand) (world : World) (rptr : ResRQ)
      (ttl : UInt32) (d : Datagram),
      Expands dnExpand → (lookups res ip).Run Machine.Any World.start world → rptr ∈ world.resolver.requests →
        headerSize < d.rc → d.rc ≤ headerSize + maxPacket → Within d (accesses res dnExpand rptr ttl d) := by
  intro claim
  have within := claim stub asker expandRoot waiting reverseLookup 0 (rootQuestion 13) expandRoot_expands waiting_run
    reverseLookup_waits (Nat.lt_succ_self 12) (Nat.le_add_right 13 1023)
  have question : Access.packet 13 4 ∈ accesses stub expandRoot reverseLookup 0 (rootQuestion 13) := by decide
  exact absurd (within _ question) (Nat.not_succ_le_self 13 ∘ (Nat.le_trans (Nat.le_add_right 14 3) ·))

theorem parsing_inBounds_question :
    Within (rootQuestion 17) (accesses stub expandRoot reverseLookup 0 (rootQuestion 17)) := by
  apply (parsing_inBounds expandRoot_expands waiting_run reverseLookup_waits 0 (rootQuestion 17)).mpr
  refine fun _ _ => ⟨by decide, fun _ hostbuf n read => ?_⟩
  obtain ⟨rfl, rfl⟩ := Prod.mk.inj (Option.some.inj (show some ([], 1) = some (hostbuf, n) from read))
  refine ⟨Nat.le_refl 17, fun _ type => (nomatch type), fun asks => ?_⟩
  exact absurd asks (by decide)

end SolidIrcd.Dns
