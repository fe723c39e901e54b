import SolidIrcd.Dns.Entries
import SolidIrcd.Dns.Rejected

/-! When the answers of a reply are decoded record by record, with the times they live. -/

namespace SolidIrcd.Dns

open Scan (Text)
open SignExtend

/-! Fields of several bytes, read from bytes with a sign -/

theorem getint32_spread (d : Datagram) (place : Nat) : (getint32 d place).toNat = spread (d.long place) := by
  have b0 := (d.buf place).toNat_lt
  have b1 := (d.buf (place + 1)).toNat_lt
  have b2 := (d.buf (place + 2)).toNat_lt
  have b3 := (d.buf (place + 3)).toNat_lt
  simp only [getint32, signed_step, signed_toNat, spread, Datagram.long, Datagram.count, Nat.add_assoc, Nat.reduceAdd]
  generalize (d.buf place).toNat = x0 at *
  generalize (d.buf (place + 1)).toNat = x1 at *
  generalize (d.buf (place + 2)).toNat = x2 at *
  generalize (d.buf (place + 3)).toNat = x3 at *
  split_ifs <;> omega

theorem getint16_toNat (d : Datagram) (place : Nat) : (getint16 d place).toNat =
    if (d.buf (place + 1)).toNat < 128 then d.count place else 0xFF00 + (d.buf (place + 1)).toNat := by
  have b0 := (d.buf place).toNat_lt
  have b1 := (d.buf (place + 1)).toNat_lt
  have shift : ((d.buf place).toInt8.toInt16.toUInt16 <<< 8).toNat = (d.buf place).toNat <<< 8 := by
    rw [UInt16.toNat_shiftLeft, signed_short]
    simp only [Nat.shiftLeft_eq]
    have eight : UInt16.toNat 8 % 16 = 8 := rfl
    rw [eight]
    split <;> omega
  rw [getint16, UInt16.toNat_or, shift, signed_short]
  split
  · rw [← Nat.shiftLeft_add_eq_or_of_lt b1, Nat.shiftLeft_eq]
    rfl
  · exact or_ones b0 b1

/-- A small field is read as it is. -/
theorem getint16_eq_iff (d : Datagram) (place small : Nat) (below : small < 128) :
    getint16 d place = UInt16.ofNat small ↔ d.count place = small := by
  have b1 := (d.buf (place + 1)).toNat_lt
  rw [← UInt16.toNat_inj, getint16_toNat, UInt16.toNat_ofNat']
  simp only [Datagram.count]
  split <;> omega

theorem rtype_getint16 (d : Datagram) (place : Nat) : rtype (getint16 d place) = rtypeOf (d.count place) := by
  have a := getint16_eq_iff d place 1 (by decide)
  have ptr := getint16_eq_iff d place 12 (by decide)
  have cname := getint16_eq_iff d place 5 (by decide)
  simp only [rtype, rtypeOf, ← a, ← ptr, ← cname]
  rfl

section

variable {res : Res} {dnExpand : DnExpand} {d : Datagram} {rptr : ResRQ} {proc next : Proc} {entry : Entry}

/-! A record where it stands -/

theorem decode_stands (stands : Stands dnExpand d place entry) :
    decode dnExpand d entry.record.owner (place + entry.ownerSize) = entry.record := by
  obtain ⟨-, -, size, -, data⟩ := stands
  rw [decode, rtype_getint16]
  cases is : entry.record with
  | a owner dr =>
    rw [is] at data
    obtain ⟨type, four, rfl⟩ := data
    have length : getint16 d (place + entry.ownerSize + 8) = 4 := (getint16_eq_iff d _ 4 (by decide)).mpr (size.trans four)
    simp only [type, rtypeOf, if_true]
    rw [if_pos length]
    rfl
  | ptr owner target =>
    rw [is] at data
    obtain ⟨type, name, rfl, read⟩ := data
    simp [type, rtypeOf, read, Record.owner]
  | cname owner target =>
    rw [is] at data
    obtain ⟨type, name, rfl, read⟩ := data
    simp [type, rtypeOf, read, Record.owner]
  | other owner =>
    rw [is] at data
    simp only [List.mem_cons, List.not_mem_nil, or_false, not_or] at data
    simp [rtypeOf, data, Record.owner]

def Proc.held (proc : Proc) : Bool × Nat := (proc.rptr.he.hName.isSome, proc.rptr.he.hAliases.length)

/-- Where the loop goes on, that is the next boundary just where the entry is one that it steps over. -/
theorem advance_stands (expands : Expands dnExpand) (stands : Stands dnExpand d place entry) (proc : Proc) :
    ∃ onward, advance dnExpand d proc (place + entry.ownerSize + 10) entry.record = some onward ∧
      (onward = place + entry.length ↔ entry.Steps proc.held) := by
  obtain ⟨-, -, -, -, data⟩ := stands
  unfold Entry.Steps Entry.length
  cases is : entry.record with
  | a owner dr =>
    rw [is] at data
    exact ⟨_, rfl, fun _ => trivial, fun _ => by rw [data.2.1]; omega⟩
  | ptr owner target =>
    rw [is] at data
    obtain ⟨-, name, -, read⟩ := data
    exact ⟨place + entry.ownerSize + 10 + entry.size, by rw [advance, read]; rfl, fun _ => trivial, fun _ => by omega⟩
  | cname owner target =>
    rw [is] at data
    obtain ⟨-, name, -, read⟩ := data
    have some' := (expands _ _ _ _ read).1
    by_cases full : maxAliases - 1 ≤ proc.rptr.he.hAliases.length
    · refine ⟨_, by rw [advance, if_pos full], fun same => ?_, fun room => ?_⟩
      · omega
      · exact absurd full (Nat.not_le.mpr room)
    · refine ⟨place + entry.ownerSize + 10 + entry.size, by rw [advance, if_neg full, read]; rfl,
        fun _ => ?_, fun _ => by omega⟩
      exact Nat.lt_of_not_le full
  | other owner => exact ⟨_, rfl, fun same => by omega, fun none => by dsimp only at none; omega⟩

/-- A record of a reply is kept. -/
theorem keep_stands (res : Res) (stands : Stands dnExpand d place entry) (proc : Proc) :
    ∃ next, proc.keep res entry.record = some next := by
  obtain ⟨-, -, -, -, data⟩ := stands
  cases is : entry.record with
  | a owner dr =>
    rw [is] at data
    obtain ⟨-, -, rfl⟩ := data
    exact ⟨_, rfl⟩
  | ptr owner target =>
    cases target with
    | none => exact ⟨_, rfl⟩
    | some target =>
      simp only [Proc.keep]
      split
      · split <;> exact ⟨_, rfl⟩
      · exact ⟨_, rfl⟩
  | cname owner target =>
    simp only [Proc.keep]
    split <;> exact ⟨_, rfl⟩
  | other owner => exact ⟨_, rfl⟩

/-- One turn of the loop. -/
theorem loop_stands (stands : Stands dnExpand d cp entry)
    (owns : owned res origtype proc.rptr proc.acceptable entry.record = true)
    (keeps : proc.keep res entry.record = some next)
    (onward : advance dnExpand d proc (cp + entry.ownerSize + 10) entry.record = some place) (count : Nat)
    (ttl : UInt32) : ∃ accesses, loop res dnExpand d origtype (count + 1) proc ttl cp =
      (loop res dnExpand d origtype count next (getint32 d (cp + entry.ownerSize + 4)) place).from cp accesses := by
  have inside : ¬ d.rc ≤ cp := by
    have := stands.inside
    unfold Entry.length at this
    omega
  rw [loop, if_neg inside, stands.owner]
  dsimp only
  rw [decode_stands stands, if_pos owns, keeps, onward]
  exact ⟨_, rfl⟩

/-- The loop reads its first record where it begins. -/
theorem loop_places (count : Nat) (proc : Proc) (ttl : UInt32) (cp : Nat) :
    ∀ place ∈ (loop res dnExpand d origtype count proc ttl cp).places.head?, place = cp := by
  intro place first
  cases count with
  | zero => cases first
  | succ count =>
    rw [loop] at first
    split at first
    · cases first
    · split at first
      · cases first
      · dsimp only at first
        split at first
        · split at first
          · exact (Option.some.inj first).symm
          · split at first
            · exact (Option.some.inj first).symm
            · exact (Option.some.inj first).symm
        · exact (Option.some.inj first).symm

/-- The loop knows every name that an alias has led to, and has one alias for each. -/
structure Proc.Knows (proc : Proc) (rptr : ResRQ) (known : List Text) : Prop where
  acceptable : proc.acceptable = known
  aliases : known.length ≤ proc.rptr.he.hAliases.length
  name : proc.rptr.name = rptr.name
  addr : proc.rptr.addr = rptr.addr

theorem Proc.Knows.owns (knows : proc.Knows rptr known) (origtype : RType) (record : Record) :
    owned res origtype proc.rptr proc.acceptable record = owned res origtype rptr known record := by
  rw [knows.acceptable, owned_congr knows.name knows.addr]

theorem Proc.Knows.kept (knows : proc.Knows rptr known) (stands : Stands dnExpand d place entry)
    (steps : entry.Steps proc.held)
    (owns : owned res origtype proc.rptr proc.acceptable entry.record = true)
      (keeps : proc.keep res entry.record = some next) :
    next.Knows rptr (known ++ entry.record.leads) ∧ next.held = entry.record.kept proc.held := by
  have collects := keep_collects owns keeps
  obtain ⟨acceptable, aliases, name, addr⟩ := knows
  obtain ⟨-, -, -, -, data⟩ := stands
  unfold Entry.Steps at steps
  cases is : entry.record with
  | a owner dr =>
    rw [is] at data keeps
    obtain ⟨-, -, rfl⟩ := data
    obtain rfl := Option.some.inj keeps
    refine ⟨⟨?_, ?_, name, addr⟩, ?_⟩
    · simpa [Record.leads] using acceptable
    · simpa [Record.leads] using aliases
    · simp [Proc.held, Record.kept]
  | ptr owner target =>
    rw [is] at data keeps
    obtain ⟨-, target, rfl, -⟩ := data
    simp only [Proc.keep] at keeps
    split at keeps
    next named =>
      split at keeps
      next full =>
        obtain rfl := Option.some.inj keeps
        exact ⟨⟨by simpa [Record.leads] using acceptable, by simpa [Record.leads] using aliases, name, addr⟩,
          by simp [Proc.held, Record.kept, named, full]⟩
      next room =>
        obtain rfl := Option.some.inj keeps
        refine ⟨⟨by simpa [Record.leads] using acceptable, ?_, name, addr⟩, by simp [Proc.held,
          Record.kept, named, Nat.lt_of_not_le room]⟩
        simpa [Record.leads] using aliases.trans (Nat.le_succ _)
    next unnamed =>
      obtain rfl := Option.some.inj keeps
      exact ⟨⟨by simpa [Record.leads] using acceptable, by simpa [Record.leads] using aliases, name, addr⟩,
        by simp [Proc.held, Record.kept, unnamed]⟩
  | cname owner target =>
    rw [is] at data keeps steps
    obtain ⟨-, target, rfl, -⟩ := data
    dsimp only [Proc.held] at steps
    simp only [Proc.keep, if_neg (Nat.not_le.mpr steps)] at keeps
    obtain rfl := Option.some.inj keeps
    have room : proc.acceptable.length < maxAcceptableAns := by
      rw [acceptable]
      exact aliases.trans_lt (steps.trans (by decide))
    refine ⟨⟨?_, ?_, name, addr⟩, by simp [Proc.held, Record.kept]⟩
    · rw [Option.map_some, Option.getD_some, addAcceptableAnswer, if_pos room, acceptable]
      rfl
    · simpa [Record.leads] using aliases
  | other owner =>
    rw [is] at keeps
    obtain rfl := Option.some.inj keeps
    exact ⟨⟨by simpa [Record.leads] using acceptable, by simpa [Record.leads] using aliases, name, addr⟩, rfl⟩

/-- The records of a reply are read where they stand just where every entry in front of another is stepped over. -/
theorem places_iff (expands : Expands dnExpand) {entries : List Entry}
    (lays : Lays dnExpand d cp entries) (knows : proc.Knows rptr known)
    (pertains : Pertains res rptr known (entries.map (·.record))) (ttl : UInt32) :
    (loop res dnExpand d rptr.type entries.length proc ttl cp).places = boundaries cp entries ↔
      Aligned proc.held entries := by
  induction entries generalizing proc cp known ttl with
  | nil => exact ⟨fun _ => trivial, fun _ => rfl⟩
  | cons entry rest ih =>
    obtain ⟨stands, lays⟩ := lays
    obtain ⟨owns, pertains⟩ := pertains
    rw [← knows.owns] at owns
    obtain ⟨next, keeps⟩ := keep_stands res stands proc
    obtain ⟨place, onward, steps_iff⟩ := advance_stands expands stands proc
    obtain ⟨accesses, turn⟩ := loop_stands stands owns keeps onward rest.length ttl
    rw [List.length_cons, turn]
    cases rest with
    | nil => exact ⟨fun _ => trivial, fun _ => rfl⟩
    | cons second rest =>
      rw [boundaries, Aligned, Decoding.from, List.cons.injEq, eq_self, true_and]
      constructor
      · intro places
        have first : ∀ start ∈ (loop res dnExpand d rptr.type (second :: rest).length next
            (getint32 d (cp + entry.ownerSize + 4)) place).places.head?, start = place := loop_places _ _ _ _
        rw [places] at first
        obtain rfl : cp + entry.length = place := first _ rfl
        have steps := steps_iff.mp rfl
        obtain ⟨knows, held⟩ := knows.kept stands steps owns keeps
        rw [ih lays knows pertains, held] at places
        exact ⟨steps, places⟩
      · rintro ⟨steps, aligned⟩
        obtain ⟨knows, held⟩ := knows.kept stands steps owns keeps
        obtain rfl := steps_iff.mpr steps
        rw [ih lays knows pertains, held]
        exact aligned

/-- Then what is collected is what the records say, and the time is that of the last. -/
theorem loop_aligned (expands : Expands dnExpand) {entries : List Entry} (lays : Lays dnExpand d cp entries)
    (knows : proc.Knows rptr known) (pertains : Pertains res rptr known (entries.map (·.record)))
    (aligned : Aligned proc.held entries) (ttl : UInt32) :
    procRecords res rptr.type proc (entries.map (·.record)) =
        ((loop res dnExpand d rptr.type entries.length proc ttl cp).rptr,
          (loop res dnExpand d rptr.type entries.length proc ttl cp).verdict) ∧
      (∃ ans, (loop res dnExpand d rptr.type entries.length proc ttl cp).verdict = .answers ans) ∧
      (loop res dnExpand d rptr.type entries.length proc ttl cp).ttl.toNat =
        (entries.getLast?.map fun final => spread final.ttl).getD ttl.toNat := by
  induction entries generalizing proc cp known ttl with
  | nil => exact ⟨rfl, ⟨_, rfl⟩, rfl⟩
  | cons entry rest ih =>
    obtain ⟨stands, lays⟩ := lays
    obtain ⟨owns, pertains⟩ := pertains
    rw [← knows.owns] at owns
    obtain ⟨next, keeps⟩ := keep_stands res stands proc
    obtain ⟨place, onward, steps_iff⟩ := advance_stands expands stands proc
    have time : (getint32 d (cp + entry.ownerSize + 4)).toNat = spread entry.ttl := by rw [getint32_spread, stands.ttl]
    obtain ⟨accesses, turn⟩ := loop_stands stands owns keeps onward rest.length ttl
    rw [List.length_cons, turn, List.map_cons, procRecords, if_pos owns, keeps]
    dsimp only [Decoding.from]
    cases rest with
    | nil => exact ⟨rfl, ⟨_, rfl⟩, time⟩
    | cons second rest =>
      obtain ⟨steps, aligned⟩ := aligned
      obtain ⟨knows, held⟩ := knows.kept stands steps owns keeps
      obtain rfl := steps_iff.mpr steps
      rw [← held] at aligned
      have later := ih lays knows pertains aligned (getint32 d (cp + entry.ownerSize + 4))
      rw [List.getLast?_cons_cons]
      exact later

/-! What the records say -/

/-- A record that is kept gives its alias, as far as there is room. -/
theorem keep_hAliases (terminated : Terminated proc.rptr) (decoded : Decoded record)
    (keeps : proc.keep res record = some next)
    (rest : List Record) :
    (next.rptr.he.hAliases ++ aliases res next.rptr.he.hName.isSome rest).take (maxAliases - 1) =
      (proc.rptr.he.hAliases ++ aliases res proc.rptr.he.hName.isSome (record :: rest)).take (maxAliases - 1) := by
  have full (more : List Text) (full : maxAliases - 1 ≤ proc.rptr.he.hAliases.length) :
      (proc.rptr.he.hAliases ++ more).take (maxAliases - 1) = proc.rptr.he.hAliases := by
    have same : maxAliases - 1 = proc.rptr.he.hAliases.length := Nat.le_antisymm full (Nat.le_pred_of_lt terminated)
    rw [same, List.take_left]
  cases record with
  | a owner dr =>
    cases dr with
    | none => cases keeps
    | some dr =>
      obtain rfl := Option.some.inj keeps
      simp [aliases]
  | ptr owner target =>
    cases target with
    | none => exact decoded.elim
    | some target =>
      simp only [Proc.keep] at keeps
      split at keeps
      next named =>
        split at keeps
        next none =>
          obtain rfl := Option.some.inj keeps
          rw [full _ none, full _ none]
        next room =>
          obtain rfl := Option.some.inj keeps
          simp [aliases, named]
      next unnamed =>
        obtain rfl := Option.some.inj keeps
        simp [aliases, unnamed]
  | cname owner target =>
    simp only [Proc.keep] at keeps
    split at keeps
    next none =>
      obtain rfl := Option.some.inj keeps
      rw [full _ none, full _ none]
    next room =>
      obtain rfl := Option.some.inj keeps
      simp [aliases]
  | other owner =>
    obtain rfl := Option.some.inj keeps
    rfl

/-- An address is written where the next is due, and the later ones behind it. -/
theorem keep_filled (roomy : Roomy proc.rptr) (inside : proc.adr ≤ maxAddrs) (keeps : proc.keep res record = some next)
    (rest : List InAddr) :
    filled next.rptr.he.hAddrList next.adr rest = filled proc.rptr.he.hAddrList proc.adr (record.address.toList ++ rest) ∧
      next.adr ≤ maxAddrs := by
  cases record with
  | a owner dr =>
    cases dr with
    | none => cases keeps
    | some dr =>
      obtain rfl := Option.some.inj keeps
      by_cases free : proc.adr < maxAddrs
      · simp only [free, if_true, filled, Record.address, Option.toList_some, List.cons_append,
          List.nil_append, List.length_cons]
        refine ⟨?_, free⟩
        have room : proc.adr < proc.rptr.he.hAddrList.length := by rw [roomy]; exact free
        have room' : proc.adr < (proc.rptr.he.hAddrList.set proc.adr dr).length := by rw [List.length_set]; exact room
        rw [List.take_succ_eq_append_getElem room', List.getElem_set_self, List.take_set_of_le (Nat.le_refl _),
          List.drop_set_of_lt (by omega), List.append_assoc, List.singleton_append, Nat.add_assoc, Nat.add_comm 1]
      · simp only [free, if_false, filled, Record.address, Option.toList_some, List.cons_append,
          List.nil_append, List.length_cons]
        refine ⟨?_, inside⟩
        have full : proc.adr = proc.rptr.he.hAddrList.length :=
          (Nat.le_antisymm inside (Nat.le_of_not_lt free)).trans roomy.symm
        have none (more : List InAddr) : (proc.rptr.he.hAddrList.take proc.adr ++ more).take
          maxAddrs = proc.rptr.he.hAddrList := by
          rw [full, List.take_length, ← show proc.rptr.he.hAddrList.length = maxAddrs from roomy, List.take_left]
        rw [none, none, List.drop_eq_nil_of_le (by omega), List.drop_eq_nil_of_le (by omega)]
  | ptr owner target =>
    cases target with
    | none =>
      obtain rfl := Option.some.inj keeps
      exact ⟨rfl, inside⟩
    | some target =>
      simp only [Proc.keep] at keeps
      split at keeps
      · split at keeps <;> (obtain rfl := Option.some.inj keeps; exact ⟨rfl, inside⟩)
      · obtain rfl := Option.some.inj keeps
        exact ⟨rfl, inside⟩
  | cname owner target =>
    simp only [Proc.keep] at keeps
    split at keeps <;> (obtain rfl := Option.some.inj keeps; exact ⟨rfl, inside⟩)
  | other owner =>
    obtain rfl := Option.some.inj keeps
    exact ⟨rfl, inside⟩

/-- All that a request holds when every record has been kept. -/
theorem procRecords_he (terminated : Terminated proc.rptr) (roomy : Roomy proc.rptr) (inside : proc.adr ≤ maxAddrs)
    {records : List Record} (decoded : ∀ record ∈ records, Decoded record)
    (answers : procRecords res origtype proc records = (after, .answers ans)) :
    after.he.hAliases = (proc.rptr.he.hAliases ++ aliases res proc.rptr.he.hName.isSome records).take (maxAliases - 1) ∧
      after.he.hAddrList = filled proc.rptr.he.hAddrList proc.adr (records.filterMap Record.address) := by
  induction records generalizing proc with
  | nil =>
    obtain ⟨rfl, -⟩ := Prod.mk.inj answers
    constructor
    · have short : proc.rptr.he.hAliases.length ≤ maxAliases - 1 := Nat.le_pred_of_lt terminated
      rw [aliases, List.append_nil, List.take_of_length_le short]
    · have short : (proc.rptr.he.hAddrList.take proc.adr).length ≤ maxAddrs := (List.length_take_le _ _).trans inside
      rw [List.filterMap_nil, filled, List.append_nil, List.take_of_length_le short]
      exact (List.take_append_drop _ _).symm
  | cons record rest ih =>
    rw [procRecords] at answers
    split at answers
    next =>
      cases keeps : proc.keep res record with
      | none =>
        rw [keeps] at answers
        cases answers
      | some next =>
        rw [keeps] at answers
        have read := decoded record List.mem_cons_self
        obtain ⟨fixes, -⟩ := keep_fixes keeps
        obtain ⟨addresses, inside'⟩ := keep_filled roomy inside keeps (rest.filterMap Record.address)
        obtain ⟨hAliases, hAddrList⟩ := ih (keep_terminated terminated keeps) (fixes.length.trans roomy) inside'
          (fun record member => decoded record (List.mem_cons_of_mem _ member)) answers
        refine ⟨hAliases.trans (keep_hAliases terminated read keeps rest), (hAddrList.trans addresses).trans ?_⟩
        rw [List.filterMap_cons]
        cases record.address <;> rfl
    next => cases answers

/-- Records of other types do not count. -/
theorem procRecords_sought (proc : Proc) (records : List Record) :
    procRecords res origtype proc (records.filter (·.sought)) = procRecords res origtype proc records := by
  induction records generalizing proc with
  | nil => rfl
  | cons record rest ih =>
    cases record with
    | other owner =>
      rw [List.filter_cons_of_neg (by simp [Record.sought]), ih, procRecords]
      rfl
    | _ =>
      rw [List.filter_cons_of_pos rfl, procRecords, procRecords]
      simp only [ih]

theorem aligned_cons (held : Bool × Nat) (entry : Entry) (steps : entry.Steps held) {rest : List Entry}
    (aligned : Aligned (entry.record.kept held) rest) : Aligned held (entry :: rest) := by
  cases rest with
  | nil => trivial
  | cons second rest => exact ⟨steps, aligned⟩

theorem aligned_sought {entries : List Entry} (aligned : Aligned held entries) : Aligned held (sought entries) := by
  induction entries generalizing held with
  | nil => trivial
  | cons entry rest ih =>
    cases rest with
    | nil => cases is : entry.record.sought <;> simp [sought, is, Aligned]
    | cons second rest =>
      obtain ⟨steps, aligned⟩ := aligned
      have later := ih aligned
      cases is : entry.record with
      | other owner =>
        rw [is] at later
        rw [sought, List.filter_cons_of_neg (by simp [is, Record.sought])]
        exact later
      | _ =>
        rw [sought, List.filter_cons_of_pos (by simp [is, Record.sought])]
        exact aligned_cons held entry steps later

/-! Whole replies -/

theorem procDatagram_reply (reply : Reply res dnExpand rptr d entries) (ttl : UInt32) :
    ∃ accesses, procDatagram res dnExpand rptr ttl d =
      { loop res dnExpand d rptr.type entries.length ⟨rptr, [], rptr.he.addrs.length, 0⟩ ttl
          (answersAt dnExpand d) with accesses := accesses } := by
  obtain ⟨qdcount, ⟨hostbuf, n, read, asks⟩, ancount, -, -⟩ := reply
  have classIn : (getint16 d (headerSize + n + 2) == 1) = (d.count (headerSize + n + 2) == 1) :=
    Bool.eq_iff_iff.mpr (by simpa using getint16_eq_iff d (headerSize + n + 2) 1 (by decide))
  unfold procDatagram
  rw [if_neg (not_not.mpr qdcount), read]
  have known := (asked_isSome rptr _).symm.trans (Option.isSome_iff_exists.mpr ⟨_, asks⟩)
  obtain ⟨name, copied⟩ := Option.isSome_iff_exists.mp known
  simp only [copied]
  rw [rtype_getint16, classIn, asks, if_pos rfl, ancount, answersAt, read]
  exact ⟨_, rfl⟩

theorem stands_decoded (stands : Stands dnExpand d place entry) : Decoded entry.record := by
  obtain ⟨-, -, -, -, data⟩ := stands
  cases is : entry.record with
  | ptr owner target =>
    rw [is] at data
    obtain ⟨-, name, rfl, -⟩ := data
    exact trivial
  | cname owner target =>
    rw [is] at data
    obtain ⟨-, name, rfl, -⟩ := data
    exact trivial
  | _ => exact trivial

theorem lays_decoded {entries : List Entry} (lays : Lays dnExpand d place entries) :
    ∀ record ∈ entries.map (·.record), Decoded record := by
  induction entries generalizing place with
  | nil => exact fun record member => absurd member List.not_mem_nil
  | cons entry rest ih =>
    obtain ⟨stands, lays⟩ := lays
    intro record member
    rcases List.mem_cons.mp member with rfl | later
    · exact stands_decoded stands
    · exact ih lays record later

/-- What is collected of a reply whose entries are all stepped over. -/
structure Collected (res : Res) (dnExpand : DnExpand) (rptr : ResRQ) (before : UInt32)
    (d : Datagram) (entries : List Entry) : Prop where
  places : (procDatagram res dnExpand rptr before d).places = boundaries (answersAt dnExpand d) entries
  records : procRecords res rptr.type ⟨rptr, [], rptr.he.addrs.length, 0⟩ (entries.map (·.record)) =
    ((procDatagram res dnExpand rptr before d).rptr, (procDatagram res dnExpand rptr before d).verdict)
  verdict : ∃ ans, (procDatagram res dnExpand rptr before d).verdict = .answers ans
  ttl : (procDatagram res dnExpand rptr before d).ttl.toNat = (entries.getLast?.map fun final =>
    spread final.ttl).getD before.toNat

theorem knows_nothing (rptr : ResRQ) : Proc.Knows ⟨rptr, [], rptr.he.addrs.length, 0⟩ rptr [] :=
    ⟨rfl, Nat.zero_le _, rfl, rfl⟩

theorem places_aligned (expands : Expands dnExpand) (reply : Reply res dnExpand rptr d entries) (before : UInt32) :
    (procDatagram res dnExpand rptr before d).places = boundaries (answersAt dnExpand d) entries ↔
      Aligned (rptr.he.hName.isSome, rptr.he.hAliases.length) entries := by
  obtain ⟨accesses, same⟩ := procDatagram_reply reply before
  rw [same]
  exact places_iff expands reply.lays (knows_nothing rptr) reply.pertains before

theorem collected (expands : Expands dnExpand) (reply : Reply res dnExpand rptr d entries)
    (aligned : Aligned (rptr.he.hName.isSome, rptr.he.hAliases.length) entries) (before : UInt32) :
    Collected res dnExpand rptr before d entries := by
  have places := (places_aligned expands reply before).mpr aligned
  obtain ⟨records, verdict, ttl⟩ := loop_aligned expands reply.lays (knows_nothing rptr) reply.pertains aligned before
  obtain ⟨accesses, same⟩ := procDatagram_reply reply before
  refine ⟨places, ?_, ?_, ?_⟩ <;> rw [same]
  · exact records
  · exact verdict
  · exact ttl

theorem makeCache_lifetime (server : Server) (final : ResRQ) (ttl now : Nat)
    (unknown : (findCacheNumbers server.resolver final.he.addrs).2 = none)
    (made : (server.makeCache final ttl now).2 = some cp) :
      (server.makeCache final ttl now).1.expireat cp = now + max 600 ttl := by
  rcases search : findCacheNumbers server.resolver final.he.addrs with ⟨resolver, found⟩
  rw [search] at unknown
  obtain rfl : found = none := unknown
  have lives (other : Server) (ocp : ACache) : (other.addToCache ocp).expireat = other.expireat := by
    unfold Server.addToCache
    dsimp only
    split
    · rw [List.getLast?_cons]
      rfl
    · rfl
  unfold Server.makeCache at made ⊢
  split at made
  · cases made
  · cases made
  · rw [search] at made ⊢
    dsimp only at made ⊢
    rw [lives, ← Option.some.inj made]
    exact Function.update_self ..

variable {ip : ClientId → InAddr}

/-- The last entry that is looked for is in the list that has only such. -/
theorem sought_getLast (last : (sought entries).getLast? = some entry) : ∃ final, entries.getLast? = some final := by
  cases entries with
  | nil => cases last
  | cons first rest => exact ⟨_, List.getLast?_cons⟩

theorem map_sought (entries : List Entry) : (sought entries).map (·.record) = (entries.map (·.record)).filter (·.sought) := by
  rw [sought, List.filter_map]
  rfl

/-- Whatever request is outstanding in a run, a reply is decoded record by record just where there is no data of another
type and no alias without room in front of another record, and where the time of the last record can be read with signs. -/
theorem answers_decoded (expands : Expands dnExpand) (run : (lookups res ip).Run Machine.Any World.start world)
    (outstanding : rptr ∈ world.resolver.requests) (reply : Reply res dnExpand rptr d entries) (before : UInt32) :
    Decodes res dnExpand rptr before d entries ↔
      Aligned (rptr.he.hName.isSome, rptr.he.hAliases.length) entries ∧ Timed entries := by
  have terminated := (lasting_terminated res).run run rptr outstanding
  have roomy := (run_stored run).roomy rptr outstanding
  have inside : rptr.he.addrs.length ≤ maxAddrs := roomy ▸ (List.takeWhile_sublist _).length_le
  constructor
  · intro decodes
    have aligned := (places_aligned expands reply before).mp decodes.places
    refine ⟨aligned, fun last final isLast isFinal => ?_⟩
    have time := (collected expands reply aligned before).ttl
    rw [isFinal] at time
    exact time.symm.trans (decodes.ttl last isLast)
  · rintro ⟨aligned, timed⟩
    obtain ⟨places, records, ⟨ans, verdict⟩, ttl⟩ := collected expands reply aligned before
    have answers := records
    rw [verdict] at answers
    obtain ⟨hAliases, hAddrList⟩ := procRecords_he terminated roomy inside (lays_decoded reply.lays) answers
    have time (last : Entry) (isLast : (sought entries).getLast? = some last) :
        (procDatagram res dnExpand rptr before d).ttl.toNat = last.ttl := by
      obtain ⟨final, isFinal⟩ := sought_getLast isLast
      rw [ttl, isFinal]
      exact timed last final isLast isFinal
    refine ⟨places, ⟨ans, verdict⟩, (procRecords_holds answers).hName, hAliases, hAddrList, time, ?_, ?_⟩
    · intro last isLast server final now cp unknown made
      rw [makeCache_lifetime server final _ now unknown made, time last isLast]
    · intro other reply'
      obtain ⟨-, records', -, ttl'⟩ := collected expands reply' (aligned_sought aligned) before
      rw [map_sought, procRecords_sought, records] at records'
      obtain ⟨same, same'⟩ := Prod.mk.inj records'
      refine ⟨same.symm, same'.symm, fun some' => UInt32.toNat_inj.mp ?_⟩
      have isLast := List.getLast?_eq_some_getLast some'
      obtain ⟨final, isFinal⟩ := sought_getLast isLast
      rw [ttl', isLast, time _ isLast, Option.map_some, Option.getD_some, ← timed _ final isLast isFinal, spread_spread]

end

/-- `dn_expand` where every name is one letter. -/
private def expandLetter : DnExpand := fun d place =>
  if place + 3 ≤ d.rc ∧ d.buf place = 1 ∧
    d.buf (place + 2) = 0 then some ([Char.ofNat (d.buf (place + 1)).toNat], 3) else none

private theorem expandLetter_expands : Expands expandLetter := by
  intro d place name n read
  unfold expandLetter at read
  split at read
  · rename_i inside
    obtain ⟨rfl, rfl⟩ := Prod.mk.inj (Option.some.inj read)
    exact ⟨Nat.zero_lt_succ 2, inside.1, (by decide : 1 ≤ hostLen)⟩
  · cases read

private def dotless : Res := ⟨[⟨127, 0, 0, 1⟩], false, [], 4⟩

private def nobody : ClientId → InAddr := fun _ => .zero

/-- A connect block names its server with one letter. -/
private def connecting : World := perform dotless nobody .start (.gethostByname ['a'] (.connect 0) (some ⟨1, 1⟩))

private theorem connecting_run : (lookups dotless nobody).Run Machine.Any World.start connecting :=
  Machine.Run.of_list [Event.gethostByname ['a'] (.connect 0) (some ⟨1, 1⟩)] (.refl _)
    ⟨fun _ same => (nomatch same), trivial, trivial⟩

private def connectLookup : ResRQ :=
  (queryName { makeRequest World.start.resolver (.connect 0) with type := .a, name := some ['a'] } .success (some ⟨1, 1⟩)).1

private theorem connectLookup_waits : connectLookup ∈ connecting.resolver.requests := .head _

/-- One question about the letter, and answers. -/
private def replying (ancount : UInt8) (answers : List UInt8) : Datagram :=
  let bytes := [0, 1, 128, 0, 0, 1, 0, ancount, 0, 0, 0, 0, 1, 97, 0, 0, 1, 0, 1] ++ answers
  ⟨fun place => bytes.getD place 0, bytes.length⟩

private def server7 : InAddr := ⟨192, 0, 2, 7⟩

/-- An address that lives for a day. -/
private def daily : Datagram := replying 1 [1, 97, 0, 0, 1, 0, 1, 0, 1, 81, 128, 0, 4, 192, 0, 2, 7]

private def dailyEntries : List Entry := [⟨.a ['a'] (some server7), 86400, 3, 4⟩]

private theorem daily_reply : Reply dotless expandLetter connectLookup daily dailyEntries where
  qdcount := rfl
  question := ⟨['a'], 3, by decide, by decide⟩
  ancount := rfl
  lays := ⟨⟨by decide, by decide, by decide, by decide, by decide, by decide, by decide⟩, trivial⟩
  pertains := ⟨by decide, trivial⟩

/-- The last byte of a day's seconds has its highest bit set, and the address is cached for more than a century. -/
theorem day_misread :
    ¬ ∀ (res : Res) (ip : ClientId → InAddr) (dnExpand : DnExpand) (world : World) (rptr : ResRQ) (d : Datagram) (entries : List Entry)
      (before : UInt32), Expands dnExpand → (lookups res ip).Run Machine.Any World.start world →
        rptr ∈ world.resolver.requests →
        Reply res dnExpand rptr d entries → Decodes res dnExpand rptr before d entries := by
  intro claim
  have decodes := claim dotless nobody expandLetter connecting connectLookup daily dailyEntries 0
    expandLetter_expands connecting_run
    connectLookup_waits daily_reply
  have misread : (procDatagram dotless expandLetter connectLookup 0 daily).ttl.toNat = 0xFFFFFF80 := by decide
  exact absurd ((decodes.ttl _ rfl).symm.trans misread) (by decide)

/-- An address that lives for an hour, behind a record of another type without data. -/
private def hourly : Datagram :=
  replying 2 [1, 97, 0, 0, 16, 0, 1, 0, 0, 14, 16, 0, 0, 1, 97, 0, 0, 1, 0, 1, 0, 0, 14, 16, 0, 4, 192, 0, 2, 7]

private def hourlyEntries : List Entry := [⟨.other ['a'], 3600, 3, 0⟩, ⟨.a ['a'] (some server7), 3600, 3, 4⟩]

theorem answers_decoded_hour : Decodes dotless expandLetter connectLookup 0 hourly hourlyEntries := by
  refine (answers_decoded expandLetter_expands connecting_run connectLookup_waits
    ⟨rfl, ⟨['a'], 3, ?_, ?_⟩, rfl, ?_, ?_⟩ 0).mpr ⟨?_, ?_⟩
  · decide
  · decide
  · exact ⟨⟨by decide, by decide, by decide, by decide, by decide⟩,
      ⟨by decide, by decide, by decide, by decide, by decide, by decide, by decide⟩, trivial⟩
  · exact ⟨by decide, by decide, trivial⟩
  · exact ⟨rfl, trivial⟩
  · intro last final isLast isFinal
    obtain rfl := Option.some.inj isLast
    obtain rfl := Option.some.inj isFinal
    decide

end SolidIrcd.Dns
