import SolidIrcd.Dns.Bounds
import Mathlib.Data.List.Nodup

/-! Replies that `get_res` rejects: what they leave changed. -/

namespace SolidIrcd.Dns

open Scan (Text)

/-- What a request has collected. -/
structure Holdings where
  hName : Option Text
  hAliases : List Text
  addrs : List InAddr
  deriving DecidableEq

def ResRQ.holdings (rptr : ResRQ) : Holdings := ⟨rptr.he.hName, rptr.he.hAliases, rptr.he.addrs⟩

/-- The packet answers this request. -/
def Finds (state : Resolver) (packet : Packet) (rptr : ResRQ) : Prop :=
    state.requests.find? (·.id = some packet.id) = some rptr

/-- The packet answers this request, from a server that was asked, and `proc_answer` finds it strange. -/
structure FindsStrange (res : Res) (state : Resolver) (packet : Packet) (rptr : ResRQ) : Prop where
  finds : Finds state packet rptr
  asked : fromNameserver res rptr packet.sin = true
  rcode : packet.rcode = .noError
  ancount : packet.ancount ≠ 0
  strange : (procAnswer res rptr packet).2 = .strange

/-- A packet that is rejected leaves no trace: from another server nothing changes, and nobody's lookup
ends; a strange one leaves what was collected, and what is asked for. -/
structure Traceless (res : Res) (state : Resolver) (packet : Packet) (sending : Option Sending) : Prop where
  unasked : ∀ rptr, Finds state packet rptr → fromNameserver res rptr packet.sin = false →
    (getRes res state packet sending).1.requests = state.requests ∧ (getRes res state packet sending).2.1 = none
  strange : ∀ rptr, FindsStrange res state packet rptr → ∃ after ∈ (getRes res state packet sending).1.requests,
    after.address = rptr.address ∧ after.holdings = rptr.holdings ∧ after.type = rptr.type ∧ after.name = rptr.name ∧
      after.addr = rptr.addr

/-- A record that is kept and adds nothing, where `adr` is the place for the next address. -/
def Idle (rptr : ResRQ) (adr : Nat) : Record → Prop
  | .a _ none | .ptr _ none | .other _ => True
  | .a _ (some dr) => rptr.he.hName.isSome ∧ rptr.type = .a ∧ (maxAddrs ≤ adr ∨ dr = .zero ∨ rptr.he.addrs.length < adr)
  | .ptr _ (some _) => rptr.he.hName.isSome ∧ maxAliases - 1 ≤ rptr.he.hAliases.length
  | .cname _ _ => maxAliases - 1 ≤ rptr.he.hAliases.length

def nextPlace (adr : Nat) (record : Record) : Nat := if record.address.isSome ∧ adr < maxAddrs then adr + 1 else adr

/-- The records in front of the first that is not about what was asked add nothing. -/
def Idles (res : Res) (rptr : ResRQ) : Nat → List Record → Prop
  | _, [] => True
  | adr, record :: rest =>
    owned res rptr.type rptr [] record = true → Idle rptr adr record ∧ Idles res rptr (nextPlace adr record) rest

/-- No query is sent again. -/
def Quiet (rptr : ResRQ) (sending : Option Sending) : Prop :=
  rptr.resend = false ∨ (rptr.type ≠ .ptr ∧ rptr.type ≠ .a) ∨ sending = none

structure Harmless (res : Res) (state : Resolver) (packet : Packet) (sending : Option Sending) : Prop where
  /-- No old error is left over, no default domain is tried and no query is due. -/
  unasked : ∀ rptr, Finds state packet rptr → fromNameserver res rptr packet.sin = false →
    state.hErrno ≠ .tryAgain ∧ res.defnames = false ∧ Quiet rptr sending
  /-- Nothing is collected in front of the record that is strange. -/
  strange : ∀ rptr, FindsStrange res state packet rptr →
    packet.question.bind (asked rptr) = some true → Idles res rptr rptr.he.addrs.length packet.answers

section

variable {res : Res} {ip : ClientId → InAddr} {proc next : Proc}

/-! The addresses of an array end at the first that is zero. -/

/-- Behind the end it does not matter what is written. -/
theorem addrs_set_beyond {list : List InAddr} {place : Nat}
    (beyond : (list.takeWhile (· ≠ .zero)).length < place) (dr : InAddr) :
    (list.set place dr).takeWhile (· ≠ .zero) = list.takeWhile (· ≠ .zero) := by
  induction list generalizing place with
  | nil => rfl
  | cons first rest ih =>
    obtain ⟨place, rfl⟩ := Nat.exists_eq_succ_of_ne_zero (Nat.ne_of_gt (Nat.zero_lt_of_lt beyond))
    rw [List.set_cons_succ]
    by_cases zero : first = .zero
    · simp [zero]
    · simp only [ne_eq, zero, not_false_eq_true, decide_true, List.takeWhile_cons_of_pos, List.length_cons] at beyond ⊢
      rw [ih (by simpa using Nat.lt_of_succ_lt_succ beyond)]

/-- At the end an address is added, and stays where that place is not written again. -/
theorem addrs_set_end {list after : List InAddr}
    (room : (list.takeWhile (· ≠ .zero)).length < list.length) {dr : InAddr} (some' : dr ≠ .zero)
    (later : after.take ((list.takeWhile (· ≠ .zero)).length + 1) =
      (list.set (list.takeWhile (· ≠ .zero)).length dr).take ((list.takeWhile (· ≠ .zero)).length + 1)) :
    list.takeWhile (· ≠ .zero) ++ [dr] <+: after.takeWhile (· ≠ .zero) := by
  induction list generalizing after with
  | nil => simp at room
  | cons first rest ih =>
    cases after with
    | nil => by_cases zero : first = .zero <;> simp [zero] at later
    | cons head tail =>
      by_cases zero : first = .zero
      · obtain rfl : head = dr := by simpa [zero] using later
        simp [zero, some']
      · simp only [ne_eq, zero, not_false_eq_true, decide_true, List.takeWhile_cons_of_pos,
          List.length_cons, List.set_cons_succ,
          List.take_succ_cons, List.cons.injEq, List.cons_append] at room later ⊢
        obtain ⟨rfl, later⟩ := later
        simp only [zero, not_false_eq_true, decide_true, List.takeWhile_cons_of_pos, List.prefix_cons_inj]
        exact ih (by simpa using Nat.lt_of_succ_lt_succ room) (by simpa using later)

theorem addrs_set_zero (list : List InAddr) :
    (list.set (list.takeWhile (· ≠ .zero)).length .zero).takeWhile (· ≠ .zero) = list.takeWhile (· ≠ .zero) := by
  induction list with
  | nil => rfl
  | cons first rest ih =>
    by_cases zero : first = .zero
    · simp [zero]
    · simp only [ne_eq, zero, not_false_eq_true, decide_true, List.takeWhile_cons_of_pos,
        List.length_cons, List.set_cons_succ]
      rw [ih]

/-- The loop writes at the end of the addresses, or behind it. -/
structure Proc.Placed (proc : Proc) : Prop where
  adr : proc.rptr.he.addrs.length ≤ proc.adr
  room : proc.rptr.he.hAddrList.length = maxAddrs

theorem addrs_same_iff (placed : proc.Placed) (free : proc.adr < maxAddrs) (dr : InAddr) :
    (proc.rptr.he.hAddrList.set proc.adr dr).takeWhile (· ≠ .zero) = proc.rptr.he.addrs ↔
      dr = .zero ∨ proc.rptr.he.addrs.length < proc.adr := by
  obtain beyond | same := Nat.lt_or_eq_of_le placed.adr
  · exact ⟨fun _ => .inr beyond, fun _ => addrs_set_beyond beyond dr⟩
  · by_cases zero : dr = .zero
    · subst zero
      rw [← same]
      exact ⟨fun _ => .inl rfl, fun _ => addrs_set_zero _⟩
    · have longer := (addrs_set_end (by rw [placed.room, Hent.addrs, same] at *; omega) zero rfl).length_le
      rw [← same]
      constructor
      · intro equal
        have lengths := congrArg List.length equal
        simp only [List.length_append, List.length_singleton, Hent.addrs] at longer lengths
        omega
      · rintro (none' | less)
        · exact absurd none' zero
        · omega

/-! What a request has collected is not lost again. -/

/-- A name and aliases stay, and so do the addresses in front of the place where the next is written. -/
structure Proc.Fixes (proc : Proc) (after : ResRQ) : Prop where
  hName : proc.rptr.he.hName.isSome → after.he.hName = proc.rptr.he.hName
  hAliases : proc.rptr.he.hAliases <+: after.he.hAliases
  hAddrList : after.he.hAddrList.take proc.adr = proc.rptr.he.hAddrList.take proc.adr
  length : after.he.hAddrList.length = proc.rptr.he.hAddrList.length

theorem Proc.Fixes.refl (proc : Proc) : proc.Fixes proc.rptr := ⟨fun _ => rfl, List.prefix_refl _, rfl, rfl⟩

theorem Proc.Fixes.trans (first : proc.Fixes next.rptr) (forward : proc.adr ≤ next.adr) (second : next.Fixes after) :
    proc.Fixes after where
  hName named := (second.hName (by rw [first.hName named]; exact named)).trans (first.hName named)
  hAliases := first.hAliases.trans second.hAliases
  hAddrList := by
    have fewer := congrArg (List.take proc.adr) second.hAddrList
    rw [List.take_take, List.take_take, Nat.min_eq_left forward] at fewer
    exact fewer.trans first.hAddrList
  length := second.length.trans first.length

theorem keep_fixes (keeps : proc.keep res record = some next) : proc.Fixes next.rptr ∧ proc.adr ≤ next.adr := by
  cases record with
  | a owner dr =>
    cases dr with
    | none => cases keeps
    | some dr =>
      obtain rfl := Option.some.inj keeps
      refine ⟨⟨fun named => ?_, List.prefix_refl _, ?_, ?_⟩, ?_⟩
      · obtain ⟨name, named⟩ := Option.isSome_iff_exists.mp named
        simp [named]
      · dsimp only
        split
        · rw [List.take_set_of_le (Nat.le_refl _)]
        · rfl
      · dsimp only
        split
        · rw [List.length_set]
        · rfl
      · dsimp only
        split <;> omega
  | ptr owner target =>
    cases target with
    | none =>
      obtain rfl := Option.some.inj keeps
      exact ⟨.refl _, Nat.le_refl _⟩
    | some target =>
      simp only [Proc.keep] at keeps
      split at keeps
      · split at keeps
        · obtain rfl := Option.some.inj keeps
          exact ⟨.refl _, Nat.le_refl _⟩
        · obtain rfl := Option.some.inj keeps
          exact ⟨⟨fun _ => rfl, List.prefix_append _ _, rfl, rfl⟩, Nat.le_refl _⟩
      next unnamed =>
        obtain rfl := Option.some.inj keeps
        exact ⟨⟨fun named => by simp [unnamed] at named, List.prefix_refl _, rfl, rfl⟩, Nat.le_refl _⟩
  | cname owner target =>
    simp only [Proc.keep] at keeps
    split at keeps
    · obtain rfl := Option.some.inj keeps
      exact ⟨.refl _, Nat.le_refl _⟩
    · obtain rfl := Option.some.inj keeps
      exact ⟨⟨fun _ => rfl, List.prefix_append _ _, rfl, rfl⟩, Nat.le_refl _⟩
  | other owner =>
    obtain rfl := Option.some.inj keeps
    exact ⟨.refl _, Nat.le_refl _⟩

/-- An idle record is one that changes nothing. -/
theorem idle_iff (placed : proc.Placed) (keeps : proc.keep res record = some next) :
    Idle proc.rptr proc.adr record ↔ next.rptr.holdings = proc.rptr.holdings ∧ next.rptr.type = proc.rptr.type := by
  cases record with
  | a owner dr =>
    cases dr with
    | none => cases keeps
    | some dr =>
      obtain rfl := Option.some.inj keeps
      have named : proc.rptr.he.hName.or (some (defaultDomain res owner)) = proc.rptr.he.hName ↔
        proc.rptr.he.hName.isSome := by
        cases proc.rptr.he.hName <;> simp
      by_cases free : proc.adr < maxAddrs
      · have same := addrs_same_iff placed free dr
        simp only [Idle, ResRQ.holdings, Hent.addrs, free, if_true, Holdings.mk.injEq, named, eq_comm (a := RType.a),
          true_and] at same ⊢
        rw [same]
        simp only [Nat.not_le.mpr free, false_or]
        tauto
      · simp only [Idle, ResRQ.holdings, Hent.addrs, free, if_false, Holdings.mk.injEq, named, eq_comm (a := RType.a),
          and_true, Nat.le_of_not_lt free, true_or]
  | ptr owner target =>
    cases target with
    | none =>
      obtain rfl := Option.some.inj keeps
      simp [Idle]
    | some target =>
      simp only [Proc.keep] at keeps
      split at keeps
      next name named =>
        split at keeps
        next full =>
          obtain rfl := Option.some.inj keeps
          simp [Idle, named, full]
        next room =>
          obtain rfl := Option.some.inj keeps
          simp [Idle, ResRQ.holdings, room]
      next unnamed =>
        obtain rfl := Option.some.inj keeps
        simp [Idle, ResRQ.holdings, unnamed]
  | cname owner target =>
    simp only [Proc.keep] at keeps
    split at keeps
    next full =>
      obtain rfl := Option.some.inj keeps
      simp [Idle, full]
    next room =>
      obtain rfl := Option.some.inj keeps
      simp [Idle, ResRQ.holdings, room]
  | other owner =>
    obtain rfl := Option.some.inj keeps
    simp [Idle]

/-- What changes the type and nothing else is an address. -/
theorem keep_type (keeps : proc.keep res record = some next) (same : next.rptr.holdings = proc.rptr.holdings) :
    next.rptr.type = proc.rptr.type ∨ next.rptr.type = .a := by
  cases record with
  | a owner dr =>
    cases dr with
    | none => cases keeps
    | some dr =>
      obtain rfl := Option.some.inj keeps
      exact .inr rfl
  | ptr owner target =>
    cases target with
    | none =>
      obtain rfl := Option.some.inj keeps
      exact .inl rfl
    | some target =>
      simp only [Proc.keep] at keeps
      split at keeps
      · split at keeps
        · obtain rfl := Option.some.inj keeps
          exact .inl rfl
        · obtain rfl := Option.some.inj keeps
          simp [ResRQ.holdings] at same
      next unnamed =>
        obtain rfl := Option.some.inj keeps
        simp [ResRQ.holdings, unnamed] at same
  | cname owner target =>
    simp only [Proc.keep] at keeps
    split at keeps
    · obtain rfl := Option.some.inj keeps
      exact .inl rfl
    · obtain rfl := Option.some.inj keeps
      simp [ResRQ.holdings] at same
  | other owner =>
    obtain rfl := Option.some.inj keeps
    exact .inl rfl

theorem procRecords_fixes (proc : Proc) (records : List Record) : proc.Fixes (procRecords res origtype proc records).1 := by
  induction records generalizing proc with
  | nil => exact .refl _
  | cons record rest ih =>
    rw [procRecords]
    split
    next =>
      cases keeps : proc.keep res record with
      | none => exact .refl _
      | some next =>
        obtain ⟨fixes, forward⟩ := keep_fixes keeps
        exact fixes.trans forward (ih next)
    next => exact .refl _

/-- Where the addresses are those from before, the next place is still at their end or behind it. -/
theorem Proc.Placed.kept (placed : proc.Placed) (keeps : proc.keep res record = some next)
    (same : next.rptr.holdings = proc.rptr.holdings) : next.Placed where
  adr := by
    have addrs : next.rptr.he.addrs = proc.rptr.he.addrs := congrArg Holdings.addrs same
    rw [addrs]
    exact placed.adr.trans (keep_fixes keeps).2
  room := (keep_fixes keeps).1.length.trans placed.room

/-- What ends where it started did not move in between. -/
theorem holdings_still (placed : proc.Placed) (keeps : proc.keep res record = some next) (later : next.Fixes after)
    (same : after.holdings = proc.rptr.holdings) : next.rptr.holdings = proc.rptr.holdings := by
  obtain ⟨fixes, -⟩ := keep_fixes keeps
  have names : after.he.hName = proc.rptr.he.hName := congrArg Holdings.hName same
  have aliases : after.he.hAliases = proc.rptr.he.hAliases := congrArg Holdings.hAliases same
  have addrs : after.he.addrs = proc.rptr.he.addrs := congrArg Holdings.addrs same
  have named : next.rptr.he.hName = proc.rptr.he.hName := by
    cases name : next.rptr.he.hName with
    | some name' => rw [← names, later.hName (by rw [name]; rfl), name]
    | none =>
      cases name' : proc.rptr.he.hName with
      | some name'' => rw [← name, fixes.hName (by rw [name']; rfl), name']
      | none => rfl
  have aliased : next.rptr.he.hAliases = proc.rptr.he.hAliases :=
    (fixes.hAliases.eq_of_length_le (aliases ▸ later.hAliases.length_le)).symm
  have addressed : next.rptr.he.addrs = proc.rptr.he.addrs := by
    cases record with
    | a owner dr =>
      cases dr with
      | none => cases keeps
      | some dr =>
        obtain rfl := Option.some.inj keeps
        by_cases free : proc.adr < maxAddrs
        · simp only [Hent.addrs, free, if_true]
          refine (addrs_same_iff placed free dr).mpr ?_
          by_contra moved
          obtain ⟨some', less⟩ := not_or.mp moved
          have end' : proc.rptr.he.addrs.length = proc.adr := Nat.le_antisymm placed.adr (Nat.le_of_not_lt less)
          have kept : after.he.hAddrList.take
            (proc.adr + 1) = (proc.rptr.he.hAddrList.set proc.adr dr).take (proc.adr + 1) := by
            simpa only [free, if_true] using later.hAddrList
          rw [← end'] at kept
          have longer := (addrs_set_end (by rw [placed.room, ← Hent.addrs, end']; exact free) some' kept).length_le
          rw [← Hent.addrs, ← Hent.addrs, addrs, List.length_append] at longer
          exact absurd longer (Nat.not_succ_le_self _)
        · simp only [Hent.addrs, free, if_false]
    | ptr owner target =>
      cases target with
      | none =>
        obtain rfl := Option.some.inj keeps
        rfl
      | some target =>
        simp only [Proc.keep] at keeps
        split at keeps
        · split at keeps <;> (obtain rfl := Option.some.inj keeps; rfl)
        · obtain rfl := Option.some.inj keeps
          rfl
    | cname owner target =>
      simp only [Proc.keep] at keeps
      split at keeps <;> (obtain rfl := Option.some.inj keeps; rfl)
    | other owner =>
      obtain rfl := Option.some.inj keeps
      rfl
  simp only [ResRQ.holdings, named, aliased, addressed]

theorem procRecords_type (placed : proc.Placed) (records : List Record)
    (same : (procRecords res origtype proc records).1.holdings = proc.rptr.holdings) :
    (procRecords res origtype proc records).1.type = proc.rptr.type ∨
      (procRecords res origtype proc records).1.type = .a := by
  induction records generalizing proc with
  | nil => exact .inl rfl
  | cons record rest ih =>
    rw [procRecords] at same ⊢
    split at same
    next owns =>
      rw [if_pos owns]
      cases keeps : proc.keep res record with
      | none => exact .inl rfl
      | some next =>
        rw [keeps] at same
        dsimp only at same ⊢
        have still := holdings_still placed keeps (procRecords_fixes next rest) same
        obtain stays | a := ih (placed.kept keeps still) (same.trans still.symm)
        · rw [stays]
          exact keep_type keeps still
        · exact .inr a
    next other =>
      rw [if_neg other]
      exact .inl rfl

/-- Requests that ask for the same, and have collected the same. -/
structure Like (before after : ResRQ) : Prop where
  holdings : after.holdings = before.holdings
  type : after.type = before.type
  name : after.name = before.name
  addr : after.addr = before.addr

theorem Like.idle_iff (like : Like before after) (adr : Nat) (record : Record) :
    Idle after adr record ↔ Idle before adr record := by
  have names : after.he.hName = before.he.hName := congrArg Holdings.hName like.holdings
  have aliases : after.he.hAliases = before.he.hAliases := congrArg Holdings.hAliases like.holdings
  have addrs : after.he.addrs = before.he.addrs := congrArg Holdings.addrs like.holdings
  cases record with
  | a owner dr => cases dr <;> simp only [Idle, names, addrs, like.type]
  | ptr owner target => cases target <;> simp only [Idle, names, aliases]
  | cname owner target => simp only [Idle, aliases]
  | other owner => rfl

/-- Whether a record is about what was asked depends on the question only. -/
theorem owned_congr (name : after.name = before.name) (addr : after.addr = before.addr)
    (origtype : RType) (acceptable : List Text)
    (record : Record) : owned res origtype after acceptable record = owned res origtype before acceptable record := by
  cases record with
  | a owner dr => simp only [owned, name]
  | ptr owner target => simp only [owned, addr]
  | cname owner target => cases origtype <;> simp only [owned, name, addr]
  | other owner => rfl

theorem Like.idles_iff (like : Like before after) (adr : Nat) (records : List Record) :
    Idles res after adr records ↔ Idles res before adr records := by
  induction records generalizing adr with
  | nil => rfl
  | cons record rest ih => rw [Idles, Idles, like.type, owned_congr like.name like.addr, like.idle_iff, ih]

/-- An idle record makes no other name acceptable. -/
theorem keep_idle (keeps : proc.keep res record = some next) (idle : Idle proc.rptr proc.adr record) :
    next.acceptable = proc.acceptable ∧ next.adr = nextPlace proc.adr record := by
  cases record with
  | a owner dr =>
    cases dr with
    | none => cases keeps
    | some dr =>
      obtain rfl := Option.some.inj keeps
      simp [nextPlace, Record.address]
  | ptr owner target =>
    cases target with
    | none =>
      obtain rfl := Option.some.inj keeps
      exact ⟨rfl, rfl⟩
    | some target =>
      simp only [Proc.keep] at keeps
      split at keeps
      · split at keeps <;> (obtain rfl := Option.some.inj keeps; exact ⟨rfl, rfl⟩)
      · obtain rfl := Option.some.inj keeps
        exact ⟨rfl, rfl⟩
  | cname owner target =>
    simp only [Proc.keep] at keeps
    split at keeps
    · obtain rfl := Option.some.inj keeps
      exact ⟨rfl, rfl⟩
    next room => exact absurd idle room
  | other owner =>
    obtain rfl := Option.some.inj keeps
    exact ⟨rfl, rfl⟩

/-- Where the loop ends with a strange record, it has changed nothing exactly when all records in front were idle. -/
theorem idles_iff (placed : proc.Placed) (acceptable : proc.acceptable = []) {records : List Record}
    (origtype : proc.rptr.type = type) (strange : (procRecords res type proc records).2 = .strange) :
    Idles res proc.rptr proc.adr records ↔ (procRecords res type proc records).1.holdings = proc.rptr.holdings ∧
      (procRecords res type proc records).1.type = proc.rptr.type := by
  induction records generalizing proc with
  | nil => cases strange
  | cons record rest ih =>
    rw [Idles, origtype, ← acceptable]
    rw [procRecords] at strange ⊢
    split at strange
    next owns =>
      rw [if_pos owns]
      cases keeps : proc.keep res record with
      | none =>
        rw [keeps] at strange
        cases strange
      | some next =>
        rw [keeps] at strange
        dsimp only at strange ⊢
        have collects := keep_collects owns keeps
        simp only [owns, true_implies]
        constructor
        · rintro ⟨idle, idles⟩
          obtain ⟨holdings, same⟩ := (idle_iff placed keeps).mp idle
          obtain ⟨acceptable', adr⟩ := keep_idle keeps idle
          have like : Like proc.rptr next.rptr := ⟨holdings, same, collects.name, collects.addr⟩
          rw [← adr, ← like.idles_iff] at idles
          obtain ⟨holdings', same'⟩ :=
            (ih (placed.kept keeps holdings) (acceptable'.trans acceptable) (same.trans origtype) strange).mp idles
          exact ⟨holdings'.trans holdings, same'.trans (same.trans origtype)⟩
        · rintro ⟨holdings, final⟩
          have still := holdings_still placed keeps (procRecords_fixes next rest) holdings
          have placed' := placed.kept keeps still
          have same : next.rptr.type = proc.rptr.type := by
            obtain stays | a := keep_type keeps still
            · exact stays
            · obtain stays | a' := procRecords_type placed' rest (holdings.trans still.symm)
              · rw [← stays, final, origtype]
              · rw [a, ← a', final, origtype]
          have idle := (idle_iff placed keeps).mpr ⟨still, same⟩
          obtain ⟨acceptable', adr⟩ := keep_idle keeps idle
          have like : Like proc.rptr next.rptr := ⟨still, same, collects.name, collects.addr⟩
          refine ⟨idle, ?_⟩
          rw [← adr, ← like.idles_iff]
          exact (ih placed' (acceptable'.trans acceptable) (same.trans origtype) strange).mpr
            ⟨holdings.trans still.symm, final.trans (same.trans origtype).symm⟩
    next other =>
      rw [if_neg other]
      exact ⟨fun _ => ⟨rfl, origtype⟩, fun _ owns => absurd owns other⟩

/-! The requests in memory: each at its own address, with room for all the addresses that are collected. -/

def addresses (state : Resolver) : List Nat := state.requests.map (·.address)

structure Numbered (state : Resolver) : Prop where
  distinct : (addresses state).Nodup
  made : ∀ address ∈ addresses state, address < state.made

theorem Numbered.of_sublist (numbered : Numbered before) (fewer : (addresses after).Sublist (addresses before))
    (made : before.made ≤ after.made) : Numbered after where
  distinct := numbered.distinct.sublist fewer
  made address member := Nat.lt_of_lt_of_le (numbered.made address (fewer.subset member)) made

theorem Numbered.addRequest (numbered : Numbered state) (new : rptr.address = state.made) :
    Numbered (addRequest state rptr) := by
  have requests : addresses (Dns.addRequest state rptr) = addresses state ++
    [state.made] := by simp [addresses, Dns.addRequest, new]
  constructor
  · rw [requests]
    refine List.nodup_append.mpr ⟨numbered.distinct,
      List.nodup_cons.mpr ⟨List.not_mem_nil, List.nodup_nil⟩, fun address before last is => ?_⟩
    rw [List.mem_singleton.mp is]
    exact Nat.ne_of_lt (numbered.made address before)
  · intro address member
    rw [requests] at member
    rcases List.mem_append.mp member with before | last
    · exact (numbered.made address before).trans (Nat.lt_succ_self _)
    · rw [List.mem_singleton.mp last]
      exact Nat.lt_succ_self _

theorem Numbered.query (numbered : Numbered state) (new : rptr.address = state.made)
    (sending : Option Sending) (hErrno : HErrno) :
    Numbered { Dns.addRequest state (queryName rptr state.hErrno sending).1 with hErrno := hErrno } := by
  have same : (queryName rptr state.hErrno sending).1.address = rptr.address := by cases sending <;> rfl
  exact (numbered.addRequest (same.trans new)).of_sublist (List.Sublist.refl _) (Nat.le_refl _)

theorem setRequest_addresses (state : Resolver) (rptr : ResRQ) : addresses (setRequest state rptr) = addresses state := by
  simp only [addresses, setRequest, List.map_map]
  apply List.map_congr_left
  intro old _
  dsimp only [Function.comp]
  split
  next same => exact same.symm
  next => rfl

theorem remRequest_addresses (state : Resolver) (address : Nat) :
    (addresses (remRequest state address)).Sublist (addresses state) :=
  List.filter_sublist.map _

theorem resendQuery_addresses (state : Resolver) (rptr : ResRQ) (sending : Option Sending) :
    addresses (resendQuery state rptr sending) = addresses state := by
  unfold resendQuery
  split
  · exact setRequest_addresses state _
  · exact setRequest_addresses state rptr

theorem getresErr_addresses (res : Res) (state : Resolver) (rptr : ResRQ) (sending : Option Sending) :
    addresses (getresErr res state rptr sending).1 = addresses state := by
  unfold getresErr
  split
  · split
    · dsimp only
      split <;> exact resendQuery_addresses state _ sending
    · exact resendQuery_addresses state rptr sending
  · exact setRequest_addresses state rptr

theorem delQueries_addresses (state : Resolver) (cp : ClientId ⊕ Nat) :
    (addresses (delQueries state cp)).Sublist (addresses state) := by
  unfold delQueries
  split
  · exact List.Sublist.refl _
  · exact remRequest_addresses state _

theorem timeoutQuery_addresses (state : Resolver) (address : Nat) (sending : Option Sending) :
    (addresses (timeoutQuery state address sending)).Sublist (addresses state) := by
  unfold timeoutQuery
  split
  · exact List.Sublist.refl _
  · dsimp only
    split
    · exact remRequest_addresses state address
    · rw [resendQuery_addresses]

theorem getRes_addresses (res : Res) (none : answered res state packet = none) (sending : Option Sending) :
    (addresses (getRes res state packet sending).1).Sublist (addresses state) := by
  unfold getRes
  cases found : state.requests.find? (·.id = some packet.id) with
  | none => exact List.Sublist.refl _
  | some rptr =>
    dsimp only
    split
    · rw [getresErr_addresses]
    · rename_i nameserver
      split
      · dsimp only
        rw [getresErr_addresses]
        exact List.Sublist.refl _
      · rename_i error
        rcases verdict : procAnswer res rptr packet with ⟨after, result⟩
        cases result with
        | malicious => exact remRequest_addresses state _
        | strange =>
          dsimp only
          split
          · rw [getresErr_addresses]
            exact List.Sublist.refl _
          · rw [resendQuery_addresses]
        | broken =>
          dsimp only
          split
          · exact remRequest_addresses state _
          · rw [setRequest_addresses]
        | answers ans =>
          cases ans with
          | zero =>
            dsimp only
            split
            · exact remRequest_addresses state _
            · rw [setRequest_addresses]
          | succ ans =>
            simp only [Bool.not_eq_true', Bool.not_eq_false] at nameserver
            simp only [ne_eq, not_or, not_not] at error
            simp [answered, found, Option.filter, verdict, nameserver, error.1, error.2] at none

theorem findCacheNumber_made (state : Resolver) (numb : InAddr) : (findCacheNumber state numb).1.made = state.made := by
  unfold findCacheNumber
  split
  · unfold updateList
    split <;> rfl
  · rfl

theorem findCacheNumbers_made (state : Resolver) (numbs : List InAddr) :
    (findCacheNumbers state numbs).1.made = state.made := by
  induction numbs generalizing state with
  | nil => rfl
  | cons numb rest ih =>
    have made := findCacheNumber_made state numb
    rw [findCacheNumbers]
    split
    next middle cp found => rw [← made, found]
    next middle found => rw [ih, ← made, found]

theorem makeCache_made (state : Resolver) (rptr : ResRQ) : state.made ≤ (makeCache state rptr).1.made := by
  unfold makeCache
  split
  · exact Nat.le_refl _
  · exact Nat.le_refl _
  · have made := findCacheNumbers_made state rptr.he.addrs
    split
    next middle cp found =>
      rw [found] at made
      exact made.ge
    next middle found =>
      rw [found] at made
      refine made.ge.trans ?_
      unfold addToCache
      dsimp only
      split
      · rw [List.getLast?_cons]
        exact Nat.le_succ _
      · exact Nat.le_succ _

theorem Numbered.accept (numbered : Numbered state) (rptr : ResRQ) (sending : Option Sending) :
    Numbered (accept state rptr sending).1 := by
  have cached (final : ResRQ) : Numbered (remRequest (makeCache state final).1 final.address) := by
    refine numbered.of_sublist ?_ (makeCache_made state final)
    refine (remRequest_addresses _ _).trans ?_
    rw [addresses, makeCache_requests]
    exact List.Sublist.refl _
  unfold Dns.accept
  split
  · split
    · exact numbered.of_sublist (remRequest_addresses state _) (Nat.le_refl _)
    · rename_i hName _
      have looked : Numbered (gethostByname state hName rptr.cinfo sending) := numbered.query rfl sending _
      refine looked.of_sublist ((remRequest_addresses _ _).trans ?_) (Nat.le_refl _)
      have requests : (gethostByname state hName rptr.cinfo sending).requests = state.requests ++
          [(queryName { makeRequest state rptr.cinfo with type := .a, name := some hName } state.hErrno sending).1] := rfl
      simp [addresses, requests]
  · split
    · exact numbered.of_sublist (remRequest_addresses state _) (Nat.le_refl _)
    next final confirms =>
      exact cached final
  · exact cached rptr

theorem Numbered.getRes (numbered : Numbered state) (res : Res) (packet : Packet) (sending : Option Sending) :
    Numbered (getRes res state packet sending).1 := by
  cases answer : answered res state packet with
  | none =>
    have same := (getRes_unanswered (P := fun _ => True) res (fun _ _ _ _ => trivial)
      (fun _ _ => trivial) (fun _ _ => trivial)
      answer sending).2.1
    exact numbered.of_sublist (getRes_addresses res answer sending) same.made
  | some rptr =>
    obtain ⟨after, ans, -, accepts⟩ := getRes_answered answer sending
    rw [accepts]
    exact numbered.accept after sending

/-- There is a place for every address that can be collected. -/
def Roomy (rptr : ResRQ) : Prop := rptr.he.hAddrList.length = maxAddrs

theorem roomy_steady : Steady Roomy := by
  intro before after resent roomy
  unfold Roomy
  rw [resent.he]
  exact roomy

theorem procAnswer_roomy (roomy : Roomy rptr) (packet : Packet) : Roomy (procAnswer res rptr packet).1 := by
  unfold procAnswer
  split
  · exact roomy
  · split
    · exact roomy
    · exact roomy
    · exact (procRecords_fixes ⟨rptr, [], rptr.he.addrs.length, 0⟩ packet.answers).length.trans roomy

theorem lasting_roomy (res : Res) : Lasting res Roomy where
  steady := roomy_steady
  replies packet _ roomy := procAnswer_roomy roomy packet
  forward _ _ _ _ := rfl
  fresh _ _ room := room

structure Stored (state : Resolver) : Prop where
  numbered : Numbered state
  roomy : Outstanding Roomy state

theorem perform_numbered (event : Event) (numbered : Numbered world.resolver) :
    Numbered (perform res ip world event).resolver := by
  cases event with
  | addConnection cptr sending =>
    obtain ⟨requests, _, _⟩ := findCacheNumber_spec world.resolver (ip cptr)
    have made := findCacheNumber_made world.resolver (ip cptr)
    simp only [perform, gethostByaddr]
    rcases step : findCacheNumber world.resolver (ip cptr) with ⟨middle, hit⟩
    rw [step] at requests made
    have numbered' : Numbered middle :=
      numbered.of_sublist (by rw [addresses, requests]; exact List.Sublist.refl _) made.ge
    cases hit with
    | some cp => exact numbered'
    | none => exact numbered'.query rfl sending _
  | gethostByname name lp sending => exact numbered.query rfl sending _
  | getRes packet sending =>
    have next := numbered.getRes res packet sending
    simp only [perform]
    rcases result : getRes res world.resolver packet sending with ⟨resolver, lp, hp⟩
    rw [result] at next
    cases lp with
    | none => exact next
    | some lp =>
      cases lp with
      | client cptr =>
        exact next.of_sublist (delQueries_addresses resolver _) (delQueries_sameCache resolver _).made
      | connect aconn => exact next
      | conf aconn => exact next
  | timeoutQuery address sending =>
    exact numbered.of_sublist (timeoutQuery_addresses _ address sending)
      (timeoutQuery_sameCache _ address sending).made
  | delQueries cp =>
    exact numbered.of_sublist (delQueries_addresses _ cp) (delQueries_sameCache _ cp).made
  | remCache ocp => exact numbered.of_sublist (List.Sublist.refl _) (Nat.le_refl _)

theorem run_stored (run : (lookups res ip).Run Machine.Any World.start world) : Stored world.resolver := by
  refine ⟨?_, (lasting_roomy res).run run⟩
  apply run.invariant (fun world => Numbered world.resolver)
  · exact fun world event _ _ numbered => perform_numbered event numbered
  · exact ⟨List.nodup_nil, fun _ member => absurd member List.not_mem_nil⟩

/-! What the ways out of `get_res` leave of the request -/

/-- Only the books of sending differ. -/
structure Recounted (before after : ResRQ) : Prop where
  address : after.address = before.address
  like : Like before after

theorem Like.refl (rptr : ResRQ) : Like rptr rptr := ⟨rfl, rfl, rfl, rfl⟩

theorem setRequest_mem (other : ResRQ) (member : rptr ∈ state.requests) (address : after.address = rptr.address) :
    other ∈ (setRequest state after).requests ∧ other.address = rptr.address ↔ other = after := by
  constructor
  · rintro ⟨inside, same⟩
    obtain ⟨old, -, rfl⟩ := List.mem_map.mp inside
    split
    · rfl
    next differs =>
      rw [if_neg differs] at same
      exact absurd (same.trans address.symm) differs
  · rintro rfl
    exact ⟨List.mem_map.mpr ⟨rptr, member, if_pos address.symm⟩, address⟩

/-- Writing a request leaves all of them as they were only where nothing new is written. -/
theorem setRequest_same_iff (numbered : Numbered state) (member : rptr ∈ state.requests)
    (address : after.address = rptr.address) :
    (setRequest state after).requests = state.requests ↔ after = rptr := by
  constructor
  · intro same
    have inside : rptr ∈ (setRequest state after).requests := same ▸ member
    exact ((setRequest_mem _ member address).mp ⟨inside, rfl⟩).symm
  · rintro rfl
    refine (List.map_congr_left fun old inside => ?_).trans (List.map_id _)
    split
    next same => exact (List.inj_on_of_nodup_map numbered.distinct inside member same).symm
    next => rfl

theorem resendQuery_requests (state : Resolver) (rptr : ResRQ) (sending : Option Sending) :
    ∃ after, (resendQuery state rptr sending).requests = (setRequest state after).requests ∧ Recounted rptr after ∧
      after.srch = rptr.srch ∧ (after = rptr ↔ Quiet rptr sending) := by
  unfold resendQuery
  split
  next due =>
    simp only [Bool.and_eq_true, Bool.or_eq_true, decide_eq_true_eq] at due
    cases sending with
    | none => exact ⟨rptr, rfl, ⟨rfl, .refl _⟩, rfl, fun _ => .inr (.inr rfl), fun _ => rfl⟩
    | some sending =>
      refine ⟨_, rfl, ⟨rfl, ⟨rfl, rfl, rfl, rfl⟩⟩, rfl, ?_, ?_⟩
      · intro same
        exact absurd (congrArg ResRQ.sends same) (by simp [queryName])
      · rintro (resend | ⟨ptr, a⟩ | none)
        · exact absurd due.1 (by rw [resend]; exact Bool.false_ne_true)
        · exact absurd due.2 (not_or.mpr ⟨ptr, a⟩)
        · cases none
  next idle =>
    refine ⟨rptr, rfl, ⟨rfl, .refl _⟩, rfl, fun _ => ?_, fun _ => rfl⟩
    simp only [Bool.and_eq_true, Bool.or_eq_true, decide_eq_true_eq, not_and_or, not_or, Bool.not_eq_true] at idle
    exact idle.imp_right .inl

theorem getresErr_again (again : state.hErrno = .tryAgain) (res : Res) (rptr : ResRQ) (sending : Option Sending) :
    getresErr res state rptr sending = (setRequest state rptr, some rptr.cinfo) := by
  unfold getresErr
  rw [if_neg (not_not.mpr again)]

/-- Where the error is another, nobody's lookup ends. -/
theorem getresErr_requests (other : state.hErrno ≠ .tryAgain) (res : Res) (rptr : ResRQ) (sending : Option Sending) :
    (getresErr res state rptr sending).2 = none ∧
      ∃ after, (getresErr res state rptr sending).1.requests = (setRequest state after).requests ∧
        after.address = rptr.address ∧ (after = rptr ↔ res.defnames = false ∧ Quiet rptr sending) := by
  unfold getresErr
  rw [if_pos other]
  cases defnames : res.defnames with
  | false =>
    obtain ⟨after, requests, recounted, -, same⟩ := resendQuery_requests state rptr sending
    rw [if_neg Bool.false_ne_true]
    exact ⟨rfl, after, requests, recounted.address, by simpa using same⟩
  | true =>
    rw [if_pos rfl]
    dsimp only
    have counted (before : ResRQ) (address : before.address = rptr.address) (srch : before.srch = rptr.srch + 1) :
        ∃ after, (resendQuery state before sending).requests = (setRequest state after).requests ∧
          after.address = rptr.address ∧ (after = rptr ↔ true = false ∧ Quiet rptr sending) := by
      obtain ⟨after, requests, recounted, same, -⟩ := resendQuery_requests state before sending
      refine ⟨after, requests, recounted.address.trans address, ?_⟩
      constructor
      · rintro rfl
        omega
      · exact fun no => nomatch no.1
    split
    · exact ⟨rfl, counted _ rfl rfl⟩
    · exact ⟨rfl, counted _ rfl rfl⟩

theorem unasked_iff (numbered : Numbered state) (finds : Finds state packet rptr)
    (unasked : fromNameserver res rptr packet.sin = false)
    (sending : Option Sending) :
    (getRes res state packet sending).1.requests = state.requests ∧ (getRes res state packet sending).2.1 = none ↔
      state.hErrno ≠ .tryAgain ∧ res.defnames = false ∧ Quiet rptr sending := by
  have goes : getRes res state packet sending =
      ((getresErr res state rptr sending).1, (getresErr res state rptr sending).2, none) := by
    unfold getRes
    simp only [show state.requests.find? _ = some rptr from finds, unasked, Bool.not_false, if_true]
  rw [goes]
  have member := List.mem_of_find?_eq_some finds
  by_cases again : state.hErrno = .tryAgain
  · rw [getresErr_again again]
    exact ⟨fun ended => (nomatch ended.2), fun other => absurd again other.1⟩
  · obtain ⟨none, after, requests, address, same⟩ := getresErr_requests again res rptr sending
    rw [requests, none, setRequest_same_iff numbered member address, same]
    exact ⟨fun quiet => ⟨again, quiet.1⟩, fun quiet => ⟨quiet.2, rfl⟩⟩

/-- A strange reply leaves of the request what `proc_answer` made of it. -/
theorem strange_requests (strange : FindsStrange res state packet rptr) (sending : Option Sending) :
    ∃ after, (getRes res state packet sending).1.requests = (setRequest state after).requests ∧
      Recounted (procAnswer res rptr packet).1 after := by
  obtain ⟨finds, asked, rcode, ancount, verdict⟩ := strange
  rcases answer : procAnswer res rptr packet with ⟨collected, result⟩
  rw [answer] at verdict
  obtain rfl : result = .strange := verdict
  have goes : getRes res state packet sending =
      if collected.retries - 1 ≤ 0 then
        ((getresErr res { state with hErrno := .tryAgain }
          { collected with resend := true, retries := collected.retries - 1 } sending).1,
          (getresErr res { state with hErrno := .tryAgain }
            { collected with resend := true, retries := collected.retries - 1 } sending).2, none)
      else (resendQuery state { collected with resend := true, retries := collected.retries - 1 } sending, none, none) := by
    unfold getRes
    simp [show state.requests.find? _ = some rptr from finds, asked, rcode, ancount, answer]
  rw [goes]
  split
  · rw [getresErr_again rfl]
    exact ⟨_, rfl, rfl, ⟨rfl, rfl, rfl, rfl⟩⟩
  · obtain ⟨after, requests, recounted, -⟩ :=
      resendQuery_requests state { collected with resend := true, retries := collected.retries - 1 } sending
    exact ⟨after, requests, recounted.address,
      recounted.like.holdings, recounted.like.type, recounted.like.name, recounted.like.addr⟩

theorem strange_iff (stored : Stored state) (strange : FindsStrange res state packet rptr) (sending : Option Sending) :
    (∃ after ∈ (getRes res state packet sending).1.requests, after.address = rptr.address ∧ after.holdings = rptr.holdings ∧
        after.type = rptr.type ∧ after.name = rptr.name ∧ after.addr = rptr.addr) ↔
      (packet.question.bind (asked rptr) = some true → Idles res rptr rptr.he.addrs.length packet.answers) := by
  obtain ⟨after, requests, address, like⟩ := strange_requests strange sending
  have member := List.mem_of_find?_eq_some strange.finds
  have collects := procAnswer_collects res rptr packet
  have kept : (∃ other ∈ (getRes res state packet sending).1.requests,
    other.address = rptr.address ∧ other.holdings = rptr.holdings ∧
      other.type = rptr.type ∧ other.name = rptr.name ∧ other.addr = rptr.addr) ↔
      (procAnswer res rptr packet).1.holdings = rptr.holdings ∧ (procAnswer res rptr packet).1.type = rptr.type := by
    have here := fun other => setRequest_mem other member (address.trans collects.address)
    rw [requests, ← like.holdings, ← like.type]
    constructor
    · rintro ⟨other, inside, same, holdings, type, -⟩
      rw [← (here other).mp ⟨inside, same⟩]
      exact ⟨holdings, type⟩
    · rintro ⟨holdings, type⟩
      obtain ⟨inside, same⟩ := (here after).mpr rfl
      exact ⟨after, inside, same, holdings, type, like.name.trans collects.name, like.addr.trans collects.addr⟩
  rw [kept]
  have verdict := strange.strange
  unfold procAnswer at verdict ⊢
  split at verdict
  next => cases verdict
  next one =>
    rw [if_neg one]
    split at verdict
    next => cases verdict
    next wrong =>
      rw [wrong]
      exact ⟨fun _ right => absurd (Option.some.inj right) Bool.false_ne_true, fun _ => ⟨rfl, rfl⟩⟩
    next right =>
      rw [right]
      simp only [true_implies]
      have placed : Proc.Placed ⟨rptr, [], rptr.he.addrs.length, 0⟩ := ⟨Nat.le_refl _, stored.roomy rptr member⟩
      exact (idles_iff placed rfl rfl verdict).symm

/-- Whatever requests are outstanding in a run, a packet that is rejected leaves no trace just where no old error is
left over and no query is due, and where nothing is collected in front of the record that is strange. -/
theorem rejected_traceless (run : (lookups res ip).Run Machine.Any World.start world)
    (packet : Packet) (sending : Option Sending) :
    Traceless res world.resolver packet sending ↔ Harmless res world.resolver packet sending := by
  have stored := run_stored run
  constructor
  · intro traceless
    refine ⟨fun rptr finds unasked => ?_, fun rptr strange => ?_⟩
    · exact (unasked_iff stored.numbered finds unasked sending).mp (traceless.unasked rptr finds unasked)
    · exact (strange_iff stored strange sending).mp (traceless.strange rptr strange)
  · intro harmless
    refine ⟨fun rptr finds unasked => ?_, fun rptr strange => ?_⟩
    · exact (unasked_iff stored.numbered finds unasked sending).mpr (harmless.unasked rptr finds unasked)
    · exact (strange_iff stored strange sending).mpr (harmless.strange rptr strange)

end

private def trusted : InAddr := ⟨127, 0, 0, 1⟩

private def resolving : Res := ⟨[trusted], false, [], 4⟩

private def caller : ClientId → InAddr := fun _ => ⟨192, 0, 2, 7⟩

private def zone : Text := "7.2.0.192.in-addr.arpa".toList

/-- The first query of the first client could not be sent, and left its error. -/
private def unsent : List Event := [.addConnection 0 (some ⟨1, 0⟩), .addConnection 1 (some ⟨2, 1⟩)]

private def unsentRun : World := unsent.foldl (perform resolving caller) .start

private theorem unsent_runs : (lookups resolving caller).Run Machine.Any World.start unsentRun :=
  Machine.Run.of_list unsent (.refl _) ⟨trivial, trivial, trivial, trivial, trivial⟩

/-- A packet from nowhere ends the second client's lookup. -/
theorem unasked_ends :
    ¬ ∀ (res : Res) (ip : ClientId → InAddr) (world : World) (packet : Packet) (sending : Option Sending),
      (lookups res ip).Run Machine.Any World.start world → Traceless res world.resolver packet sending := by
  intro claim
  have traceless := claim resolving caller unsentRun ⟨⟨198, 51, 100, 1⟩, 2, .noError, 1, 0, none, []⟩ none unsent_runs
  obtain ⟨-, ended⟩ := traceless.unasked _ rfl (by decide)
  exact absurd ended (by decide)

/-- A CNAME in front of a record about something else stays with the request, which no query is sent for any more. -/
private def halfway : Packet :=
  ⟨trusted, 2, .noError, 1, 2, some (zone, .ptr, true),
    [.cname zone (some "a.example.org".toList), .ptr "b.example.org".toList none]⟩

example : (getRes resolving unsentRun.resolver halfway (some ⟨3, 1⟩)).1.requests.map
  (fun rptr => (rptr.type, rptr.he.hAliases, rptr.id)) =
    [(.ptr, [], some 1), (.cname, [zone], some 2)] := by decide

theorem rejected_traceless_other :
    Traceless resolving unsentRun.resolver
      ⟨trusted, 2, .noError, 1, 2, some (zone, .ptr, true),
        [.other zone, .ptr "b.example.org".toList none]⟩ (some ⟨3, 1⟩) := by
  refine (rejected_traceless unsent_runs _ _).mpr ⟨fun rptr finds unasked => ?_, fun rptr strange _ => ?_⟩
  · obtain rfl := Option.some.inj finds
    exact absurd unasked (by decide)
  · obtain rfl := Option.some.inj strange.finds
    exact fun _ => ⟨trivial, fun other => absurd other (by decide)⟩

end SolidIrcd.Dns
