import SolidIrcd.Clones.Count

/-! What `clones_check` answers when some of the clients are gone. An address without clients
has no entry, and then the limit of its class does not exempt it from the default limit of
its /24. -/

namespace SolidIrcd.Clones

open Function (update)
open Scan (Text)
open UserBan (Address inetntoa)

/-- An entry after some of its clients have left: its limits are still set, and an entry that
is gone had none. -/
def Lowered : Option CloneEnt → Option CloneEnt → Prop
  | some ce, some ce' =>
    ce'.limit = ce.limit ∧ ce'.sllimit = ce.sllimit ∧ ce'.sglimit = ce.sglimit ∧
      ce'.lcount ≤ ce.lcount ∧ ce'.gcount ≤ ce.gcount
  | some ce, none => ce.limit = 0 ∧ ce.sllimit = 0 ∧ ce.sglimit = 0
  | none, some _ => False
  | none, none => True

def Fewer (table table' : Table) : Prop := ∀ key, Lowered (table key) (table' key)

/-- The last client of the address has left, so nothing looks at the limit of its class, and
the default limit of the /24 is reached. -/
def Exposed (limits : Limits) (hostip : Text) (table table' : Table) : Prop :=
  table hostip ≠ none ∧ table' hostip = none ∧ limits.connfreq ≠ 0 ∧ limits.ip24clones = 0 ∧
    ∃ ce, table' (ip24 hostip) = some ce ∧ ce.sllimit = 0 ∧ limits.localIp24 ≤ ce.lcount

theorem Lowered.refl (entry : Option CloneEnt) : Lowered entry entry := by
  cases entry with
  | none => trivial
  | some ce => exact ⟨rfl, rfl, rfl, Int.le_refl _, Int.le_refl _⟩

theorem Lowered.trans (first : Lowered entry entry') (second : Lowered entry' entry'') : Lowered entry entry'' := by
  cases entry with
  | none =>
    cases entry' with
    | none => exact second
    | some ce' => exact first.elim
  | some ce =>
    cases entry' with
    | none =>
      cases entry'' with
      | none => exact first
      | some ce'' => exact second.elim
    | some ce' =>
      obtain ⟨limit, sllimit, sglimit, lcount, gcount⟩ := first
      cases entry'' with
      | none =>
        obtain ⟨hard, softLocal, softGlobal⟩ := second
        exact ⟨limit ▸ hard, sllimit ▸ softLocal, sglimit ▸ softGlobal⟩
      | some ce'' =>
        obtain ⟨limit', sllimit', sglimit', lcount', gcount'⟩ := second
        exact ⟨limit'.trans limit, sllimit'.trans sllimit, sglimit'.trans sglimit, Int.le_trans lcount' lcount,
          Int.le_trans gcount' gcount⟩

theorem Fewer.refl (table : Table) : Fewer table table := fun key => .refl (table key)

theorem Fewer.trans (first : Fewer table table') (second : Fewer table' table'') : Fewer table table'' :=
  fun key => (first key).trans (second key)

/-- `expire_clone` frees no entry with a limit. -/
theorem Lowered.expire (lowered : Lowered entry (some ce)) : Lowered entry ce.expire := by
  apply lowered.trans
  unfold CloneEnt.expire
  split
  next => exact .refl _
  next free =>
    simp only [CloneEnt.needed, Bool.or_eq_true, not_or, decide_eq_true_eq, ne_eq, not_not] at free
    exact ⟨free.1.1.2, free.1.2, free.2⟩

theorem Fewer.removeOne (table : Table) (uplinkMe : Bool) (key : Text) :
    Fewer table (table.removeOne uplinkMe key) := by
  intro key'
  by_cases same : key' = key
  · subst same
    unfold Table.removeOne
    cases entry : table key' with
    | none =>
      simp only [entry]
      exact .refl none
    | some ce =>
      simp only [Function.update_self]
      apply Lowered.expire
      refine ⟨rfl, rfl, rfl, ?_, ?_⟩
      · cases uplinkMe with
        | false => exact Int.le_refl _
        | true => exact Int.sub_le_self _ (by decide)
      · exact Int.sub_le_self _ (by decide)
  · rw [removeOne_of_ne table uplinkMe same]
    exact .refl _

/-- A client that leaves lowers the counts of its address and of its /24. -/
theorem Fewer.exitOneClient (server : Server) (client : Client) :
    Fewer server.table (server.exitOneClient client).table := by
  unfold Server.exitOneClient
  split
  next =>
    exact Fewer.trans (.removeOne server.table client.uplinkMe (inetntoa client.ip))
      (.removeOne _ client.uplinkMe (ip24 (inetntoa client.ip)))
  next => exact Fewer.refl _

/-- Clients that exit one after the other leave a table with fewer of them. -/
theorem Fewer.exits (server : Server) (gone : List ClientId) :
    Fewer server.table ((gone.map Action.exit).foldl Server.perform server).table := by
  induction gone generalizing server with
  | nil => exact .refl _
  | cons cptr gone ih =>
    refine Fewer.trans ?_ (ih _)
    simp only [Server.perform]
    cases server.find cptr with
    | none => exact .refl _
    | some client => exact .exitOneClient server client

/-- The priority of the local limit of an address. -/
def Limits.localPriority (limits : Limits) : Option CloneEnt → Nat
  | none => 0
  | some ce => if ce.sllimit ≠ 0 then 3 else if limits.connfreq ≠ 0 then 2 else 1

/-- The priority of its global limit. -/
def globalPriority : Option CloneEnt → Nat
  | none => 0
  | some ce => if ce.sglimit ≠ 0 then 3 else if ce.limit ≠ 0 then 2 else 1

def Limits.addressFull (limits : Limits) (ce : CloneEnt) : Bool :=
  decide (ce.lcount ≥
    if ce.sllimit ≠ 0 then ce.sllimit else if limits.connfreq ≠ 0 then limits.connfreq else limits.localIp) ||
  decide (ce.gcount ≥ if ce.sglimit ≠ 0 then ce.sglimit else if ce.limit ≠ 0 then ce.limit else limits.globalIp)

def Limits.localFull (limits : Limits) (lpri : Nat) (ce : CloneEnt) : Bool :=
  if ce.sllimit ≠ 0 then decide (ce.lcount ≥ ce.sllimit)
  else if lpri ≤ 2 ∧ limits.ip24clones ≠ 0 then decide (ce.lcount ≥ limits.ip24clones)
  else decide (lpri ≤ 1) && decide (ce.lcount ≥ limits.localIp24)

def Limits.globalFull (limits : Limits) (gpri : Nat) (ce : CloneEnt) : Bool :=
  if ce.sglimit ≠ 0 then decide (ce.gcount ≥ ce.sglimit)
  else if ce.limit ≠ 0 then decide (ce.gcount ≥ ce.limit)
  else decide (gpri ≤ 1) && decide (ce.gcount ≥ limits.globalIp24)

private theorem zero_of_full (first second : Bool) :
    (if (first || second) = true then 2 else 0) = 0 ↔ first = false ∧ second = false := by
  cases first <;> cases second <;> simp

/-- A connection is accepted when neither its address nor its /24 is full. -/
theorem clonesCheck_eq_zero (table : Table) (limits : Limits) (hostip : Text) :
    table.clonesCheck limits hostip = 0 ↔
      (∀ ce, table hostip = some ce → limits.addressFull ce = false) ∧
        ∀ ce, table (ip24 hostip) = some ce →
          limits.localFull (limits.localPriority (table hostip)) ce = false ∧
            limits.globalFull (globalPriority (table hostip)) ce = false := by
  unfold Table.clonesCheck
  cases table hostip with
  | none =>
    cases table (ip24 hostip) with
    | none => simp
    | some net =>
      simp only [reduceCtorEq, false_implies, implies_true, true_and, Option.some.injEq, forall_eq']
      exact zero_of_full (limits.localFull 0 net) (limits.globalFull 0 net)
  | some ce =>
    simp only [Option.some.injEq, forall_eq']
    simp only [apply_ite Prod.fst, apply_ite Prod.snd]
    cases address : limits.addressFull ce with
    | true =>
      unfold Limits.addressFull at address
      rw [if_pos address]
      simp only [Nat.one_ne_zero, Bool.true_eq_false, false_and]
    | false =>
      unfold Limits.addressFull at address
      rw [if_neg (Bool.eq_false_iff.mp address)]
      simp only [true_and]
      cases table (ip24 hostip) with
      | none => simp
      | some net =>
        simp only [Option.some.injEq, forall_eq']
        exact zero_of_full (limits.localFull (limits.localPriority (some ce)) net)
          (limits.globalFull (globalPriority (some ce)) net)

variable {limits : Limits} {ce ce' : CloneEnt}

/-- Fewer clients do not fill an address. -/
theorem addressFull_lowered (lowered : Lowered (some ce) (some ce')) (free : limits.addressFull ce = false) :
    limits.addressFull ce' = false := by
  obtain ⟨limit, sllimit, sglimit, lcount, gcount⟩ := lowered
  unfold Limits.addressFull at free ⊢
  rw [limit, sllimit, sglimit]
  simp only [Bool.or_eq_false_iff, decide_eq_false_iff_not, ge_iff_le, Int.not_le] at free ⊢
  exact ⟨Int.lt_of_le_of_lt lcount free.1, Int.lt_of_le_of_lt gcount free.2⟩

/-- Nor do they fill a /24 whose address has the same priority. -/
theorem localFull_lowered (lowered : Lowered (some ce) (some ce')) (free : limits.localFull lpri ce = false) :
    limits.localFull lpri ce' = false := by
  obtain ⟨limit, sllimit, sglimit, lcount, gcount⟩ := lowered
  unfold Limits.localFull at free ⊢
  rw [sllimit]
  split at free
  next soft =>
    rw [if_pos soft]
    simp only [decide_eq_false_iff_not, ge_iff_le, Int.not_le] at free ⊢
    exact Int.lt_of_le_of_lt lcount free
  next soft =>
    rw [if_neg soft]
    split at free
    next ofClass =>
      rw [if_pos ofClass]
      simp only [decide_eq_false_iff_not, ge_iff_le, Int.not_le] at free ⊢
      exact Int.lt_of_le_of_lt lcount free
    next ofClass =>
      rw [if_neg ofClass]
      simp only [Bool.and_eq_false_iff, decide_eq_false_iff_not, ge_iff_le, Int.not_le] at free ⊢
      exact free.imp_right (Int.lt_of_le_of_lt lcount)

theorem globalFull_lowered (lowered : Lowered (some ce) (some ce')) (default : gpri' ≤ 1 → gpri ≤ 1)
    (free : limits.globalFull gpri ce = false) : limits.globalFull gpri' ce' = false := by
  obtain ⟨limit, sllimit, sglimit, lcount, gcount⟩ := lowered
  unfold Limits.globalFull at free ⊢
  rw [limit, sglimit]
  split at free
  next soft =>
    rw [if_pos soft]
    simp only [decide_eq_false_iff_not, ge_iff_le, Int.not_le] at free ⊢
    exact Int.lt_of_le_of_lt gcount free
  next soft =>
    rw [if_neg soft]
    split at free
    next hard =>
      rw [if_pos hard]
      simp only [decide_eq_false_iff_not, ge_iff_le, Int.not_le] at free ⊢
      exact Int.lt_of_le_of_lt gcount free
    next hard =>
      rw [if_neg hard]
      simp only [Bool.and_eq_false_iff, decide_eq_false_iff_not, ge_iff_le, Int.not_le] at free ⊢
      exact free.imp (fun exempt low => exempt (default low)) (Int.lt_of_le_of_lt gcount)

/-- The default limit of the /24 is what an address loses its exemption from. -/
theorem localFull_gone {net : CloneEnt} (soft : ce.sllimit = 0)
    (free : limits.localFull (limits.localPriority (some ce)) net = false) :
    limits.localFull 0 net = false ↔
      ¬(limits.connfreq ≠ 0 ∧ limits.ip24clones = 0 ∧ net.sllimit = 0 ∧ limits.localIp24 ≤ net.lcount) := by
  unfold Limits.localFull at free ⊢
  by_cases set : net.sllimit = 0
  · by_cases ofClass : limits.ip24clones = 0
    · by_cases connfreq : limits.connfreq = 0
      · simp only [Limits.localPriority, soft, set, ofClass, connfreq, ne_eq, not_true_eq_false, if_false, and_false,
          Nat.le_refl, Nat.zero_le, decide_true, Bool.true_and, false_and, not_false_eq_true, iff_true] at free ⊢
        exact free
      · simp [set, ofClass, connfreq]
    · have low : limits.localPriority (some ce) ≤ 2 := by
        simp only [Limits.localPriority, soft, ne_eq, not_true_eq_false, if_false]
        split <;> decide
      simp only [set, ofClass, low, ne_eq, not_true_eq_false, if_false, not_false_eq_true, and_true, if_true,
        Nat.zero_le, false_and, and_false, iff_true] at free ⊢
      exact free
  · simp only [set, ne_eq, not_false_eq_true, if_true, false_and, and_false, iff_true] at free ⊢
    exact free

theorem network_lowered {entry entry' : Option CloneEnt} (lowered : Lowered entry entry') (default : gpri' ≤ 1 → gpri ≤ 1)
    (free : ∀ ce, entry = some ce → limits.localFull lpri ce = false ∧ limits.globalFull gpri ce = false) :
    ∀ ce, entry' = some ce → limits.localFull lpri ce = false ∧ limits.globalFull gpri' ce = false := by
  rintro ce rfl
  cases entry with
  | none => exact lowered.elim
  | some net =>
    obtain ⟨locals, global⟩ := free net rfl
    exact ⟨localFull_lowered lowered locals, globalFull_lowered lowered default global⟩

/-- With fewer clients a connection that was accepted still is, unless its address has lost
its last client and with it the exemption that the limit of the class gives. -/
theorem clonesCheck_fewer {table table' : Table} {hostip : Text} (fewer : Fewer table table')
    (accepted : table.clonesCheck limits hostip = 0) :
    table'.clonesCheck limits hostip = 0 ↔ ¬Exposed limits hostip table table' := by
  rw [clonesCheck_eq_zero] at accepted ⊢
  obtain ⟨address, network⟩ := accepted
  have host := fewer hostip
  have net := fewer (ip24 hostip)
  cases before : table hostip with
  | none =>
    rw [before] at host network
    cases after : table' hostip with
    | some ce' =>
      rw [after] at host
      exact host.elim
    | none =>
      have unexposed : ¬Exposed limits hostip table table' := fun exposed => exposed.1 before
      simp only [unexposed, not_false_eq_true, iff_true]
      refine ⟨?_, network_lowered net id network⟩
      intro _ absent
      cases absent
  | some ce =>
    rw [before] at host network
    cases after : table' hostip with
    | some ce' =>
      have unexposed : ¬Exposed limits hostip table table' := by
        intro exposed
        rw [exposed.2.1] at after
        cases after
      simp only [unexposed, not_false_eq_true, iff_true]
      rw [after] at host
      refine ⟨?_, ?_⟩
      · intro ce'' same
        cases same
        exact addressFull_lowered host (address ce before)
      · obtain ⟨limit, sllimit, sglimit, -⟩ := host
        simp only [Limits.localPriority, globalPriority, limit, sllimit, sglimit]
        exact network_lowered net id network
    | none =>
      rw [after] at host
      obtain ⟨limit, sllimit, sglimit⟩ := host
      have default : globalPriority none ≤ 1 → globalPriority (some ce) ≤ 1 := by
        intro
        simp [globalPriority, limit, sglimit]
      have lowered := network_lowered net default network
      simp only [reduceCtorEq, false_implies, implies_true, true_and]
      constructor
      · rintro accepted ⟨-, -, connfreq, ofClass, net', there, soft, reached⟩
        exact (localFull_gone sllimit (lowered net' there).1).mp (accepted net' there).1
          ⟨connfreq, ofClass, soft, reached⟩
      · intro unexposed net' there
        refine ⟨(localFull_gone sllimit (lowered net' there).1).mpr ?_, (lowered net' there).2⟩
        rintro ⟨connfreq, ofClass, soft, reached⟩
        apply unexposed
        exact ⟨Option.ne_none_iff_exists'.mpr ⟨ce, before⟩, after, connfreq, ofClass, net', there, soft, reached⟩

private def host (last : Nat) : Address := BitVec.ofNat 32 (0x0A000000 + last)

/-- A class with a limit for each address, and a default limit of two for a /24. -/
private def perAddress : Limits := ⟨5, 0, 10, 2, 100, 100⟩

private def join (cptr : ClientId) (last : Nat) : List Action :=
  [.connect cptr (host last), .register cptr ⟨false, false, perAddress, false, false, false⟩]

private def arrivals : List Action := join 1 1 ++ join 2 2 ++ join 3 2

private def full : Server := arrivals.foldl Server.perform .start

theorem clonesCheck_fewer_exit :
    (([Action.exit 3].foldl Server.perform full).table.clonesCheck perAddress (inetntoa (host 1)) = 0 ↔
      ¬Exposed perAddress (inetntoa (host 1)) full.table ([Action.exit 3].foldl Server.perform full).table) :=
  clonesCheck_fewer (.exits full [3]) (by decide +kernel)

/-- When the only client of an address leaves, the next one from there is no longer let in. -/
theorem exit_fills_the_network :
    machine.Run Machine.Any .start full ∧ full.table.clonesCheck perAddress (inetntoa (host 1)) = 0 ∧
      Fewer full.table (full.perform (.exit 1)).table ∧
      (full.perform (.exit 1)).table.clonesCheck perAddress (inetntoa (host 1)) = 2 := by
  refine ⟨Machine.Run.of_list arrivals (.refl _) ?_, ?_, .exits full [1], ?_⟩
  · refine ⟨?_, trivial, trivial, trivial, ?_, trivial, trivial, trivial, ?_, trivial, trivial, trivial, trivial⟩
    all_goals exact fresh (by decide +kernel)
  · decide +kernel
  · decide +kernel

end SolidIrcd.Clones
