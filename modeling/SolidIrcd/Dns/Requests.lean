import SolidIrcd.Dns.Reply

/-! What holds of every outstanding request: what the books of sending, a reply and a new lookup have to keep of it. -/

namespace SolidIrcd.Dns

open Scan (Text)

/-- The request that a packet answers, where none of its records is refused and some are counted. -/
def answered (res : Res) (state : Resolver) (packet : Packet) : Option ResRQ :=
  (state.requests.find? (·.id = some packet.id)).filter fun rptr =>
    fromNameserver res rptr packet.sin && packet.rcode == .noError && packet.ancount != 0 &&
      match procAnswer res rptr packet with
      | (_, .answers (_ + 1)) => true
      | _ => false

section

variable {res : Res} {proc next : Proc}

/-- A reply changes what a request has collected, and nothing of what it asks for. -/
structure Collects (before after : ResRQ) : Prop where
  address : after.address = before.address
  name : after.name = before.name
  addr : after.addr = before.addr
  cinfo : after.cinfo = before.cinfo
  hasRev : after.hasRev = before.hasRev
  heRev : after.heRev = before.heRev
  reverse : before.name = none → after.he.hAddrList = before.he.hAddrList

theorem Collects.refl (rptr : ResRQ) : Collects rptr rptr := ⟨rfl, rfl, rfl, rfl, rfl, rfl, fun _ => rfl⟩

theorem Collects.trans (first : Collects before middle) (second : Collects middle after) : Collects before after where
  address := second.address.trans first.address
  name := second.name.trans first.name
  addr := second.addr.trans first.addr
  cinfo := second.cinfo.trans first.cinfo
  hasRev := second.hasRev.trans first.hasRev
  heRev := second.heRev.trans first.heRev
  reverse none := (second.reverse (first.name.trans none)).trans (first.reverse none)

theorem keep_collects (owns : owned res origtype proc.rptr proc.acceptable record = true)
    (keeps : proc.keep res record = some next) : Collects proc.rptr next.rptr := by
  cases record with
  | a owner dr =>
    have named : proc.rptr.name ≠ none := fun none => by simp [owned, none] at owns
    cases dr with
    | none => simp [Proc.keep] at keeps
    | some dr =>
      obtain rfl := Option.some.inj keeps
      exact ⟨rfl, rfl, rfl, rfl, rfl, rfl, fun none => absurd none named⟩
  | ptr owner target =>
    cases target with
    | none =>
      obtain rfl := Option.some.inj keeps
      exact .refl _
    | some target =>
      simp only [Proc.keep] at keeps
      split at keeps
      · split at keeps <;> (obtain rfl := Option.some.inj keeps; exact ⟨rfl, rfl, rfl, rfl, rfl, rfl, fun _ => rfl⟩)
      · obtain rfl := Option.some.inj keeps
        exact ⟨rfl, rfl, rfl, rfl, rfl, rfl, fun _ => rfl⟩
  | cname owner target =>
    simp only [Proc.keep] at keeps
    split at keeps <;> (obtain rfl := Option.some.inj keeps; exact ⟨rfl, rfl, rfl, rfl, rfl, rfl, fun _ => rfl⟩)
  | other owner =>
    obtain rfl := Option.some.inj keeps
    exact .refl _

theorem procRecords_collects (proc : Proc) (records : List Record) :
    Collects proc.rptr (procRecords res origtype proc records).1 := by
  induction records generalizing proc with
  | nil => exact .refl _
  | cons record rest ih =>
    rw [procRecords]
    split
    · rename_i owns
      cases keeps : proc.keep res record with
      | none => exact .refl _
      | some after => exact (keep_collects owns keeps).trans (ih after)
    · exact .refl _

theorem procAnswer_collects (res : Res) (rptr : ResRQ) (packet : Packet) : Collects rptr (procAnswer res rptr packet).1 := by
  unfold procAnswer
  split
  · exact .refl _
  · split
    · exact .refl _
    · exact .refl _
    · exact procRecords_collects ⟨rptr, [], rptr.he.addrs.length, 0⟩ _

/-! The books of sending -/

/-- Sending a query again changes only its counters. -/
structure Resent (before after : ResRQ) : Prop where
  name : after.name = before.name
  addr : after.addr = before.addr
  cinfo : after.cinfo = before.cinfo
  he : after.he = before.he
  hasRev : after.hasRev = before.hasRev
  heRev : after.heRev = before.heRev

/-- What is said of a request does not depend on its counters. -/
def Steady (P : ResRQ → Prop) : Prop := ∀ before after, Resent before after → P before → P after

/-- It holds of every outstanding request. -/
def Outstanding (P : ResRQ → Prop) (state : Resolver) : Prop := ∀ rptr ∈ state.requests, P rptr

/-- The cache stays as it is. -/
structure SameCache (before after : Resolver) : Prop where
  cachetop : after.cachetop = before.cachetop
  numList : after.numList = before.numList
  incache : after.incache = before.incache
  made : before.made ≤ after.made

theorem SameCache.refl (state : Resolver) : SameCache state state := ⟨rfl, rfl, rfl, Nat.le_refl _⟩

theorem SameCache.of_hErrno (hErrno : HErrno) (same : SameCache { before with hErrno := hErrno } after) :
    SameCache before after :=
  ⟨same.cachetop, same.numList, same.incache, same.made⟩

theorem queryName_resent (rptr : ResRQ) (hErrno : HErrno) (sending : Option Sending) :
    Resent rptr (queryName rptr hErrno sending).1 := by
  cases sending with
  | none => exact ⟨rfl, rfl, rfl, rfl, rfl, rfl⟩
  | some sending => exact ⟨rfl, rfl, rfl, rfl, rfl, rfl⟩

theorem setRequest_sameCache (state : Resolver) (rptr : ResRQ) : SameCache state (setRequest state rptr) :=
  ⟨rfl, rfl, rfl, Nat.le_refl _⟩

theorem remRequest_sameCache (state : Resolver) (address : Nat) : SameCache state (remRequest state address) :=
  ⟨rfl, rfl, rfl, Nat.le_refl _⟩

theorem doQueryName_sameCache (state : Resolver) (lp : Link) (name : Text) (sending : Option Sending) :
    SameCache state (doQueryName state lp name sending) :=
  ⟨rfl, rfl, rfl, Nat.le_succ _⟩

theorem doQueryNumber_sameCache (state : Resolver) (lp : Link) (numb : InAddr) (sending : Option Sending) :
    SameCache state (doQueryNumber state lp numb sending) :=
  ⟨rfl, rfl, rfl, Nat.le_succ _⟩

theorem resendQuery_sameCache (state : Resolver) (rptr : ResRQ) (sending : Option Sending) :
    SameCache state (resendQuery state rptr sending) := by
  unfold resendQuery
  split
  · exact ⟨rfl, rfl, rfl, Nat.le_refl _⟩
  · exact setRequest_sameCache state rptr

theorem getresErr_sameCache (res : Res) (state : Resolver) (rptr : ResRQ) (sending : Option Sending) :
    SameCache state (getresErr res state rptr sending).1 := by
  unfold getresErr
  split
  · split
    · dsimp only
      split
      · exact resendQuery_sameCache state _ sending
      · exact resendQuery_sameCache state _ sending
    · exact resendQuery_sameCache state rptr sending
  · exact setRequest_sameCache state rptr

theorem delQueries_sameCache (state : Resolver) (cp : ClientId ⊕ Nat) : SameCache state (delQueries state cp) := by
  unfold delQueries
  split
  · exact .refl _
  · exact remRequest_sameCache state _

theorem timeoutQuery_sameCache (state : Resolver) (address : Nat) (sending : Option Sending) :
    SameCache state (timeoutQuery state address sending) := by
  unfold timeoutQuery
  split
  · exact .refl _
  · dsimp only
    split
    · exact remRequest_sameCache state address
    · exact resendQuery_sameCache state _ sending

section

variable {P : ResRQ → Prop}

theorem Outstanding.setRequest (all : Outstanding P state) (holds : P rptr) : Outstanding P (setRequest state rptr) := by
  intro other member
  obtain ⟨old, inside, rfl⟩ := List.mem_map.mp member
  split
  · exact holds
  · exact all old inside

theorem Outstanding.remRequest (all : Outstanding P state) (address : Nat) : Outstanding P (remRequest state address) :=
  fun other member => all other (List.mem_filter.mp member).1

theorem Outstanding.addRequest (all : Outstanding P state) (holds : P rptr) : Outstanding P (addRequest state rptr) := by
  intro other member
  rcases List.mem_append.mp member with before | new
  · exact all other before
  · rw [List.mem_singleton.mp new]
    exact holds

theorem Outstanding.resendQuery (steady : Steady P) (all : Outstanding P state) (holds : P rptr)
    (sending : Option Sending) : Outstanding P (resendQuery state rptr sending) := by
  unfold Dns.resendQuery
  split
  · have set := all.setRequest (steady _ _ (queryName_resent rptr state.hErrno sending) holds)
    exact set
  · exact all.setRequest holds

theorem Outstanding.getresErr (steady : Steady P) (all : Outstanding P state) (holds : P rptr)
    (sending : Option Sending) : Outstanding P (getresErr res state rptr sending).1 := by
  unfold Dns.getresErr
  split
  · split
    · dsimp only
      split
      · apply Outstanding.resendQuery steady all
        exact steady rptr _ ⟨rfl, rfl, rfl, rfl, rfl, rfl⟩ holds
      · apply Outstanding.resendQuery steady all
        exact steady rptr _ ⟨rfl, rfl, rfl, rfl, rfl, rfl⟩ holds
    · exact all.resendQuery steady holds sending
  · exact all.setRequest holds

theorem Outstanding.delQueries (all : Outstanding P state) (cp : ClientId ⊕ Nat) : Outstanding P (delQueries state cp) := by
  unfold Dns.delQueries
  split
  · exact all
  · exact all.remRequest _

theorem Outstanding.timeoutQuery (steady : Steady P) (all : Outstanding P state) (address : Nat)
    (sending : Option Sending) : Outstanding P (timeoutQuery state address sending) := by
  unfold Dns.timeoutQuery
  split
  · exact all
  · rename_i rptr found
    dsimp only
    split
    · exact all.remRequest address
    · apply Outstanding.resendQuery steady all
      exact steady rptr _ ⟨rfl, rfl, rfl, rfl, rfl, rfl⟩ (all rptr (List.mem_of_find?_eq_some found))

/-- A packet that is no answer leaves the cache as it is. -/
theorem getRes_unanswered (res : Res) (steady : Steady P)
    (replies : ∀ rptr, P rptr → P (procAnswer res rptr packet).1) (all : Outstanding P state)
    (none : answered res state packet = none) (sending : Option Sending) :
    Outstanding P (getRes res state packet sending).1 ∧ SameCache state (getRes res state packet sending).1 ∧
      (getRes res state packet sending).2.2 = Option.none := by
  unfold getRes
  cases found : state.requests.find? (·.id = some packet.id) with
  | none => exact ⟨all, .refl _, rfl⟩
  | some rptr =>
    have holds := all rptr (List.mem_of_find?_eq_some found)
    dsimp only
    split
    · exact ⟨all.getresErr steady holds sending, getresErr_sameCache res state rptr sending, rfl⟩
    · rename_i nameserver
      split
      · refine ⟨?_, ?_, rfl⟩
        · apply Outstanding.getresErr steady
          · exact all
          · split
            · exact holds
            · exact steady rptr _ ⟨rfl, rfl, rfl, rfl, rfl, rfl⟩ holds
        · apply SameCache.of_hErrno packet.rcode.hErrno
          exact getresErr_sameCache res _ _ sending
      · rename_i error
        have collected := replies rptr holds
        rcases verdict : procAnswer res rptr packet with ⟨after, result⟩
        rw [verdict] at collected
        cases result with
        | broken =>
          dsimp only
          split
          · exact ⟨all.remRequest _, remRequest_sameCache state _, rfl⟩
          · exact ⟨all.setRequest collected, setRequest_sameCache state _, rfl⟩
        | malicious => exact ⟨all.remRequest _, remRequest_sameCache state _, rfl⟩
        | strange =>
          dsimp only
          have retried := steady after { after with resend := true, retries := after.retries - 1 }
            ⟨rfl, rfl, rfl, rfl, rfl, rfl⟩ collected
          split
          · refine ⟨?_, ?_, rfl⟩
            · apply Outstanding.getresErr steady
              · exact all
              · exact retried
            · apply SameCache.of_hErrno .tryAgain
              exact getresErr_sameCache res _ _ sending
          · exact ⟨all.resendQuery steady retried sending, resendQuery_sameCache state _ sending, rfl⟩
        | answers ans =>
          cases ans with
          | zero =>
            dsimp only
            split
            · exact ⟨all.remRequest _, remRequest_sameCache state _, rfl⟩
            · exact ⟨all.setRequest collected, setRequest_sameCache state _, rfl⟩
          | succ ans =>
            simp only [Bool.not_eq_true', Bool.not_eq_false] at nameserver
            simp only [ne_eq, not_or, not_not] at error
            simp [answered, found, Option.filter, verdict, nameserver, error.1, error.2] at none

theorem findCacheNumber_spec (state : Resolver) (numb : InAddr) :
    (findCacheNumber state numb).1.requests = state.requests ∧
      (findCacheNumber state numb).1.numList = state.numList ∧
      ∀ cp, (findCacheNumber state numb).2 = some cp → cp ∈ state.numList (hashNumber numb) ∧ numb ∈ cp.hAddrList := by
  unfold findCacheNumber
  cases found : (state.numList (hashNumber numb)).find? fun cp => numb ∈ cp.hAddrList with
  | none => exact ⟨rfl, rfl, fun _ same => nomatch same⟩
  | some cp =>
    have names := List.find?_some found
    refine ⟨?_, ?_, fun other same => ?_⟩
    · simp only [updateList]
      split <;> rfl
    · simp only [updateList]
      split <;> rfl
    · rw [← Option.some.inj same]
      exact ⟨List.mem_of_find?_eq_some found, by simpa using names⟩

theorem findCacheNumbers_requests (state : Resolver) (numbs : List InAddr) :
    (findCacheNumbers state numbs).1.requests = state.requests := by
  induction numbs generalizing state with
  | nil => rfl
  | cons numb rest ih =>
    obtain ⟨requests, _, _⟩ := findCacheNumber_spec state numb
    rw [findCacheNumbers]
    rcases step : findCacheNumber state numb with ⟨middle, hit⟩
    rw [step] at requests
    cases hit with
    | none => exact (ih middle).trans requests
    | some cp => exact requests

theorem addToCache_requests (state : Resolver) (ocp : ACache) : (addToCache state ocp).requests = state.requests := by
  unfold addToCache
  dsimp only
  split
  · rw [List.getLast?_cons]
    rfl
  · rfl

theorem makeCache_requests (state : Resolver) (rptr : ResRQ) : (makeCache state rptr).1.requests = state.requests := by
  unfold makeCache
  split
  · rfl
  · rfl
  · rename_i hName _ _
    have search := findCacheNumbers_requests state rptr.he.addrs
    rcases found : findCacheNumbers state rptr.he.addrs with ⟨middle, hit⟩
    rw [found] at search
    cases hit with
    | some cp => exact search
    | none => exact (addToCache_requests middle _).trans search

/-- The request that `get_res` makes for the name that an address has. -/
def relookup (state : Resolver) (rptr : ResRQ) (hName : Text) : ResRQ :=
  { makeRequest state rptr.cinfo with type := .a, name := some hName, heRev := rptr.he, hasRev := true }

theorem Outstanding.relookup (steady : Steady P) (all : Outstanding P state)
    (holds : P (Dns.relookup state rptr hName)) (sending : Option Sending) :
    let looked := gethostByname state hName rptr.cinfo sending
    Outstanding P { looked with
      requests := looked.requests.dropLast ++
        (looked.requests.getLast?.map fun last => { last with heRev := rptr.he, hasRev := true }).toList } := by
  intro looked other member
  have requests : looked.requests = state.requests ++
      [(queryName { makeRequest state rptr.cinfo with type := .a, name := some hName } state.hErrno sending).1] := rfl
  simp only [requests, List.dropLast_concat, List.getLast?_concat, Option.map_some, Option.toList_some] at member
  rcases List.mem_append.mp member with before | new
  · exact all other before
  · rw [List.mem_singleton.mp new]
    apply steady _ _ _ holds
    cases sending with
    | none => exact ⟨rfl, rfl, rfl, rfl, rfl, rfl⟩
    | some sending => exact ⟨rfl, rfl, rfl, rfl, rfl, rfl⟩

theorem Outstanding.accept (steady : Steady P) (all : Outstanding P state)
    (forward : ∀ hName, P (Dns.relookup state rptr hName)) (sending : Option Sending) :
    Outstanding P (accept state rptr sending).1 := by
  have made (final : ResRQ) : Outstanding P (makeCache state final).1 := by
    unfold Outstanding
    rw [makeCache_requests]
    exact all
  unfold Dns.accept
  split
  · split
    · exact all.remRequest _
    · exact (all.relookup steady (forward _) sending).remRequest _
  · split
    · exact all.remRequest _
    · exact (made _).remRequest _
  · exact (made rptr).remRequest _

/-! How many aliases a request has -/

/-- There is a place for the pointer behind the aliases. -/
def Terminated (rptr : ResRQ) : Prop := rptr.he.hAliases.length < maxAliases

theorem terminated_steady : Steady Terminated := by
  intro before after resent terminated
  unfold Terminated
  rw [resent.he]
  exact terminated

theorem keep_terminated (terminated : Terminated proc.rptr) (keeps : proc.keep res record = some next) :
    Terminated next.rptr := by
  cases record with
  | a owner dr =>
    cases dr with
    | none => simp [Proc.keep] at keeps
    | some dr =>
      obtain rfl := Option.some.inj keeps
      exact terminated
  | ptr owner target =>
    cases target with
    | none =>
      obtain rfl := Option.some.inj keeps
      exact terminated
    | some target =>
      simp only [Proc.keep] at keeps
      split at keeps
      · split at keeps
        · obtain rfl := Option.some.inj keeps
          exact terminated
        · rename_i room
          obtain rfl := Option.some.inj keeps
          simp only [Terminated, List.length_append, List.length_singleton]
          omega
      · obtain rfl := Option.some.inj keeps
        exact terminated
  | cname owner target =>
    simp only [Proc.keep] at keeps
    split at keeps
    · obtain rfl := Option.some.inj keeps
      exact terminated
    · rename_i room
      obtain rfl := Option.some.inj keeps
      simp only [Terminated, List.length_append, List.length_singleton]
      omega
  | other owner =>
    obtain rfl := Option.some.inj keeps
    exact terminated

theorem procRecords_terminated (records : List Record) (terminated : Terminated proc.rptr) :
    Terminated (procRecords res origtype proc records).1 := by
  induction records generalizing proc with
  | nil => exact terminated
  | cons record rest ih =>
    rw [procRecords]
    split
    · cases keeps : proc.keep res record with
      | none => exact terminated
      | some after => exact ih (keep_terminated terminated keeps)
    · exact terminated

theorem procAnswer_terminated (terminated : Terminated rptr) (packet : Packet) :
    Terminated (procAnswer res rptr packet).1 := by
  unfold procAnswer
  split
  · exact terminated
  · split
    · exact terminated
    · exact terminated
    · apply procRecords_terminated
      exact terminated

end

end

end SolidIrcd.Dns
