import SolidIrcd.Lib.Machine
import Mathlib.Data.Finset.Card
import Mathlib.Data.List.Pairwise

/-! `check_target_limit` of `s_user.c`: a user has a few places for those he sends messages to, and a place is free again
some time after the last message. -/

namespace SolidIrcd.TargetLimit

/-- An `aClient` pointer. -/
abbrev ClientId := Nat

def msgTargetMin : Nat := 5
def msgTargetMax : Nat := 8
def msgTargetMinToMaxTime : Int := 300
def msgTargetTime : Int := 45

/-- An entry of `targets`. -/
structure Target where
  cli : Option ClientId
  sent : Int
  deriving DecidableEq, Repr

/-- What `check_target_limit` reads and changes of the sender. -/
structure Sender where
  sptr : ClientId
  oper : Bool
  noMsgThrottle : Bool
  firsttime : Int
  targets : List Target
  since : Int
  lastTargetComplain : Int
  numTargetErrors : Nat
  deriving DecidableEq, Repr

/-- What a refused user is told to wait, and the number of errors that operators are told of. -/
structure Refusal where
  wait : Int
  complain : Option Nat
  deriving DecidableEq, Repr

/-- The first test: operators, users who talk to themselves or to services, and users who may send without limit. -/
def Sender.exempt (sender : Sender) (acptr : ClientId) (uline : Bool) : Bool :=
  sender.oper || decide (sender.sptr = acptr) || uline || sender.noMsgThrottle

/-- `max_targets`. -/
def Sender.maxTargets (sender : Sender) (now : Int) : Nat :=
  if now - sender.firsttime > msgTargetMinToMaxTime then msgTargetMax else msgTargetMin

/-- The test of the loop. -/
def Target.free (now : Int) (acptr : ClientId) (target : Target) : Bool :=
  target.cli = none || target.cli = some acptr || target.sent < now - msgTargetTime

/-- The loop: the first free place is taken, or `tmin` is what is left of it. -/
def seat (now : Int) (acptr : ClientId) : Int → List Target → Except Int (List Target)
  | tmin, [] => .error tmin
  | tmin, target :: targets =>
    if target.free now acptr then .ok (⟨some acptr, now⟩ :: targets)
    else (seat now acptr (if now - target.sent < tmin then now - target.sent else tmin) targets).map (target :: ·)

/-- The branch after a loop without a free place. -/
def Sender.refuse (sender : Sender) (now tmin : Int) : Refusal × Sender :=
  let since := sender.since + 2
  let numTargetErrors := sender.numTargetErrors + 1
  if sender.lastTargetComplain + 60 ≤ now then
    (⟨msgTargetTime - tmin, some numTargetErrors⟩, { sender with since, numTargetErrors := 0, lastTargetComplain := now })
  else (⟨msgTargetTime - tmin, none⟩, { sender with since, numTargetErrors })

/-- `check_target_limit`. -/
def Sender.checkTargetLimit (sender : Sender) (acptr : ClientId) (uline : Bool) (now : Int) : Option Refusal × Sender :=
  if sender.exempt acptr uline then (none, sender)
  else
    let max := sender.maxTargets now
    match seat now acptr msgTargetTime (sender.targets.take max) with
    | .ok targets => (none, { sender with targets := targets ++ sender.targets.drop max })
    | .error tmin => let (refusal, sender) := sender.refuse now tmin; (some refusal, sender)

/-- A sender, the clock, and to whom the limit let a message through, the newest first. -/
structure Ledger where
  sender : Sender
  clock : Int
  accepted : List (ClientId × Int)
  deriving DecidableEq, Repr

/-- A user who has just connected. -/
def Ledger.start (sptr : ClientId) (firsttime : Int) : Ledger :=
  ⟨⟨sptr, false, false, firsttime, List.replicate msgTargetMax ⟨none, 0⟩, firsttime, 0, 0⟩, firsttime, []⟩

/-- A message, or a change of the modes that exempt the sender. -/
inductive Action where
  | message (acptr : ClientId) (uline : Bool) (now : Int)
  | mode (oper noMsgThrottle : Bool)
  deriving DecidableEq, Repr

def Ledger.perform (ledger : Ledger) : Action → Ledger
  | .message acptr uline now =>
    let (refusal, sender) := ledger.sender.checkTargetLimit acptr uline now
    let limited := refusal.isNone && !ledger.sender.exempt acptr uline
    ⟨sender, now, if limited then (acptr, now) :: ledger.accepted else ledger.accepted⟩
  | .mode oper noMsgThrottle => { ledger with sender := { ledger.sender with oper, noMsgThrottle } }

/-- Time goes on. -/
def Ledger.Possible (ledger : Ledger) : Action → Prop
  | .message _ _ now => ledger.clock ≤ now
  | .mode _ _ => True

def machine : Machine Ledger Action := ⟨Ledger.perform, Ledger.Possible⟩

/-- Who holds a place. -/
def Target.holder (now : Int) (target : Target) : Option ClientId :=
  if target.sent < now - msgTargetTime then none else target.cli

/-- A recipient who still holds a place has none in front of it that is free. -/
def Ledger.OwnFirst (ledger : Ledger) : Action → Prop
  | .message acptr uline now => ledger.sender.exempt acptr uline = false →
    ledger.sender.targets.Pairwise fun before target => target.holder now = some acptr → before.holder now ≠ none
  | .mode _ _ => True

/-- Who was sent a message in the last `msgTargetTime` seconds. -/
def recent (now : Int) (accepted : List (ClientId × Int)) : Finset ClientId :=
  ((accepted.filter fun entry => ¬ entry.2 < now - msgTargetTime).map Prod.fst).toFinset

/-- Who was sent a message in the `msgTargetTime` seconds from `low` on. -/
def within (low : Int) (accepted : List (ClientId × Int)) : Finset ClientId :=
  ((accepted.filter fun entry => low ≤ entry.2 ∧ entry.2 ≤ low + msgTargetTime).map Prod.fst).toFinset

/-- Who holds the places. -/
def holders (now : Int) (targets : List Target) : List ClientId := targets.filterMap (Target.holder now)

theorem mem_recent : cli ∈ recent now accepted ↔ ∃ sent, (cli, sent) ∈ accepted ∧ ¬ sent < now - msgTargetTime := by
  simp [recent]

theorem mem_within :
    cli ∈ within low accepted ↔ ∃ sent, (cli, sent) ∈ accepted ∧ low ≤ sent ∧ sent ≤ low + msgTargetTime := by
  simp [within]

theorem mem_holders : cli ∈ holders now targets ↔ ∃ target ∈ targets, target.holder now = some cli := List.mem_filterMap

theorem holder_eq_some :
    Target.holder now target = some cli ↔ ¬ target.sent < now - msgTargetTime ∧ target.cli = some cli := by
  unfold Target.holder
  split
  · rename_i gone
    simp [gone]
  · rename_i live
    simp [live]

theorem free_iff : Target.free now acptr target = true ↔ target.holder now = none ∨ target.holder now = some acptr := by
  unfold Target.free Target.holder
  split
  · rename_i gone
    simp [gone]
  · rename_i live
    simp [live]

/-! ### One message -/

theorem seat_error (full : ∀ target ∈ targets, Target.free now acptr target = false) (tmin : Int) :
    ∃ tmin', seat now acptr tmin targets = .error tmin' := by
  induction targets generalizing tmin with
  | nil => exact ⟨tmin, rfl⟩
  | cons target targets ih =>
    obtain ⟨here, later⟩ := List.forall_mem_cons.mp full
    obtain ⟨tmin', rest⟩ := ih later (if now - target.sent < tmin then now - target.sent else tmin)
    refine ⟨tmin', ?_⟩
    rw [seat, here, if_neg Bool.false_ne_true, rest]
    rfl

theorem seat_split (front back : List Target) (full : ∀ other ∈ front, Target.free now acptr other = false)
    (here : target.free now acptr = true) (tmin : Int) :
    seat now acptr tmin (front ++ target :: back) = .ok (front ++ ⟨some acptr, now⟩ :: back) := by
  induction front generalizing tmin with
  | nil => rw [List.nil_append, seat, here, if_pos rfl, List.nil_append]
  | cons other front ih =>
    obtain ⟨taken, later⟩ := List.forall_mem_cons.mp full
    rw [List.cons_append, seat, taken, if_neg Bool.false_ne_true, ih later]
    rfl

/-- What a message does: it is refused where no place is free, and else has the first one that is. -/
inductive Seated (sender : Sender) (acptr : ClientId) (now : Int) : Option Refusal × Sender → Prop
  | refused (full : ∀ target ∈ sender.targets.take (sender.maxTargets now), target.free now acptr = false)
      (same : sender'.targets = sender.targets) (first : sender'.firsttime = sender.firsttime) :
      Seated sender acptr now (some refusal, sender')
  | seated (front back : List Target) (target : Target) (split : sender.targets = front ++ target :: back)
      (inside : front.length < sender.maxTargets now) (full : ∀ other ∈ front, other.free now acptr = false)
      (here : target.free now acptr = true) :
      Seated sender acptr now (none, { sender with targets := front ++ ⟨some acptr, now⟩ :: back })

theorem refuse_targets (sender : Sender) (now tmin : Int) :
    (sender.refuse now tmin).2.targets = sender.targets ∧ (sender.refuse now tmin).2.firsttime = sender.firsttime := by
  unfold Sender.refuse
  dsimp only
  split
  · exact ⟨rfl, rfl⟩
  · exact ⟨rfl, rfl⟩

theorem checkTargetLimit_seated (limited : Sender.exempt sender acptr uline = false) (now : Int) :
    Seated sender acptr now (sender.checkTargetLimit acptr uline now) := by
  unfold Sender.checkTargetLimit
  rw [limited, if_neg Bool.false_ne_true]
  dsimp only
  cases found : (sender.targets.take (sender.maxTargets now)).find? (Target.free now acptr) with
  | none =>
    have full : ∀ target ∈ sender.targets.take (sender.maxTargets now), target.free now acptr = false := by
      intro target member
      simpa using List.find?_eq_none.mp found target member
    obtain ⟨tmin, refused⟩ := seat_error full msgTargetTime
    rw [refused]
    exact .refused full (refuse_targets sender now tmin).1 (refuse_targets sender now tmin).2
  | some target =>
    obtain ⟨here, front, back, split, full⟩ := List.find?_eq_some_iff_append.mp found
    have full : ∀ other ∈ front, other.free now acptr = false := by simpa using full
    have whole := List.take_append_drop (sender.maxTargets now) sender.targets
    have short := List.length_take_le (sender.maxTargets now) sender.targets
    rw [split, List.length_append, List.length_cons] at short
    rw [split, List.append_assoc, List.cons_append] at whole
    rw [split, seat_split front back full here]
    dsimp only
    rw [List.append_assoc, List.cons_append]
    exact .seated front _ target whole.symm (by omega) full here

/-! ### Every run -/

/-- The places hold the recent recipients and nobody else. -/
structure Kept (sender : Sender) (clock : Int) (accepted : List (ClientId × Int)) : Prop where
  size : sender.targets.length = msgTargetMax
  spare : ∀ target ∈ sender.targets.drop (sender.maxTargets clock), target.cli = none
  covered : ∀ cli sent, (cli, sent) ∈ accepted → ¬ sent < clock - msgTargetTime →
    ∃ target ∈ sender.targets, target.cli = some cli ∧ sent ≤ target.sent
  logged : ∀ target ∈ sender.targets, ∀ cli, target.cli = some cli → (cli, target.sent) ∈ accepted
  past : ∀ entry ∈ accepted, entry.2 ≤ clock
  windows : ∀ low, (within low accepted).card ≤ msgTargetMax

theorem maxTargets_mono (sender : Sender) (on : clock ≤ now) : sender.maxTargets clock ≤ sender.maxTargets now := by
  unfold Sender.maxTargets msgTargetMax msgTargetMin
  split <;> split <;> omega

theorem maxTargets_le (sender : Sender) (now : Int) : sender.maxTargets now ≤ msgTargetMax := by
  unfold Sender.maxTargets
  split <;> decide

theorem Kept.later (kept : Kept sender clock accepted) (on : clock ≤ now) : Kept sender now accepted where
  size := kept.size
  spare target member := kept.spare target (List.drop_subset_drop_left _ (maxTargets_mono sender on) member)
  covered cli sent member live := kept.covered cli sent member (by omega)
  logged := kept.logged
  past entry member := (kept.past entry member).trans on
  windows := kept.windows

theorem Kept.congr (kept : Kept sender clock accepted) (same : sender'.targets = sender.targets)
    (first : sender'.firsttime = sender.firsttime) : Kept sender' clock accepted := by
  have max : sender'.maxTargets clock = sender.maxTargets clock := by rw [Sender.maxTargets, Sender.maxTargets, first]
  refine ⟨same ▸ kept.size, ?_, same ▸ kept.covered, same ▸ kept.logged, kept.past, kept.windows⟩
  rw [max, same]
  exact kept.spare

theorem Kept.mem_recent_iff (kept : Kept sender clock accepted) :
    cli ∈ recent clock accepted ↔ cli ∈ holders clock sender.targets := by
  rw [mem_recent, mem_holders]
  constructor
  · intro ⟨sent, member, live⟩
    obtain ⟨target, there, own, after⟩ := kept.covered cli sent member live
    exact ⟨target, there, holder_eq_some.mpr ⟨by omega, own⟩⟩
  · intro ⟨target, there, held⟩
    obtain ⟨live, own⟩ := holder_eq_some.mp held
    exact ⟨target.sent, kept.logged target there cli own, live⟩

/-- A place is taken by whoever is free to take it, and nobody else loses one. -/
theorem Kept.covered_seat (kept : Kept sender now accepted) (split : sender.targets = front ++ target :: back)
    (here : target.free now acptr = true) (member : (cli, sent) ∈ (acptr, now) :: accepted)
      (live : ¬ sent < now - msgTargetTime) :
    ∃ place ∈ front ++ (⟨some acptr, now⟩ :: back : List Target), place.cli = some cli ∧ sent ≤ place.sent := by
  obtain new | old := List.mem_cons.mp member
  · cases new
    exact ⟨⟨some acptr, now⟩, by simp, rfl, Int.le_refl now⟩
  · obtain ⟨place, there, own, after⟩ := kept.covered cli sent old live
    rw [split, List.mem_append, List.mem_cons] at there
    obtain before | rfl | behind := there
    · exact ⟨place, List.mem_append_left _ before, own, after⟩
    · -- the place that is taken was held by the recipient himself
      have held : place.holder now = some cli := holder_eq_some.mpr ⟨by omega, own⟩
      obtain none | same := free_iff.mp here
      · rw [held] at none
        cases none
      · rw [held, Option.some.injEq] at same
        exact ⟨⟨some acptr, now⟩, by simp, congrArg some same.symm, kept.past _ old⟩
    · exact ⟨place, List.mem_append_right _ (List.mem_cons_of_mem _ behind), own, after⟩

theorem card_holders_le (now : Int) (targets : List Target) : (holders now targets).toFinset.card ≤ targets.length :=
  (List.toFinset_card_le _).trans (List.length_filterMap_le _ _)

theorem within_cons_of_outside (outside : ¬ (low ≤ now ∧ now ≤ low + msgTargetTime)) (accepted : List (ClientId × Int)) :
    within low ((acptr, now) :: accepted) = within low accepted := by
  rw [within, List.filter_cons_of_neg (by simpa using outside)]
  rfl

theorem Kept.seat (kept : Kept sender now accepted) (split : sender.targets = front ++ target :: back)
    (inside : front.length < sender.maxTargets now) (here : target.free now acptr = true) :
    Kept { sender with targets := front ++ ⟨some acptr, now⟩ :: back } now ((acptr, now) :: accepted) := by
  have size : (front ++ (⟨some acptr, now⟩ :: back : List Target)).length = msgTargetMax := by
    have before := kept.size
    rw [split] at before
    simpa using before
  have spare : ∀ other ∈ (front ++ (⟨some acptr, now⟩ :: back : List Target)).drop
    (sender.maxTargets now), other.cli = none := by
    have before := kept.spare
    obtain ⟨more, width⟩ : ∃ more, sender.maxTargets now = front.length + (more + 1) :=
      ⟨sender.maxTargets now - front.length - 1, by omega⟩
    rw [split, width, List.drop_length_add_append, List.drop_succ_cons] at before
    rw [width, List.drop_length_add_append, List.drop_succ_cons]
    exact before
  have logged : ∀ other ∈ front ++ (⟨some acptr, now⟩ :: back : List Target), ∀ cli, other.cli = some cli →
      (cli, other.sent) ∈ (acptr, now) :: accepted := by
    intro other member cli own
    rw [List.mem_append, List.mem_cons] at member
    obtain before | rfl | behind := member
    · exact List.mem_cons_of_mem _ (kept.logged other (by simp [split, before]) cli own)
    · cases own
      exact List.mem_cons_self
    · exact List.mem_cons_of_mem _ (kept.logged other (by simp [split, behind]) cli own)
  have past : ∀ entry ∈ (acptr, now) :: accepted, entry.2 ≤ now := List.forall_mem_cons.mpr ⟨Int.le_refl now, kept.past⟩
  have covered : ∀ cli sent, (cli, sent) ∈ (acptr, now) :: accepted → ¬ sent < now - msgTargetTime →
      ∃ place ∈ front ++ (⟨some acptr, now⟩ :: back : List Target), place.cli = some cli ∧ sent ≤ place.sent :=
    fun cli sent member live => kept.covered_seat split here member live
  refine ⟨size, spare, covered, logged, past, ?_⟩
  intro low
  by_cases inWindow : low ≤ now ∧ now ≤ low + msgTargetTime
  · -- whoever is in the window holds a place now
    refine (Finset.card_le_card ?_).trans ((card_holders_le now (front ++ ⟨some acptr, now⟩ :: back)).trans size.le)
    intro cli member
    obtain ⟨sent, there, from_low, -⟩ := mem_within.mp member
    obtain ⟨place, stands, own, after⟩ := covered cli sent there (by omega)
    exact List.mem_toFinset.mpr (mem_holders.mpr ⟨place, stands, holder_eq_some.mpr ⟨by omega, own⟩⟩)
  · rw [within_cons_of_outside inWindow]
    exact kept.windows low

theorem kept_start (sptr : ClientId) (firsttime : Int) :
    Kept (Ledger.start sptr firsttime).sender (Ledger.start sptr firsttime).clock (Ledger.start sptr firsttime).accepted where
  size := rfl
  spare target member := by
    have same := List.eq_of_mem_replicate (List.mem_of_mem_drop member)
    rw [same]
  covered cli sent member := absurd member List.not_mem_nil
  logged target member cli own := by
    rw [List.eq_of_mem_replicate member] at own
    cases own
  past entry member := absurd member List.not_mem_nil
  windows low := by simp [within, Ledger.start]

variable {ledger : Ledger}

/-- What a message can do to a run: an exempt one passes, and nothing else happens. -/
inductive Messaged (ledger : Ledger) (acptr : ClientId) (uline : Bool) (now : Int) : Ledger → Prop
  | exempt (free : ledger.sender.exempt acptr uline = true) : Messaged ledger acptr uline now { ledger with clock := now }
  | refused (limited : ledger.sender.exempt acptr uline = false) (same : sender'.targets = ledger.sender.targets)
      (first : sender'.firsttime = ledger.sender.firsttime) :
      Messaged ledger acptr uline now ⟨sender', now, ledger.accepted⟩
  | seated (limited : ledger.sender.exempt acptr uline = false) (front back : List Target) (target : Target)
      (split : ledger.sender.targets = front ++ target :: back) (inside : front.length < ledger.sender.maxTargets now)
      (full : ∀ other ∈ front, other.free now acptr = false) (here : target.free now acptr = true) :
      Messaged ledger acptr uline now
        ⟨{ ledger.sender with targets := front ++ ⟨some acptr, now⟩ :: back }, now, (acptr, now) :: ledger.accepted⟩

theorem perform_messaged (ledger : Ledger) (acptr : ClientId) (uline : Bool) (now : Int) :
    Messaged ledger acptr uline now (ledger.perform (.message acptr uline now)) := by
  cases exempt : ledger.sender.exempt acptr uline with
  | true =>
    simp only [Ledger.perform, Sender.checkTargetLimit, exempt, Bool.not_true, Bool.and_false,
      Bool.false_eq_true, if_true, if_false]
    exact .exempt exempt
  | false =>
    have seated := checkTargetLimit_seated exempt now
    simp only [Ledger.perform, exempt]
    generalize ledger.sender.checkTargetLimit acptr uline now = outcome at seated ⊢
    cases seated with
    | refused full same first => exact .refused exempt same first
    | seated front back target split inside full here => exact .seated exempt front back target split inside full here

theorem Kept.perform (kept : Kept ledger.sender ledger.clock ledger.accepted) (action : Action)
    (possible : ledger.Possible action) :
    Kept (ledger.perform action).sender (ledger.perform action).clock (ledger.perform action).accepted := by
  cases action with
  | mode oper noMsgThrottle => exact kept.congr rfl rfl
  | message acptr uline now =>
    have later := kept.later possible
    have messaged := perform_messaged ledger acptr uline now
    generalize ledger.perform (.message acptr uline now) = after at messaged ⊢
    cases messaged with
    | exempt free => exact later
    | refused limited same first => exact later.congr same first
    | seated limited front back target split inside full here => exact later.seat split inside here

/-- Nobody has two places. -/
def Single (now : Int) (sender : Sender) : Prop := (holders now sender.targets).Nodup

theorem holder_later (on : clock ≤ now) (held : Target.holder now target = some cli) :
    target.holder clock = some cli := by
  obtain ⟨live, own⟩ := holder_eq_some.mp held
  exact holder_eq_some.mpr ⟨by omega, own⟩

theorem Single.later (single : Single clock sender) (on : clock ≤ now) : Single now sender := by
  unfold Single holders at *
  rw [List.Nodup, List.pairwise_filterMap] at single ⊢
  refine single.imp ?_
  intro before target apart cli held cli' held'
  exact apart cli (holder_later on held) cli' (holder_later on held')

theorem Single.seat (single : Single now sender) (split : sender.targets = front ++ target :: back)
    (full : ∀ other ∈ front, Target.free now acptr other = false) (here : target.free now acptr = true)
    (first : sender.targets.Pairwise fun before target => target.holder now = some acptr → before.holder now ≠ none) :
    Single now { sender with targets := front ++ ⟨some acptr, now⟩ :: back } := by
  unfold Single holders at *
  have taken :
      Target.holder now ⟨some acptr, now⟩ = some acptr := holder_eq_some.mpr ⟨by simp only [msgTargetTime]; omega, rfl⟩
  rw [split, List.pairwise_append, List.pairwise_cons] at first
  obtain ⟨-, ⟨behind, -⟩, -⟩ := first
  rw [split, List.filterMap_append] at single
  have apart := List.nodup_append.mp single
  have outFront : acptr ∉ front.filterMap (Target.holder now) := by
    intro member
    obtain ⟨other, there, held⟩ := List.mem_filterMap.mp member
    exact Bool.eq_false_iff.mp (full other there) (free_iff.mpr (.inr held))
  have outBack : acptr ∉ back.filterMap (Target.holder now) := by
    intro member
    obtain ⟨other, there, held⟩ := List.mem_filterMap.mp member
    obtain free | own := free_iff.mp here
    · exact behind other there held free
    · have twice := apart.2.1
      rw [List.filterMap_cons_some own, List.nodup_cons] at twice
      exact twice.1 member
  have others : (back.filterMap (Target.holder now)).Sublist ((target :: back).filterMap (Target.holder now)) :=
    (List.sublist_cons_self target back).filterMap _
  rw [List.filterMap_append, List.filterMap_cons_some taken, List.nodup_append, List.nodup_cons]
  refine ⟨apart.1, ⟨outBack, apart.2.1.sublist others⟩, ?_⟩
  intro cli member cli' member' same
  obtain rfl | later := List.mem_cons.mp member'
  · exact outFront (same ▸ member)
  · exact apart.2.2 cli member cli' (others.subset later) same

theorem Single.perform (single : Single ledger.clock ledger.sender) (action : Action) (possible : ledger.Possible action)
    (first : ledger.OwnFirst action) : Single (ledger.perform action).clock (ledger.perform action).sender := by
  cases action with
  | mode oper noMsgThrottle => exact single
  | message acptr uline now =>
    have later := single.later possible
    have messaged := perform_messaged ledger acptr uline now
    generalize ledger.perform (.message acptr uline now) = after at messaged ⊢
    cases messaged with
    | exempt free => exact later
    | refused limited same =>
      unfold Single at later ⊢
      rw [same]
      exact later
    | seated limited front back target split inside full here => exact later.seat split full here (first limited)

/-! ### Refusals -/

theorem refused_iff (limited : Sender.exempt sender acptr uline = false) (now : Int) :
    (sender.checkTargetLimit acptr uline now).1.isSome = true ↔
      ∀ target ∈ sender.targets.take (sender.maxTargets now), target.free now acptr = false := by
  have seated := checkTargetLimit_seated limited now
  generalize sender.checkTargetLimit acptr uline now = outcome at seated ⊢
  cases seated with
  | refused full => exact ⟨fun _ => full, fun _ => rfl⟩
  | seated front back target split inside full here =>
    refine ⟨nofun, fun full => ?_⟩
    have member : target ∈ sender.targets.take (sender.maxTargets now) := by
      obtain ⟨more, width⟩ : ∃ more, sender.maxTargets now = front.length + (more + 1) :=
        ⟨sender.maxTargets now - front.length - 1, by omega⟩
      rw [split, width, List.take_length_add_append, List.take_succ_cons]
      simp
    rw [full target member] at here
    cases here

theorem holder_of_taken (taken : Target.free now acptr target = false) :
    ∃ cli, target.holder now = some cli ∧ cli ≠ acptr := by
  cases held : target.holder now with
  | none => exact absurd (free_iff.mpr (.inl held)) (Bool.eq_false_iff.mp taken)
  | some cli =>
    refine ⟨cli, rfl, ?_⟩
    rintro rfl
    exact Bool.eq_false_iff.mp taken (free_iff.mpr (.inr held))

/-- Only the places that the limit allows for are held. -/
theorem Kept.mem_recent_take (kept : Kept sender now accepted) (member : cli ∈ recent now accepted) :
    ∃ target ∈ sender.targets.take (sender.maxTargets now), target.holder now = some cli := by
  obtain ⟨target, there, held⟩ := mem_holders.mp (kept.mem_recent_iff.mp member)
  rw [← List.take_append_drop (sender.maxTargets now) sender.targets] at there
  obtain inside | outside := List.mem_append.mp there
  · exact ⟨target, inside, held⟩
  · have empty := kept.spare target outside
    rw [(holder_eq_some.mp held).2] at empty
    cases empty

/-- Where as many others hold a place as there are places, the next recipient is refused. -/
theorem Kept.refused_of_others (kept : Kept sender now accepted) (limited : sender.exempt acptr uline = false)
    (others : sender.maxTargets now ≤ ((recent now accepted).erase acptr).card) :
    (sender.checkTargetLimit acptr uline now).1.isSome = true := by
  rw [refused_iff limited]
  generalize places : sender.targets.take (sender.maxTargets now) = seats
  have few : seats.length ≤ sender.maxTargets now := places ▸ List.length_take_le _ _
  have held : (recent now accepted).erase acptr ⊆
    (holders now (seats.filter fun target => !target.free now acptr)).toFinset := by
    intro cli member
    obtain ⟨other, there⟩ := Finset.mem_erase.mp member
    obtain ⟨target, inside, own⟩ := kept.mem_recent_take there
    refine List.mem_toFinset.mpr (mem_holders.mpr ⟨target, List.mem_filter.mpr ⟨places ▸ inside, ?_⟩, own⟩)
    rw [Bool.not_eq_true', Bool.eq_false_iff, ne_eq, free_iff, own]
    simp [other]
  have bound := (Finset.card_le_card held).trans (card_holders_le now _)
  have short := List.length_filter_le (fun target => !Target.free now acptr target) seats
  have all := List.length_filter_eq_length_iff.mp
    (by omega : (seats.filter fun target => !target.free now acptr).length = seats.length)
  intro target member
  simpa using all target member

/-- Where nobody has two places, somebody else has each when a recipient is refused. -/
theorem Kept.others_of_refused (kept : Kept sender now accepted) (single : Single now sender)
    (limited : sender.exempt acptr uline = false)
    (refused : (sender.checkTargetLimit acptr uline now).1.isSome = true) :
    sender.maxTargets now ≤ ((recent now accepted).erase acptr).card := by
  have full := (refused_iff limited now).mp refused
  have width : (sender.targets.take (sender.maxTargets now)).length = sender.maxTargets now := by
    rw [List.length_take, kept.size]
    exact Nat.min_eq_left (maxTargets_le sender now)
  have part : (holders now (sender.targets.take (sender.maxTargets now))).Sublist (holders now sender.targets) :=
    (List.take_sublist _ _).filterMap _
  have once := single.sublist part
  have count : (holders now (sender.targets.take (sender.maxTargets now))).length = sender.maxTargets now := by
    rw [holders, List.length_filterMap_eq_countP, List.countP_eq_length.mpr, width]
    intro target member
    obtain ⟨cli, held, -⟩ := holder_of_taken (full target member)
    rw [held, Option.isSome_some]
  rw [← count, ← List.toFinset_card_of_nodup once]
  apply Finset.card_le_card
  intro cli member
  obtain ⟨target, there, held⟩ := mem_holders.mp (List.mem_toFinset.mp member)
  obtain ⟨other, own, differ⟩ := holder_of_taken (full target there)
  rw [held, Option.some.injEq] at own
  exact Finset.mem_erase.mpr ⟨own ▸ differ, kept.mem_recent_iff.mpr (part.subset (List.mem_toFinset.mp member))⟩

theorem kept_run (run : machine.Run meets (Ledger.start sptr firsttime) ledger) :
    Kept ledger.sender ledger.clock ledger.accepted :=
  run.invariant (fun ledger => Kept ledger.sender ledger.clock ledger.accepted)
    (fun _ action possible _ kept => kept.perform action possible) (kept_start sptr firsttime)

theorem single_start (sptr : ClientId) (firsttime : Int) :
    Single (Ledger.start sptr firsttime).clock (Ledger.start sptr firsttime).sender := by
  have empty : holders firsttime (List.replicate msgTargetMax ⟨none, 0⟩) = [] := by
    rw [holders, List.filterMap_eq_nil_iff]
    intro target member
    rw [List.eq_of_mem_replicate member]
    simp [Target.holder]
  simp only [Single, Ledger.start, empty]
  exact List.nodup_nil

/-- While no recipient who holds a place has a free one in front of it, a recipient is refused exactly when as many others
as there are places were sent a message in the last seconds, and no span of `msgTargetTime` seconds has more than
`msgTargetMax` recipients. -/
theorem targets_exact (run : machine.Run Ledger.OwnFirst (Ledger.start sptr firsttime) ledger) :
    (∀ low, (within low ledger.accepted).card ≤ msgTargetMax) ∧
      ∀ acptr uline now, ledger.clock ≤ now → ledger.sender.exempt acptr uline = false →
        ((ledger.sender.checkTargetLimit acptr uline now).1.isSome = true ↔
          ledger.sender.maxTargets now ≤ ((recent now ledger.accepted).erase acptr).card) := by
  have kept := kept_run run
  have single : Single ledger.clock ledger.sender :=
    run.invariant (fun ledger => Single ledger.clock ledger.sender)
      (fun _ action possible first single => single.perform action possible first) (single_start sptr firsttime)
  refine ⟨kept.windows, ?_⟩
  intro acptr uline now on limited
  have later := kept.later on
  exact ⟨later.others_of_refused (single.later on) limited, later.refused_of_others limited⟩

/-- Two recipients, the second again after the first one's place is free, and three others. -/
def fourOthers : List Action :=
  [.message 2 false 100, .message 3 false 140, .message 3 false 146, .message 4 false 147,
    .message 5 false 147, .message 6 false 147]

/-- The second of them has two places, so that the fifth is refused although the limit is five. -/
theorem fourOthers_refused :
    let ledger := fourOthers.foldl machine.perform (Ledger.start 1 90)
    machine.Run Machine.Any (Ledger.start 1 90) ledger ∧ ledger.clock ≤ 148 ∧ ledger.sender.exempt 7 false = false ∧
      (ledger.sender.checkTargetLimit 7 false 148).1.isSome = true ∧ recent 148 ledger.accepted = {3, 4, 5, 6} ∧
      ¬ ledger.sender.maxTargets 148 ≤ ((recent 148 ledger.accepted).erase 7).card := by
  intro ledger
  have allows : machine.Allows Machine.Any (Ledger.start 1 90) fourOthers :=
    ⟨(by decide : (90 : Int) ≤ 100), trivial, (by decide : (100 : Int) ≤ 140), trivial,
      (by decide : (140 : Int) ≤ 146), trivial,
      (by decide : (146 : Int) ≤ 147), trivial, Int.le_refl 147, trivial, Int.le_refl 147, trivial, trivial⟩
  exact ⟨.of_list fourOthers (.refl _) allows, by decide, by decide, by decide, by decide, by decide⟩

theorem targets_exact_two :
    let ledger := [Action.message 2 false 100, .message 3 false 140].foldl machine.perform (Ledger.start 1 90)
    (∀ low, (within low ledger.accepted).card ≤ msgTargetMax) ∧
      ∀ acptr uline now, ledger.clock ≤ now → ledger.sender.exempt acptr uline = false →
        ((ledger.sender.checkTargetLimit acptr uline now).1.isSome = true ↔
          ledger.sender.maxTargets now ≤ ((recent now ledger.accepted).erase acptr).card) := by
  intro ledger
  have allows : machine.Allows Ledger.OwnFirst (Ledger.start 1 90) [Action.message 2 false 100, .message 3 false 140] :=
    ⟨(by decide : (90 : Int) ≤ 100), fun _ => by decide, (by decide : (100 : Int) ≤ 140), fun _ => by decide, trivial⟩
  exact targets_exact (.of_list _ (.refl _) allows)

end SolidIrcd.TargetLimit
