import SolidIrcd.Channel.MaskMatch
import SolidIrcd.Hash
import SolidIrcd.Lib.Shelf
import SolidIrcd.UserBan.Ban

/-! The lists of bans, and the lookup of a client in them. The store is compared with a
plain list of the bans that were added and not removed: looking in six of its lists is as
good as looking at every ban. -/

namespace SolidIrcd.UserBan

open Scan (Text)
open Mask (matchMask)

def hashSize : Nat := 32749

/-- `ip_hash`, an `unsigned int`. -/
def ipHash (n : Text) : Nat := n.foldl (fun hv c => (hv * 33 + (toLower c).toNat) % 4294967296) 0

/-- One turn of the loop of `host_hash`; the byte is taken before its low eight bits are. -/
def hostHashStep (hv : Nat) (c : Char) : Nat :=
  if c = '.' then hv else (hv * 32) % 4294967296 ||| ((toUpper c).toNat + 191) % 256

/-- `host_hash`. -/
def hostHash (n : Text) : Nat := n.foldl hostHashStep 0

/-- The list heads: `CIDR4BIG_bans`, `CIDR4_bans`, and the two lists of `ip_bans` and
`host_bans`. -/
inductive Slot where
  | cidr4big
  | cidr4 (a b : Nat)
  | ipWild
  | ipBucket (hv : Nat)
  | hostWild
  | hostBucket (hv : Nat)
  deriving DecidableEq, Repr

structure Store where
  lists : Shelf Slot Ban
  next : Nat

def Store.empty : Store := ⟨Shelf.empty, 0⟩

/-- Where a ban goes; a ban that is of no kind goes nowhere. -/
def Ban.slot (b : Ban) : Option Slot :=
  if b.flags.cidr4big then some .cidr4big
  else if b.flags.cidr4 then some (.cidr4 (octet b.cidr4ip 0) (octet b.cidr4ip 1))
  else if b.flags.ip then
    if b.flags.wild then some .ipWild else some (.ipBucket (ipHash (b.h.getD []) % hashSize))
  else if b.flags.host then
    if b.flags.wild then some .hostWild else some (.hostBucket (hostHash (b.h.getD []) % hashSize))
  else none

/-- `add_hostbased_userban`, which is `none` where it calls `abort`. -/
def Store.addHostbasedUserban (store : Store) (b : Ban) : Option Store :=
  b.slot.map fun slot =>
    { lists := store.lists.put slot { b with internalEnt := store.next }
      next := store.next + 1 }

/-- `remove_userban`: the entry leaves the list it is in. -/
def Store.removeUserban (store : Store) (internalEnt : Nat) : Store :=
  { store with lists := store.lists.discard fun b => b.internalEnt == internalEnt }

/-- `expire_userbans`. -/
def Store.expireUserbans (store : Store) (now : Int) : Store :=
  { store with lists := store.lists.discard fun b => b.expired now }

/-- The three tests every loop of `check_userbanned` starts with. -/
def Ban.passedOver (ban : Ban) (now : Int) (cptr : Client) (yflags nflags : Flags) : Bool :=
  ban.expired now ||
    ((yflags.wilduser && !ban.flags.wilduser) || (nflags.wilduser && ban.flags.wilduser)) || ban.userDiffers cptr

/-- The loops of `check_userbanned`, with the test each of them ends with. -/
def searched (now : Int) (cptr : Client) (yflags nflags : Flags) : List (Slot × (Ban → Bool)) :=
  let loop (agrees : Ban → Bool) (ban : Ban) : Bool := !ban.passedOver now cptr yflags nflags && agrees ban
  (if yflags.ip then
    [(.ipBucket (ipHash cptr.iptmp % hashSize), loop fun ban => ban.h.any (mycmp · cptr.iptmp)),
      (.ipWild, loop fun ban => ban.h.any (matchMask · cptr.iptmp))] else []) ++
  (if yflags.cidr4 then
    [(.cidr4 (octet cptr.ip 0) (octet cptr.ip 1), loop fun ban => ban.coversIp cptr),
      (.cidr4big, loop fun ban => ban.coversIp cptr)] else []) ++
  (if yflags.host then
    [(.hostBucket (hostHash cptr.realhost % hashSize), loop fun ban => ban.h.any (mycmp · cptr.realhost)),
      (.hostWild, loop fun ban => ban.flags.wildhost || ban.h.any (matchMask · cptr.realhost))] else [])

/-- `check_userbanned`. -/
def Store.checkUserbanned (store : Store) (now : Int) (cptr : Client) (yflags nflags : Flags) : Option Ban :=
  store.lists.search (searched now cptr yflags nflags)

/-- UBAN_IP|UBAN_CIDR4|UBAN_HOST. -/
def everyCheck : Flags := { ip := true, cidr4 := true, host := true }

/-- What may happen to the store. -/
inductive Action where
  | add (user : Option Text) (host : Text) (marks : Marks)
  | remove (internalEnt : Nat)
  | expire (now : Int)
  deriving DecidableEq, Repr

/-- A mask that `make_hostbased_ban` refuses is not added. -/
def Store.perform (store : Store) : Action → Option Store
  | .add user host marks =>
    match makeHostbasedBan user host with
    | none => some store
    | some ban => store.addHostbasedUserban (ban.mark marks)
  | .remove internalEnt => some (store.removeUserban internalEnt)
  | .expire now => some (store.expireUserbans now)

def Store.run (actions : List Action) : Option Store := actions.foldlM Store.perform Store.empty

/-- The bans that were added and neither removed nor found expired, in one list. -/
structure Ledger where
  bans : List Ban
  next : Nat
  deriving DecidableEq, Repr

def Ledger.perform (ledger : Ledger) : Action → Ledger
  | .add user host marks =>
    match makeHostbasedBan user host with
    | none => ledger
    | some ban => ⟨{ ban.mark marks with internalEnt := ledger.next } :: ledger.bans, ledger.next + 1⟩
  | .remove internalEnt => { ledger with bans := ledger.bans.filter fun b => !(b.internalEnt == internalEnt) }
  | .expire now => { ledger with bans := ledger.bans.filter fun b => !b.expired now }

def Ledger.run (actions : List Action) : Ledger := actions.foldl Ledger.perform ⟨[], 0⟩

theorem ipHash_congr (same : mycmp first second = true) : ipHash first = ipHash second := by
  have lower (text : Text) : ipHash text = (text.map toUpper).foldl
      (fun hv c => (hv * 33 + (toLower c).toNat) % 4294967296) 0 := by
    simp only [ipHash, List.foldl_map, toLower_toUpper]
  rw [lower, lower, mycmp_iff.mp same]

private theorem hostHashStep_congr (same : toUpper first = toUpper second) (hv : Nat) :
    hostHashStep hv first = hostHashStep hv second := by
  have dot : first = '.' ↔ second = '.' := by
    constructor
    · rintro rfl
      exact Mask.eq_of_toUpper (by decide) (same.symm.trans (by decide))
    · rintro rfl
      exact Mask.eq_of_toUpper (by decide) (same.trans (by decide))
  simp only [hostHashStep, dot, same]

theorem hostHash_congr (same : mycmp first second = true) : hostHash first = hostHash second := by
  have upper := mycmp_iff.mp same
  unfold hostHash
  generalize 0 = hv
  induction first generalizing second hv with
  | nil =>
    obtain rfl : second = [] := List.map_eq_nil_iff.mp upper.symm
    rfl
  | cons c first ih =>
    cases second with
    | nil => simp at upper
    | cons d second =>
      simp only [List.map_cons, List.cons.injEq] at upper
      rw [List.foldl_cons, List.foldl_cons, hostHashStep_congr upper.1]
      exact ih (mycmp_iff.mpr upper.2) upper.2 _

/-- A network of sixteen bits or more stands under the first two octets of each of its
addresses. -/
theorem octet_of_covers {ban : Ban} {cptr : Client} (covers : ban.coversIp cptr = true)
    (mask : ban.cidr4mask = cidrToNetmask cidr)
    (wide : 16 ≤ cidr) (small : cidr ≤ 32) (early : index < 2) : octet ban.cidr4ip index = octet cptr.ip index := by
  have covered : cptr.ip &&& ban.cidr4mask = ban.cidr4ip := by simpa [Ban.coversIp] using covers
  rw [mask] at covered
  have high := high_and wide small cptr.ip
  rw [covered] at high
  exact octet_of_high high early

/-- The loops of `check_userbanned` with all three checks, one for each slot. -/
def Slot.agrees (cptr : Client) (ban : Ban) : Slot → Bool
  | .ipBucket hv => hv == ipHash cptr.iptmp % hashSize && ban.h.any (mycmp · cptr.iptmp)
  | .ipWild => ban.h.any (matchMask · cptr.iptmp)
  | .cidr4 a b => a == octet cptr.ip 0 && b == octet cptr.ip 1 && ban.coversIp cptr
  | .cidr4big => ban.coversIp cptr
  | .hostBucket hv => hv == hostHash cptr.realhost % hashSize && ban.h.any (mycmp · cptr.realhost)
  | .hostWild => ban.flags.wildhost || ban.h.any (matchMask · cptr.realhost)

theorem searched_agrees (now : Int) (cptr : Client) (ban : Ban) (slot : Slot) :
    (∃ test, (slot, test) ∈ searched now cptr everyCheck {} ∧ test ban = true) ↔
      ban.expired now = false ∧ ban.userDiffers cptr = false ∧ slot.agrees cptr ban = true := by
  have rest : ban.passedOver now cptr everyCheck {} = (ban.expired now || ban.userDiffers cptr) := by
    simp [Ban.passedOver, everyCheck]
  have loops : (∃ test, (slot, test) ∈ searched now cptr everyCheck {} ∧ test ban = true) ↔
      (!ban.passedOver now cptr everyCheck {} && slot.agrees cptr ban) = true := by
    cases slot <;> simp [searched, everyCheck, Slot.agrees, and_comm, and_assoc, and_left_comm]
  rw [loops, rest]
  simp [and_assoc]

private theorem guarded (implied : same = true → found = true) :
    (differs = false ∧ (found && same) = true) ↔ (if differs = true then false else same) = true := by
  cases differs <;> cases same <;> simp_all

/-- A ban is looked for in its own slot when it matches. -/
theorem agrees_slot (kind : Kind ban) (place : ban.slot = some slot) (cptr : Client) :
    (ban.userDiffers cptr = false ∧ slot.agrees cptr ban = true) ↔ userMatchBan cptr ban = true := by
  unfold Ban.slot at place
  unfold userMatchBan
  cases kind with
  | ip h is host cidr4 cidr4big text noip nomask =>
    simp only [is, cidr4, cidr4big, text, Bool.false_eq_true, if_false, if_true, Option.getD_some] at place ⊢
    cases wild : ban.flags.wild with
    | true =>
      obtain rfl : Slot.ipWild = slot := by simpa [wild] using place
      simp [Slot.agrees, text]
    | false =>
      obtain rfl : Slot.ipBucket (ipHash h % hashSize) = slot := by simpa [wild] using place
      simp only [Slot.agrees, text, Option.any_some, Bool.false_eq_true, if_false]
      apply guarded
      intro same
      simp [ipHash_congr same]
  | host h is ip cidr4 cidr4big text noip nomask =>
    simp only [is, ip, cidr4, cidr4big, text, Bool.false_eq_true, if_false, if_true, Option.getD_some] at place ⊢
    cases wild : ban.flags.wild with
    | true =>
      obtain rfl : Slot.hostWild = slot := by simpa [wild] using place
      simp [Slot.agrees, text]
    | false =>
      obtain rfl : Slot.hostBucket (hostHash h % hashSize) = slot := by simpa [wild] using place
      simp only [Slot.agrees, text, Option.any_some, Bool.false_eq_true, if_false]
      apply guarded
      intro same
      simp [hostHash_congr same]
  | cidr4 cidr is cidr4big ip host mask wide small notext =>
    simp only [is, cidr4big, ip, host, Bool.false_eq_true, if_false, if_true, Bool.or_false] at place ⊢
    obtain rfl : Slot.cidr4 (octet ban.cidr4ip 0) (octet ban.cidr4ip 1) = slot := by simpa using place
    simp only [Slot.agrees]
    apply guarded
    intro covers
    simp [octet_of_covers covers mask wide small]
  | cidr4big is cidr4 ip host notext =>
    simp only [is, cidr4, ip, host, Bool.false_eq_true, if_false, if_true, Bool.or_true] at place ⊢
    obtain rfl : Slot.cidr4big = slot := by simpa using place
    simp [Slot.agrees]

/-- The store keeps the bans of the ledger, each of one kind and in its own slot. -/
structure Store.Keeps (store : Store) (ledger : Ledger) : Prop where
  filed : store.lists.Filed Ban.slot
  kinds : ∀ ban, store.lists.Holds ban → Kind ban
  holds : ∀ ban, store.lists.Holds ban ↔ ban ∈ ledger.bans
  next : store.next = ledger.next

theorem slot_of_kind (kind : Kind ban) : ∃ slot, ban.slot = some slot := by
  unfold Ban.slot
  cases kind with
  | ip h is host cidr4 cidr4big text noip nomask =>
    cases wild : ban.flags.wild <;> simp [is, cidr4, cidr4big]
  | host h is ip cidr4 cidr4big text noip nomask =>
    cases wild : ban.flags.wild <;> simp [is, ip, cidr4, cidr4big]
  | cidr4 cidr is cidr4big ip host mask wide small notext => simp [is, cidr4big]
  | cidr4big is cidr4 ip host notext => simp [is]

theorem Store.Keeps.empty : Store.empty.Keeps ⟨[], 0⟩ where
  filed := Shelf.Filed.empty
  kinds := fun _ held => absurd held Shelf.holds_empty
  holds := by
    intro ban
    constructor
    · exact fun held => absurd held Shelf.holds_empty
    · intro member
      cases member
  next := rfl

variable {store : Store} {ledger : Ledger}

theorem Store.Keeps.add (keeps : store.Keeps ledger) (kind : Kind ban) :
    ∃ after, store.addHostbasedUserban ban = some after ∧
      after.Keeps ⟨{ ban with internalEnt := ledger.next } :: ledger.bans, ledger.next + 1⟩ := by
  obtain ⟨slot, place⟩ := slot_of_kind kind
  refine ⟨_, by rw [addHostbasedUserban, place, Option.map_some], ?_⟩
  constructor
  case filed => exact keeps.filed.put place
  case kinds =>
    intro other held
    obtain rfl | old := Shelf.holds_put.mp held
    · exact kind.congr rfl rfl rfl rfl rfl rfl rfl
    · exact keeps.kinds other old
  case holds =>
    intro other
    rw [Shelf.holds_put, keeps.holds, keeps.next, List.mem_cons]
  case next =>
    change store.next + 1 = ledger.next + 1
    rw [keeps.next]

theorem Store.Keeps.discard (keeps : store.Keeps ledger) (gone : Ban → Bool) :
    ({ store with lists := store.lists.discard gone } : Store).Keeps
      { ledger with bans := ledger.bans.filter fun ban => !gone ban } where
  filed := keeps.filed.discard gone
  kinds := fun ban held => keeps.kinds ban (Shelf.holds_discard.mp held).1
  holds := by
    intro ban
    rw [Shelf.holds_discard, keeps.holds, List.mem_filter, Bool.not_eq_true']
  next := keeps.next

theorem Store.Keeps.perform (keeps : store.Keeps ledger) (action : Action) :
    ∃ after, store.perform action = some after ∧ after.Keeps (ledger.perform action) := by
  cases action with
  | add user host marks =>
    simp only [Store.perform, Ledger.perform]
    cases made : makeHostbasedBan user host with
    | none => exact ⟨store, rfl, keeps⟩
    | some ban => exact keeps.add ((makeHostbasedBan_kind made).mark marks)
  | remove internalEnt => exact ⟨_, rfl, keeps.discard _⟩
  | expire now => exact ⟨_, rfl, keeps.discard _⟩

theorem Store.Keeps.run (keeps : store.Keeps ledger) (actions : List Action) :
    ∃ after, actions.foldlM Store.perform store = some after ∧ after.Keeps (actions.foldl Ledger.perform ledger) := by
  induction actions generalizing store ledger with
  | nil => exact ⟨store, rfl, keeps⟩
  | cons action actions ih =>
    obtain ⟨after, performed, kept⟩ := keeps.perform action
    rw [List.foldlM_cons, performed, List.foldl_cons]
    exact ih kept

section Filed

variable (filed : store.lists.Filed Ban.slot) (kinds : ∀ ban, store.lists.Holds ban → Kind ban)
include filed kinds

/-- What the six lists give is a ban of the store that has not expired and matches. -/
theorem checkUserbanned_sound (found : store.checkUserbanned now cptr everyCheck {} = some ban) :
    store.lists.Holds ban ∧ ban.expired now = false ∧ userMatchBan cptr ban = true := by
  obtain ⟨slot, test, looked, here, passes⟩ := Shelf.search_some found
  obtain ⟨live, user, agrees⟩ := (searched_agrees now cptr ban slot).mp ⟨test, looked, passes⟩
  have held : store.lists.Holds ban := ⟨slot, here⟩
  exact ⟨held, live, (agrees_slot (kinds ban held) (filed slot ban here) cptr).mp ⟨user, agrees⟩⟩

/-- A ban of the store that has not expired and matches stands in one of them. -/
theorem checkUserbanned_complete (held : store.lists.Holds ban) (live : ban.expired now = false)
    (matched : userMatchBan cptr ban = true) : (store.checkUserbanned now cptr everyCheck {}).isSome := by
  obtain ⟨slot, here⟩ := held
  obtain ⟨user, agrees⟩ := (agrees_slot (kinds ban ⟨slot, here⟩) (filed slot ban here) cptr).mpr matched
  obtain ⟨test, looked, passes⟩ := (searched_agrees now cptr ban slot).mpr ⟨live, user, agrees⟩
  exact Shelf.search_isSome looked here passes

end Filed

/-- The six lists are as good as all of them. -/
theorem Store.Keeps.checkUserbanned (keeps : store.Keeps ledger) (now : Int) (cptr : Client) :
    ((store.checkUserbanned now cptr everyCheck {}).isSome ↔
      ∃ ban ∈ ledger.bans, ban.expired now = false ∧ userMatchBan cptr ban = true) ∧
    ∀ ban, store.checkUserbanned now cptr everyCheck {} = some ban →
      ban ∈ ledger.bans ∧ ban.expired now = false ∧ userMatchBan cptr ban = true := by
  have sound (ban : Ban) (found : store.checkUserbanned now cptr everyCheck {} = some ban) :
      ban ∈ ledger.bans ∧ ban.expired now = false ∧ userMatchBan cptr ban = true := by
    obtain ⟨held, live, matched⟩ := checkUserbanned_sound keeps.filed keeps.kinds found
    exact ⟨(keeps.holds ban).mp held, live, matched⟩
  refine ⟨⟨?_, ?_⟩, sound⟩
  · intro present
    obtain ⟨ban, found⟩ := Option.isSome_iff_exists.mp present
    exact ⟨ban, sound ban found⟩
  · rintro ⟨ban, member, live, matched⟩
    exact checkUserbanned_complete keeps.filed keeps.kinds ((keeps.holds ban).mpr member) live matched

/-- After any additions, removals and expiries, `check_userbanned` finds a ban exactly
when one that was added and is still there, and has not expired, matches the client. -/
theorem checkUserbanned_exhaustive (actions : List Action) :
    ∃ store, Store.run actions = some store ∧ ∀ now cptr,
      ((store.checkUserbanned now cptr everyCheck {}).isSome ↔
        ∃ ban ∈ (Ledger.run actions).bans, ban.expired now = false ∧ userMatchBan cptr ban = true) ∧
      ∀ ban, store.checkUserbanned now cptr everyCheck {} = some ban →
        ban ∈ (Ledger.run actions).bans ∧ ban.expired now = false ∧ userMatchBan cptr ban = true := by
  obtain ⟨store, ran, keeps⟩ := Store.Keeps.empty.run actions
  exact ⟨store, ran, keeps.checkUserbanned⟩

end SolidIrcd.UserBan
