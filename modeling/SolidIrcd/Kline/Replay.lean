import SolidIrcd.Kline.Journal

/-! What a journal line says when it is read again: a `+` line gives back the K-line with
its expiry time, a `-` line takes the K-line with that mask away. -/

namespace SolidIrcd.Kline

open Scan (Text)
open Mask (splitFirst)
open UserBan

/-- What has to survive: the mask, the reason and the time of expiry. -/
structure Entry where
  flags : Flags
  u : Option Text
  h : Option Text
  cidr4ip : Address
  cidr4mask : Address
  reason : Option Text
  expiry : Option Int
  deriving DecidableEq, Repr

def entry (ban : Ban) : Entry :=
  { flags := ban.flags
    u := ban.u
    h := ban.h
    cidr4ip := ban.cidr4ip
    cidr4mask := ban.cidr4mask
    reason := ban.reason
    expiry := if ban.flags.temporary then some (ban.timeset + ban.duration) else none }

/-- The ban as `make_hostbased_ban` returned it. -/
def plain (ban : Ban) : Ban :=
  { ban with
    flags :=
      { ban.flags with
        isLocal := false
        network := false
        conf := false
        gline := false
        shun := false
        temporary := false }
    reason := none
    timeset := 0
    duration := 0
    internalEnt := 0 }

theorem plain_made (made : makeHostbasedBan user phost = some ban) : plain ban = ban := by
  obtain ⟨form, classified, rfl⟩ := Option.map_eq_some_iff.mp made
  obtain ⟨isHost, wild, wildhost, rfl⟩ | ⟨text, forced⟩ := classify_cases classified
  · rfl
  · obtain ⟨cidr, ia, -, -, rfl⟩ := cidrForce_net forced
    by_cases big : cidr < 16
    · rw [if_pos big]
      rfl
    · rw [if_neg big]
      rfl

/-- A K-line as the commands and the journal make them. -/
structure Genuine (ban : Ban) : Prop where
  read : makeHostbasedBan (some ban.userText) ban.hostText = some (plain ban)
  owner : ban.flags = { (plain ban).flags with isLocal := true, temporary := ban.flags.temporary }
  reason : ∃ text, ban.reason = some text ∧ text ≠ [] ∧ '\n' ∉ text
  user : '\n' ∉ ban.userText
  host : '\n' ∉ ban.hostText
  positive : ban.flags.temporary = true → 0 < ban.timeset + ban.duration
  short : ban.userText.length + ban.hostText.length + (ban.reason.getD []).length ≤ 900

/-- No blank in the mask. -/
structure Solid (ban : Ban) : Prop where
  user : ' ' ∉ ban.userText
  host : ' ' ∉ ban.hostText

/-- A K-line the journal can hold: no blank in the mask, and an expiry time that is an
`int`. -/
structure Recorded (ban : Ban) : Prop extends Genuine ban where
  solid : Solid ban
  early : expiretime ban ≤ Decimal.intMax

theorem entry_fields (same : entry first = entry second) :
    first.flags = second.flags ∧ first.u = second.u ∧ first.h = second.h ∧ first.cidr4ip = second.cidr4ip ∧
      first.cidr4mask = second.cidr4mask ∧ first.reason = second.reason ∧
      (first.flags.temporary = true → first.timeset + first.duration = second.timeset + second.duration) := by
  simp only [entry, Entry.mk.injEq] at same
  obtain ⟨flags, u, h, ip, mask, reason, expiry⟩ := same
  refine ⟨flags, u, h, ip, mask, reason, ?_⟩
  intro temporary
  rw [← flags, if_pos temporary, if_pos temporary] at expiry
  exact Option.some.inj expiry

theorem same_of_entry (same : entry first = entry second) : first.Same second := by
  obtain ⟨flags, u, h, ip, mask, -, -⟩ := entry_fields same
  exact ⟨by simp only [Ban.slot, flags, h, ip], by rw [flags], .inr (by rw [u, mycmp_refl]),
    by rw [h, mycmp_refl], ip, mask⟩

private theorem texts_of_entry (same : entry first = entry second) :
    first.userText = second.userText ∧ first.hostText = second.hostText := by
  obtain ⟨flags, u, h, ip, mask, -, -⟩ := entry_fields same
  exact ⟨by rw [Ban.userText, Ban.userText, u],
    by simp only [Ban.hostText, Ban.network, flags, h, ip, mask]⟩

theorem Genuine.congr (genuine : Genuine first) (same : entry first = entry second) : Genuine second := by
  obtain ⟨flags, u, h, ip, mask, reason, expiry⟩ := entry_fields same
  obtain ⟨userText, hostText⟩ := texts_of_entry same
  have bare : plain second = plain first := by simp only [plain, flags, u, h, ip, mask]
  constructor
  case read => rw [← userText, ← hostText, bare, genuine.read]
  case owner => rw [bare, ← flags, ← genuine.owner]
  case reason =>
    rw [← reason]
    exact genuine.reason
  case user =>
    rw [← userText]
    exact genuine.user
  case host =>
    rw [← hostText]
    exact genuine.host
  case positive =>
    intro temporary
    rw [← flags] at temporary
    rw [← expiry temporary]
    exact genuine.positive temporary
  case short =>
    rw [← userText, ← hostText, ← reason]
    exact genuine.short

theorem Recorded.congr (recorded : Recorded first) (same : entry first = entry second) : Recorded second := by
  obtain ⟨flags, -, -, -, -, -, expiry⟩ := entry_fields same
  obtain ⟨userText, hostText⟩ := texts_of_entry same
  refine { recorded.toGenuine.congr same with solid := ⟨?_, ?_⟩, early := ?_ }
  · rw [← userText]
    exact recorded.solid.user
  · rw [← hostText]
    exact recorded.solid.host
  · have early := recorded.early
    unfold expiretime at early ⊢
    rw [← flags]
    split at early
    next temporary =>
      rw [if_pos temporary, ← expiry temporary]
      exact early
    next permanent =>
      rw [if_neg permanent]
      exact early

/-- The K-line that a `+` line gives back. -/
def reread (now : Int) (ban : Ban) : Ban :=
  (plain ban).mark
    { isLocal := true
      reason := ban.reason
      lasts := if ban.flags.temporary then some (now, ban.timeset + ban.duration - now) else none }

theorem entry_reread (genuine : Genuine ban) (now : Int) : entry (reread now ban) = entry ban := by
  have flags : (reread now ban).flags = ban.flags := by
    rw [genuine.owner]
    cases temporary : ban.flags.temporary <;> simp [reread, Ban.mark, plain, temporary]
  unfold entry
  rw [flags]
  cases temporary : ban.flags.temporary with
  | true =>
    have total : now + (ban.timeset + ban.duration - now) = ban.timeset + ban.duration := by omega
    simp [reread, Ban.mark, plain, temporary, total]
  | false => simp [reread, Ban.mark, plain]

theorem kind_reread (genuine : Genuine ban) (now : Int) : Kind (reread now ban) :=
  (makeHostbasedBan_kind genuine.read).mark _

theorem expiretime_range (genuine : Genuine ban) : 0 ≤ expiretime ban := by
  unfold expiretime
  split
  next temporary => exact Int.le_of_lt (genuine.positive temporary)
  next => exact Int.le_refl _

/-- A `+` line that is not too old gives its K-line back. -/
theorem ksRead_plus (recorded : Recorded ban) (live : ban.expired now = false) (store : Store) :
    ksRead now store (plusRecord ban) = ((store.addHostbasedUserban (reread now ban)).getD store, true) := by
  have genuine := recorded.toGenuine
  have lower := expiretime_range genuine
  have upper := recorded.early
  have long : expiretime ban ≤ Decimal.longMax := by
    unfold Decimal.intMax at upper
    unfold Decimal.longMax
    omega
  have time := Decimal.strtolAuto_print lower long (ban.userText ++ ' ' :: (ban.hostText ++ ' ' :: ban.reason.getD []))
  have user : splitFirst ' ' (ban.userText ++ ' ' :: (ban.hostText ++ ' ' :: ban.reason.getD [])) = some (_, _) :=
    Mask.splitFirst_join recorded.solid.user
  have host : splitFirst ' ' (ban.hostText ++ ' ' :: ban.reason.getD []) = some (_, _) :=
    Mask.splitFirst_join recorded.solid.host
  obtain ⟨text, reason, nonempty, -⟩ := genuine.reason
  have duration : (if expiretime ban = 0 then (0 : Int) else expiretime ban - now) =
      if ban.flags.temporary then ban.timeset + ban.duration - now else 0 := by
    cases temporary : ban.flags.temporary with
    | true =>
      have positive := genuine.positive temporary
      simp only [expiretime, temporary, if_true]
      rw [if_neg (by omega)]
    | false => simp [expiretime, temporary]
  have young : ¬ (expiretime ban ≠ 0 ∧ now ≥ expiretime ban) := by
    rintro ⟨nonzero, old⟩
    cases temporary : ban.flags.temporary with
    | true =>
      simp only [expiretime, temporary, if_true] at old
      simp only [Ban.expired, temporary, Bool.true_and, decide_eq_false_iff_not] at live
      omega
    | false => simp [expiretime, temporary] at nonzero
  have lasts : (if (if ban.flags.temporary then ban.timeset + ban.duration - now else 0) = 0 then none
      else some (now, if ban.flags.temporary then ban.timeset + ban.duration - now else 0)) =
      if ban.flags.temporary then some (now, ban.timeset + ban.duration - now) else none := by
    cases temporary : ban.flags.temporary with
    | true =>
      simp only [Ban.expired, temporary, Bool.true_and, decide_eq_false_iff_not] at live
      simp only [if_true]
      rw [if_neg (by omega)]
    | false => simp
  unfold plusRecord ksRead
  rw [Decimal.toInt_of_small lower upper]
  simp only [time, if_neg young, user, host, duration, ksAdd, genuine.read, lasts]
  simp only [reason, Option.getD_some, if_neg nonempty, reread]

/-- A `+` line that is too old says nothing. -/
theorem ksRead_plus_expired (recorded : Recorded ban) (old : ban.expired now = true) (store : Store) :
    ksRead now store (plusRecord ban) = (store, true) := by
  have genuine := recorded.toGenuine
  have lower := expiretime_range genuine
  have upper := recorded.early
  have long : expiretime ban ≤ Decimal.longMax := by
    unfold Decimal.intMax at upper
    unfold Decimal.longMax
    omega
  have time := Decimal.strtolAuto_print lower long (ban.userText ++ ' ' :: (ban.hostText ++ ' ' :: ban.reason.getD []))
  simp only [Ban.expired, Bool.and_eq_true, decide_eq_true_eq] at old
  have positive := genuine.positive old.1
  have gone : expiretime ban ≠ 0 ∧ now ≥ expiretime ban := by
    simp only [expiretime, old.1, if_true]
    omega
  unfold plusRecord ksRead
  rw [Decimal.toInt_of_small lower upper]
  simp only [time, if_pos gone]

theorem ksRead_minus (solid : Solid ban) (now : Int) (store : Store) :
    ksRead now store (minusRecord ban) = ksRemove store ban.userText ban.hostText := by
  have user : splitFirst ' ' (ban.userText ++ ' ' :: ban.hostText) = some (_, _) :=
    Mask.splitFirst_join solid.user
  unfold minusRecord ksRead
  simp only [user]

end SolidIrcd.Kline
