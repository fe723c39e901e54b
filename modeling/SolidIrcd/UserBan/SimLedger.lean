import SolidIrcd.Lib.Machine
import SolidIrcd.UserBan.SimBan

/-! The name bans in force, as one plain list. The store agrees with it in every run, as
long as no SVSHOLD finds a removed ban in front of the hold that it is about. -/

namespace SolidIrcd.SimBan

open Scan (Text)
open Mask (matchMask)
open UserBan (hostHash hashSize)

/-- A ban, whatever the case of its mask, and the time until which it is in force. -/
structure Record where
  list : BanList
  flags : Flags
  mask : Text
  expiry : Option Int
  deriving DecidableEq, Repr

def Record.inForce (record : Record) (now : Int) : Bool := record.expiry.all (decide <| now < ·)

def Record.stops (record : Record) (name : Text) : Bool := chkfnc record.flags.wild record.mask name

def Ban.record (ban : Ban) : Record where
  list := ban.list
  flags := ban.flags
  mask := ban.mask.map toUpper
  expiry := if ban.flags.temporary then some (ban.timeset + ban.duration) else none

/-- Of one kind, and for one mask. -/
def Record.alike (record other : Record) : Bool :=
  record.list == other.list && record.flags == other.flags && record.mask == other.mask

/-- The ban that an action asks for. -/
def Action.imposes (now : Int) : Action → Option Ban
  | .sqline mask _ => makeSimpleban (.ofMask mask) { network := true } mask
  | .sgline len text => (splitSgline (Decimal.atoi len) text).bind fun (mask, _) =>
      makeSimpleban .gcos { network := true } mask
  | .restrict list mask _ => makeSimpleban list { isLocal := true } mask
  | .svshold mask length _ =>
    if holdLength length ≤ 0 then none
    else (heldBan mask).map fun ban => { ban with timeset := now, duration := holdLength length }
  | _ => none

/-- In the list, with the flags, and with a mask that matches. -/
def Record.under (list : BanList) (flags : Flags) (mask : Text) (wild : Bool) (record : Record) : Bool :=
  record.list == list && record.flags.has flags && chkfnc wild mask record.mask

/-- The bans that an action ends. A new hold ends the old one. -/
def Action.lifts (record : Record) : Action → Bool
  | .unsqline params => (unParams params).any fun (matchit, mask) =>
      if mycmp mask ['*'] && matchit then
        record.under .chan { network := true } mask true || record.under .nick { network := true } mask true
      else record.under (.ofMask mask) { network := true } mask matchit
  | .unsgline params => (unParams params).any fun (matchit, mask) => record.under .gcos { network := true } mask matchit
  | .svshold mask _ _ => (heldBan mask).any fun ban => record.alike ban.record
  | .removeFlags list flags nflags => record.list == list && record.flags.has flags && !record.flags.meets nflags
  | .removeMask list flags mask wild => record.under list flags mask wild
  | _ => false

/-- The bans that were asked for and not ended. -/
structure Ledger where
  records : List Record
  now : Int
  deriving DecidableEq, Repr

def Ledger.empty (now : Int) : Ledger := ⟨[], now⟩

def Ledger.perform (ledger : Ledger) (action : Action) : Ledger where
  records := ((action.imposes ledger.now).map Ban.record).toList ++ ledger.records.filter fun record => !action.lifts record
  now := match action with
    | .tick seconds => ledger.now + seconds
    | _ => ledger.now

/-- Of the bans with one kind and mask, the first is in force or none is. -/
def foremost (now : Int) : List Ban → Bool
  | [] => true
  | first :: rest => !first.expired now || rest.all (·.expired now)

/-- A SVSHOLD finds the hold it is about. -/
def Store.clear (store : Store) : Action → Prop
  | .svshold mask _ _ => ∀ ban, heldBan mask = some ban → foremost store.now ((store.lists ban.slot).filter ban.same) = true
  | _ => True

def machine : Machine Store Action where
  perform := Store.perform
  possible := fun _ _ => True

/-- Of two bans with one kind and mask, one is over. -/
def Apart (now : Int) (first second : Ban) : Prop :=
  first.expired now = false → second.expired now = false → first.same second = false

/-- The bans in force in the store are the records in force. -/
structure Store.Keeps (store : Store) (ledger : Ledger) : Prop where
  filed : store.lists.Filed fun ban => some ban.slot
  apart : ∀ slot, (store.lists slot).Pairwise (Apart store.now)
  now : store.now = ledger.now
  records : ∀ record, record.inForce store.now = true →
    (record ∈ ledger.records ↔ ∃ ban, store.lists.Holds ban ∧ ban.record = record)

theorem mycmp_upper (text : Text) : mycmp (text.map toUpper) text = true := by
  have again (c : Char) : toUpper (toUpper c) = toUpper c := by
    apply Char.ext
    apply UInt32.toNat_inj.mp
    change (toUpper (toUpper c)).toNat = (toUpper c).toNat
    have once := toNat_toUpper c
    rw [toNat_toUpper]
    split at once <;> split <;> omega
  rw [mycmp_iff, List.map_map]
  exact List.map_congr_left fun c _ => again c

theorem Ban.record_inForce (ban : Ban) (now : Int) : ban.record.inForce now = !ban.expired now := by
  unfold record Record.inForce expired
  cases ban.flags.temporary with
  | true =>
    change decide (now < ban.timeset + ban.duration) = !decide (ban.timeset + ban.duration ≤ now)
    rw [← decide_not]
    exact decide_eq_decide.mpr Int.not_le.symm
  | false => rfl

/-- What `find_simban_exact` compares is what a record is told apart by. -/
theorem Ban.same_iff_alike (borig ban : Ban) : borig.same ban = ban.record.alike borig.record := by
  simp only [same, record, Record.alike, mycmp]

theorem chkfnc_upper (wild : Bool) (mask other : Text) : chkfnc wild mask (other.map toUpper) = chkfnc wild mask other := by
  unfold chkfnc
  cases wild with
  | true => exact Mask.matchMask_congr_right mask (mycmp_upper other)
  | false =>
    simp only [Bool.false_eq_true, if_false]
    rw [mycmp_comm, mycmp_congr_left (mycmp_upper other), mycmp_comm]

theorem Ban.record_stops (ban : Ban) (name : Text) : ban.record.stops name = chkfnc ban.flags.wild ban.mask name := by
  unfold record Record.stops chkfnc
  cases ban.flags.wild with
  | true => exact Mask.matchMask_congr (mycmp_upper ban.mask) name
  | false => exact mycmp_congr_left (mycmp_upper ban.mask) name

theorem Store.Keeps.empty (now : Int) : (Store.empty now).Keeps (Ledger.empty now) where
  filed := Shelf.Filed.empty
  apart := fun _ => List.Pairwise.nil
  now := rfl
  records := by
    intro record _
    constructor
    · intro member
      cases member
    · intro ⟨ban, held, _⟩
      exact absurd held Shelf.holds_empty

variable {store : Store} {ledger : Ledger}

/-- Only the records count, not their order. -/
theorem Store.Keeps.congr (keeps : store.Keeps ledger) (now : after.now = ledger.now)
    (same : ∀ record, record ∈ after.records ↔ record ∈ ledger.records) : store.Keeps after where
  filed := keeps.filed
  apart := keeps.apart
  now := keeps.now.trans now.symm
  records := fun record inForce => (same record).trans (keeps.records record inForce)

theorem Store.Keeps.tick (keeps : store.Keeps ledger) (seconds : Nat) :
    ({ store with now := store.now + seconds } : Store).Keeps { ledger with now := ledger.now + seconds } where
  filed := keeps.filed
  apart := by
    intro slot
    refine (keeps.apart slot).imp ?_
    intro first second apart liveFirst liveSecond
    refine apart ?_ ?_
    · exact Bool.eq_false_iff.mpr fun past => by simp [Ban.expired_mono past seconds] at liveFirst
    · exact Bool.eq_false_iff.mpr fun past => by simp [Ban.expired_mono past seconds] at liveSecond
  now := by simp only [keeps.now]
  records := by
    intro record inForce
    refine keeps.records record ?_
    simp only [Record.inForce, Option.all_eq_true, decide_eq_true_eq] at inForce ⊢
    intro expiry is
    have later := inForce expiry is
    omega

theorem Store.Keeps.expireSimbans (keeps : store.Keeps ledger) : store.expireSimbans.Keeps ledger where
  filed := keeps.filed.discard _
  apart := fun slot => (keeps.apart slot).filter _
  now := keeps.now
  records := by
    intro record inForce
    rw [keeps.records record inForce]
    simp only [Store.expireSimbans, Shelf.holds_discard]
    refine exists_congr fun ban => ?_
    constructor
    · rintro ⟨held, rfl⟩
      refine ⟨⟨held, ?_⟩, rfl⟩
      simpa [Ban.record_inForce] using inForce
    · exact fun ⟨⟨held, _⟩, is⟩ => ⟨held, is⟩

/-- The bans in force after a removal are those that were in force and are not hit. -/
theorem Store.holds_removeWhere (filed : store.lists.Filed fun ban => some ban.slot) (live : ban.expired store.now = false) :
    (store.removeWhere list hit).lists.Holds ban ↔ store.lists.Holds ban ∧ (ban.list == list && hit ban) = false := by
  have listed {slot : Slot} {old : Ban} (here : old ∈ store.lists slot) : (slot.list == list) = (old.list == list) := by
    rw [← Option.some.inj (filed slot old here), Ban.slot_list]
  simp only [Store.removeWhere, Shelf.holds_revise]
  constructor
  · rintro ⟨slot, old, here, rfl⟩
    rw [listed here] at live ⊢
    cases inside : (old.list == list) with
    | true =>
      simp only [inside, if_true] at live ⊢
      rw [Ban.removeIf_of_live live]
      exact ⟨⟨slot, here⟩, by rw [(Ban.removeIf_live.mp live).2, Bool.and_false]⟩
    | false =>
      simp only [Bool.false_eq_true, if_false, inside]
      exact ⟨⟨slot, here⟩, Bool.false_and _⟩
  · rintro ⟨⟨slot, here⟩, missed⟩
    refine ⟨slot, ban, here, ?_⟩
    rw [listed here]
    split
    next inside =>
      rw [inside, Bool.true_and] at missed
      simp [Ban.removeIf, missed]
    next => rfl

/-- Removing bans is ending their records. -/
theorem Store.Keeps.removeWhere (keeps : store.Keeps ledger) {gone : Record → Bool}
    (agrees : ∀ ban : Ban, gone ban.record = (ban.list == list && hit ban)) :
    (store.removeWhere list hit).Keeps { ledger with records := ledger.records.filter fun record => !gone record } where
  filed := keeps.filed.revise (fun ban => congrArg some (Ban.removeIf_keeps store.now hit ban).slot) _
  apart := by
    intro slot
    unfold Store.removeWhere Shelf.revise
    dsimp only
    split
    next =>
      refine (keeps.apart slot).map _ ?_
      intro first second apart liveFirst liveSecond
      rw [Ban.removeIf_of_live liveFirst, Ban.removeIf_of_live liveSecond]
      exact apart (Ban.removeIf_live.mp liveFirst).1 (Ban.removeIf_live.mp liveSecond).1
    next => exact keeps.apart slot
  now := keeps.now
  records := by
    intro record inForce
    change record.inForce store.now = true at inForce
    rw [List.mem_filter, Bool.not_eq_true', keeps.records record inForce]
    constructor
    · rintro ⟨⟨ban, held, rfl⟩, stays⟩
      have live : ban.expired store.now = false := by simpa [Ban.record_inForce] using inForce
      exact ⟨ban, (Store.holds_removeWhere keeps.filed live).mpr ⟨held, agrees ban ▸ stays⟩, rfl⟩
    · rintro ⟨ban, held, rfl⟩
      have live : ban.expired store.now = false := by simpa [Ban.record_inForce] using inForce
      obtain ⟨held, missed⟩ := (Store.holds_removeWhere keeps.filed live).mp held
      exact ⟨⟨ban, held, rfl⟩, by rw [agrees, missed]⟩

/-- A ban with the flags and the mask of another is in its list. -/
theorem Store.Keeps.same_slot {borig : Ban} (keeps : store.Keeps ledger) (here : ban ∈ store.lists slot)
    (same : borig.same ban = true) : slot = borig.slot := by
  rw [← Ban.slot_of_same same]
  exact (Option.some.inj (keeps.filed slot ban here)).symm

theorem Store.Keeps.addSimban (keeps : store.Keeps ledger) (apart : ∀ other ∈ store.lists ban.slot, ban.same other = false) :
    (store.addSimban ban).Keeps { ledger with records := ban.record :: ledger.records } where
  filed := keeps.filed.put rfl
  apart := by
    intro slot
    unfold Store.addSimban Shelf.put
    dsimp only
    split
    next here =>
      rw [List.pairwise_cons]
      refine ⟨fun other member _ _ => apart other (here ▸ member), keeps.apart slot⟩
    next => exact keeps.apart slot
  now := keeps.now
  records := by
    intro record inForce
    rw [List.mem_cons, keeps.records record inForce]
    simp only [Store.addSimban, Shelf.holds_put]
    constructor
    · rintro (rfl | ⟨other, held, is⟩)
      · exact ⟨ban, .inl rfl, rfl⟩
      · exact ⟨other, .inr held, is⟩
    · rintro ⟨other, rfl | held, is⟩
      · exact .inl is.symm
      · exact .inr ⟨other, held, is⟩

/-- A permanent ban that is there already is in force. -/
theorem Store.Keeps.addNew (keeps : store.Keeps ledger) (permanent : ∀ ban, made = some ban → ban.flags.temporary = false)
    (reason : Text) :
    (store.addNew made reason).Keeps { ledger with records := (made.map Ban.record).toList ++ ledger.records } := by
  unfold Store.addNew
  cases made with
  | none => exact keeps
  | some ban =>
    dsimp only
    have lasts : ban.flags.temporary = false := permanent ban rfl
    cases found : store.findSimbanExact ban with
    | none =>
      have apart := List.find?_eq_none.mp found
      refine (keeps.addSimban ?_).congr rfl ?_
      · exact fun other member => Bool.eq_false_iff.mpr (apart other member)
      · simp [Ban.record, lasts]
    | some oban =>
      have here : oban ∈ store.lists ban.slot := List.mem_of_find?_eq_some found
      obtain ⟨list, flags, mask⟩ := Ban.same_iff.mp (List.find?_some found)
      have known : oban.record = ban.record := by
        simp only [Ban.record, list, flags, lasts, mycmp_iff.mp mask, Bool.false_eq_true, if_false]
      have inForce : ban.record.inForce store.now = true := by simp [Ban.record_inForce, Ban.expired, lasts]
      have member : ban.record ∈ ledger.records :=
        (keeps.records _ inForce).mpr ⟨oban, ⟨ban.slot, here⟩, known⟩
      refine keeps.congr rfl ?_
      intro record
      simp only [Option.map_some, Option.toList_some, List.cons_append, List.nil_append, List.mem_cons]
      exact or_iff_right_of_imp fun is => is ▸ member

theorem foremost_back {back : List Ban} (first : foremost now (ban :: back) = true) (past : ban.expired now = true) :
    ∀ other ∈ back, other.expired now = true := by
  simpa [foremost, past] using first

/-- What becomes of the hold that is found. Behind it there is no other in force. -/
theorem Store.Keeps.amend {borig : Ban} (keeps : store.Keeps ledger) (found : store.findSimbanExact borig = some oban)
    (clear : foremost store.now ((store.lists borig.slot).filter borig.same) = true)
    (same : ∀ ban held : Ban, change ban = some held → borig.same ban = true → borig.same held = true)
    (agrees : ∀ ban : Ban, borig.same ban = true → (change ban).map Ban.record = imposed) :
    ({ store with lists := store.lists.amend borig.slot borig.same change } : Store).Keeps
      { ledger with records := imposed.toList ++ ledger.records.filter fun record => !record.alike borig.record } := by
  have hit : borig.same oban = true := List.find?_some found
  obtain ⟨front, back, split, before, replaced⟩ := Shelf.replaceFirst_split change found
  have slots (slot : Slot) : store.lists.amend borig.slot borig.same change slot =
      if slot = borig.slot then front ++ ((change oban).toList ++ back) else store.lists slot := by
    unfold Shelf.amend
    split
    next here => rw [here, replaced]
    next => rfl
  have ordered := split ▸ keeps.apart borig.slot
  rw [List.pairwise_append, List.pairwise_cons] at ordered
  obtain ⟨apartFront, ⟨apartFound, apartBack⟩, apartAcross⟩ := ordered
  -- behind the one that was found no other with its mask is in force
  have behind (other : Ban) (member : other ∈ back) (live : other.expired store.now = false) : borig.same other = false := by
    refine Bool.eq_false_iff.mpr fun alike => ?_
    cases past : oban.expired store.now with
    | true =>
      have filtered : (store.lists borig.slot).filter borig.same = oban :: back.filter borig.same := by
        rw [split, List.filter_append, List.filter_eq_nil_iff.mpr fun ban here => by simp [before ban here],
          List.filter_cons_of_pos hit, List.nil_append]
      have expired := foremost_back (filtered ▸ clear) past other (List.mem_filter.mpr ⟨member, alike⟩)
      simp [live] at expired
    | false =>
      have differs := apartFound other member past live
      rw [Ban.same_congr hit, alike] at differs
      cases differs
  have inFront (other held : Ban) (member : other ∈ front) (changed : borig.same held = true) : other.same held = false := by
    refine Bool.eq_false_iff.mpr fun alike => ?_
    have alike' := Ban.same_symm alike
    rw [Ban.same_congr changed, before other member] at alike'
    cases alike'
  constructor
  case filed =>
    refine keeps.filed.amend ?_ borig.slot
    intro ban held hit changed
    rw [Ban.slot_of_same (same ban held changed hit), Ban.slot_of_same hit]
  case apart =>
    intro slot
    simp only [slots]
    split
    next =>
      rw [List.pairwise_append, List.pairwise_append]
      refine ⟨apartFront, ⟨?_, apartBack, ?_⟩, ?_⟩
      · cases change oban <;> simp
      · intro held member other here _ live
        rw [Ban.same_congr (same oban held (Option.mem_toList.mp member) hit)]
        exact behind other here live
      · intro other here ban member
        obtain new | old := List.mem_append.mp member
        · exact fun _ _ => inFront other ban here (same oban ban (Option.mem_toList.mp new) hit)
        · exact apartAcross other here ban (List.mem_cons_of_mem _ old)
    next => exact keeps.apart slot
  case now => exact keeps.now
  case records =>
    intro record inForce
    have held (ban : Ban) (is : ban.record = record) (live : store.lists.Holds ban) : record ∈ ledger.records :=
      (keeps.records record inForce).mpr ⟨ban, live, is⟩
    rw [List.mem_append, Option.mem_toList, List.mem_filter, Bool.not_eq_true']
    simp only [Shelf.Holds, slots]
    constructor
    · rintro (new | ⟨member, differs⟩)
      · rw [← agrees oban hit] at new
        obtain ⟨ban, changed, is⟩ := Option.map_eq_some_iff.mp new
        refine ⟨ban, ⟨borig.slot, ?_⟩, is⟩
        simp [changed]
      · obtain ⟨ban, ⟨slot, here⟩, rfl⟩ := (keeps.records record inForce).mp member
        rw [← Ban.same_iff_alike] at differs
        refine ⟨ban, ⟨slot, ?_⟩, rfl⟩
        split
        next is =>
          rw [is, split, List.mem_append, List.mem_cons] at here
          obtain early | rfl | late := here
          · exact List.mem_append_left _ early
          · simp [hit] at differs
          · exact List.mem_append_right _ (List.mem_append_right _ late)
        next => exact here
    · rintro ⟨ban, ⟨slot, here⟩, rfl⟩
      have live : ban.expired store.now = false := by simpa [Ban.record_inForce] using inForce
      rw [← Ban.same_iff_alike]
      split at here
      next is =>
        obtain early | new | late := by simpa only [List.mem_append] using here
        · exact .inr ⟨held ban rfl ⟨borig.slot, by simp [split, early]⟩, before ban early⟩
        · refine .inl ?_
          rw [← agrees oban hit, Option.mem_toList.mp new, Option.map_some]
        · exact .inr ⟨held ban rfl ⟨borig.slot, by simp [split, late]⟩, behind ban late live⟩
      next differs =>
        exact .inr ⟨held ban rfl ⟨slot, here⟩, Bool.eq_false_iff.mpr fun alike => differs (keeps.same_slot here alike)⟩

/-- A ban that is not found has no record in force. -/
theorem Store.Keeps.absent (keeps : store.Keeps ledger) (missing : store.findSimbanExact borig = none) :
    store.Keeps { ledger with records := ledger.records.filter fun record => !record.alike borig.record } where
  filed := keeps.filed
  apart := keeps.apart
  now := keeps.now
  records := by
    intro record inForce
    rw [List.mem_filter, keeps.records record inForce, Bool.not_eq_true']
    refine and_iff_left_of_imp ?_
    rintro ⟨ban, ⟨slot, here⟩, rfl⟩
    rw [← Ban.same_iff_alike]
    refine Bool.eq_false_iff.mpr fun same => ?_
    exact List.find?_eq_none.mp missing ban (keeps.same_slot here same ▸ here) same

theorem heldBan_temporary (held : heldBan mask = some ban) : ban.flags.temporary = true := by
  rw [makeSimpleban_some held]

theorem made_permanent (made : makeSimpleban list flags mask = some ban) : ban.flags.temporary = flags.temporary := by
  rw [makeSimpleban_some made]

theorem Store.Keeps.mSvshold (keeps : store.Keeps ledger) (clear : store.clear (.svshold mask length reason)) :
    (store.mSvshold mask length reason).Keeps (ledger.perform (.svshold mask length reason)) := by
  unfold Store.mSvshold
  simp only [Ledger.perform, Action.imposes, Action.lifts]
  cases made : heldBan mask with
  | none =>
    refine keeps.congr rfl ?_
    simp
  | some ban =>
    have temporary := heldBan_temporary made
    simp only [Option.any_some]
    cases found : store.findSimbanExact ban with
    | some oban =>
      refine keeps.amend found (clear ban made) ?_ ?_
      · intro oban held changed hit
        split at changed
        · cases changed
        · obtain rfl := Option.some.inj changed
          exact Ban.same_iff.mpr (Ban.same_iff.mp hit)
      · intro oban hit
        obtain ⟨list, flags, mask⟩ := Ban.same_iff.mp hit
        split
        · rfl
        · simp [Ban.record, list, flags, temporary, mycmp_iff.mp mask, keeps.now]
    | none =>
      have apart := List.find?_eq_none.mp found
      by_cases short : holdLength length ≤ 0
      · rw [if_neg (by omega), if_pos short]
        exact keeps.absent found
      · rw [if_pos (by omega), if_neg short]
        refine ((keeps.absent found).addSimban ?_).congr rfl ?_
        · exact fun other member => Bool.eq_false_iff.mpr (apart other member)
        · simp [Ban.record, temporary, keeps.now]

/-- Ending records one way and then the other. -/
theorem Store.Keeps.removeTwice (keeps : store.Keeps ledger) {first second : Record → Bool}
    (agreesFirst : ∀ ban : Ban, first ban.record = (ban.list == list && hit ban))
    (agreesSecond : ∀ ban : Ban, second ban.record = (ban.list == list' && hit' ban)) :
    ((store.removeWhere list hit).removeWhere list' hit').Keeps
      { ledger with records := ledger.records.filter fun record => !(first record || second record) } := by
  refine ((keeps.removeWhere agreesFirst).removeWhere agreesSecond).congr rfl ?_
  intro record
  simp only [List.mem_filter, Bool.not_or, Bool.and_eq_true, and_assoc]

/-- What `remove_simbans_match_mask` asks of a ban, asked of its record. -/
theorem record_under (list : BanList) (flags : Flags) (mask : Text) (wild : Bool) (ban : Ban) :
    ban.record.under list flags mask wild = (ban.list == list && (ban.flags.has flags && chkfnc wild mask ban.mask)) := by
  have same := chkfnc_upper wild mask ban.mask
  simp only [Record.under, Ban.record, same, Bool.and_assoc]

theorem Store.Keeps.mUnsqline (keeps : store.Keeps ledger) (params : List Text) :
    (store.mUnsqline params).Keeps (ledger.perform (.unsqline params)) := by
  unfold Store.mUnsqline
  simp only [Ledger.perform, Action.imposes, Action.lifts]
  cases read : unParams params with
  | none =>
    refine keeps.congr rfl ?_
    simp
  | some given =>
    obtain ⟨matchit, mask⟩ := given
    simp only [Option.any_some, Option.map_none, Option.toList_none, List.nil_append]
    split
    next => exact keeps.removeTwice (record_under .chan _ mask true) (record_under .nick _ mask true)
    next => exact keeps.removeWhere (record_under (.ofMask mask) _ mask matchit)

theorem Store.Keeps.mUnsgline (keeps : store.Keeps ledger) (params : List Text) :
    (store.mUnsgline params).Keeps (ledger.perform (.unsgline params)) := by
  unfold Store.mUnsgline
  simp only [Ledger.perform, Action.imposes, Action.lifts]
  cases read : unParams params with
  | none =>
    refine keeps.congr rfl ?_
    simp
  | some given =>
    obtain ⟨matchit, mask⟩ := given
    exact keeps.removeWhere (record_under .gcos _ mask matchit)

theorem Store.Keeps.mSqline (keeps : store.Keeps ledger) (mask : Text) (reason : Option Text) :
    (store.mSqline mask reason).Keeps (ledger.perform (.sqline mask reason)) := by
  refine (keeps.addNew (fun ban made => made_permanent made) _).congr rfl ?_
  simp [Ledger.perform, Action.imposes, Action.lifts]

theorem Store.Keeps.mSgline (keeps : store.Keeps ledger) (len text : Text) :
    (store.mSgline len text).Keeps (ledger.perform (.sgline len text)) := by
  unfold Store.mSgline
  cases bogus : splitSgline (Decimal.atoi len) text with
  | none =>
    refine keeps.congr rfl ?_
    simp [Ledger.perform, Action.imposes, Action.lifts, bogus]
  | some given =>
    refine (keeps.addNew (fun ban made => made_permanent made) _).congr rfl ?_
    simp [Ledger.perform, Action.imposes, Action.lifts, bogus]

theorem Store.Keeps.confaddRestrict (keeps : store.Keeps ledger) (list : BanList) (mask : Text) (reason : Option Text) :
    (store.confaddRestrict list mask reason).Keeps (ledger.perform (.restrict list mask reason)) := by
  refine (keeps.addNew (fun ban made => made_permanent made) _).congr rfl ?_
  simp [Ledger.perform, Action.imposes, Action.lifts]

theorem Store.Keeps.perform (keeps : store.Keeps ledger) (clear : store.clear action) :
    (store.perform action).Keeps (ledger.perform action) := by
  cases action with
  | sqline mask reason => exact keeps.mSqline mask reason
  | unsqline params => exact keeps.mUnsqline params
  | sgline len text => exact keeps.mSgline len text
  | unsgline params => exact keeps.mUnsgline params
  | restrict list mask reason => exact keeps.confaddRestrict list mask reason
  | svshold mask length reason => exact keeps.mSvshold clear
  | removeFlags list flags nflags =>
    refine keeps.removeWhere ?_
    intro ban
    simp [Action.lifts, Ban.record, Bool.and_assoc]
  | removeMask list flags mask wild => exact keeps.removeWhere (record_under list flags mask wild)
  | expire =>
    refine keeps.expireSimbans.congr rfl ?_
    simp [Ledger.perform, Action.imposes, Action.lifts]
  | tick seconds =>
    refine (keeps.tick seconds).congr rfl ?_
    simp [Ledger.perform, Action.imposes, Action.lifts]

theorem Store.Keeps.run (keeps : store.Keeps ledger) (actions : List Action)
    (clear : machine.Allows Store.clear store actions) :
    (actions.foldl Store.perform store).Keeps (actions.foldl Ledger.perform ledger) := by
  induction actions generalizing store ledger with
  | nil => exact keeps
  | cons action actions ih =>
    obtain ⟨-, now, later⟩ := clear
    exact ih (keeps.perform now) later

theorem mem_searched : (slot, test) ∈ searched now name list ↔
    (slot = .hash list (hostHash name % hashSize) ∧ test = fun ban => !ban.expired now && mycmp ban.mask name) ∨
      (slot = .wild list ∧ test = fun ban => !ban.expired now && matchMask ban.mask name) := by
  simp [searched]

/-- The two loops look where the ban stands, and ask what its record asks. -/
theorem searched_passes (ban : Ban) (now : Int) (name : Text) (list : BanList) :
    (∃ test, (ban.slot, test) ∈ searched now name list ∧ test ban = true) ↔
      ban.expired now = false ∧ ban.list = list ∧ ban.record.stops name = true := by
  simp only [mem_searched, ban.record_stops]
  unfold Ban.slot chkfnc
  cases ban.flags.wild with
  | true =>
    simp only [if_true, reduceCtorEq, false_and, false_or, Slot.wild.injEq]
    constructor
    · rintro ⟨test, ⟨here, rfl⟩, passes⟩
      simpa [here] using passes
    · rintro ⟨live, here, stops⟩
      exact ⟨_, ⟨here, rfl⟩, by simp [live, stops]⟩
  | false =>
    simp only [Bool.false_eq_true, if_false, reduceCtorEq, false_and, or_false, Slot.hash.injEq]
    constructor
    · rintro ⟨test, ⟨⟨here, -⟩, rfl⟩, passes⟩
      simpa [here] using passes
    · rintro ⟨live, here, stops⟩
      exact ⟨_, ⟨⟨here, by rw [UserBan.hostHash_congr stops]⟩, rfl⟩, by simp [live, stops]⟩

/-- `check_mask_simbanned` gives a ban exactly when a record in force stops the name. -/
theorem Store.Keeps.check (keeps : store.Keeps ledger) (name : Text) (list : BanList) :
    ((store.checkMaskSimbanned name list).isSome ↔
      ∃ record ∈ ledger.records, record.inForce store.now = true ∧ record.list = list ∧ record.stops name = true) ∧
    ∀ ban, store.checkMaskSimbanned name list = some ban →
      ban.record ∈ ledger.records ∧ ban.record.inForce store.now = true ∧ ban.list = list ∧ ban.record.stops name = true := by
  have sound (ban : Ban) (found : store.checkMaskSimbanned name list = some ban) :
      ban.record ∈ ledger.records ∧ ban.record.inForce store.now = true ∧ ban.list = list ∧ ban.record.stops name = true := by
    obtain ⟨slot, test, looked, here, passes⟩ := Shelf.search_some found
    obtain rfl : ban.slot = slot := Option.some.inj (keeps.filed slot ban here)
    obtain ⟨live, listed, stops⟩ := (searched_passes ban store.now name list).mp ⟨test, looked, passes⟩
    have inForce : ban.record.inForce store.now = true := by rw [ban.record_inForce, live, Bool.not_false]
    exact ⟨(keeps.records _ inForce).mpr ⟨ban, ⟨_, here⟩, rfl⟩, inForce, listed, stops⟩
  refine ⟨⟨?_, ?_⟩, sound⟩
  · intro present
    obtain ⟨ban, found⟩ := Option.isSome_iff_exists.mp present
    exact ⟨ban.record, sound ban found⟩
  · rintro ⟨record, member, inForce, listed, stops⟩
    obtain ⟨ban, ⟨slot, here⟩, rfl⟩ := (keeps.records record inForce).mp member
    obtain rfl : ban.slot = slot := Option.some.inj (keeps.filed slot ban here)
    have live : ban.expired store.now = false := by simpa [Ban.record_inForce] using inForce
    obtain ⟨test, looked, passes⟩ := (searched_passes ban store.now name list).mpr ⟨live, listed, stops⟩
    exact Shelf.search_isSome looked here passes

/-- What an action asks for is in force at once. -/
theorem imposes_inForce (imposed : Action.imposes now action = some ban) : ban.record.inForce now = true := by
  have permanent (list : BanList) (flags : Flags) (mask : Text) (lasting : flags.temporary = false)
      (made : makeSimpleban list flags mask = some ban) : ban.record.inForce now = true := by
    rw [Ban.record_inForce, Ban.expired, made_permanent made, lasting, Bool.false_and, Bool.not_false]
  cases action with
  | sqline mask reason => exact permanent (.ofMask mask) { network := true } mask rfl imposed
  | sgline len text =>
    obtain ⟨⟨mask, reason⟩, -, made⟩ := Option.bind_eq_some_iff.mp imposed
    exact permanent .gcos { network := true } mask rfl made
  | restrict list mask reason => exact permanent list { isLocal := true } mask rfl imposed
  | svshold mask length reason =>
    simp only [Action.imposes] at imposed
    split at imposed
    next => cases imposed
    next long =>
      obtain ⟨held, -, rfl⟩ := Option.map_eq_some_iff.mp imposed
      have later : ¬ now + holdLength length ≤ now := by omega
      rw [Ban.record_inForce, Ban.expired]
      simp only [decide_eq_false later, Bool.and_false, Bool.not_false]
  | _ => cases imposed

theorem Ledger.now_imposed (ledger : Ledger) (imposed : action.imposes time = some ban) :
    (ledger.perform action).now = ledger.now := by
  cases action with
  | tick seconds => cases imposed
  | _ => rfl

/-- What an action asks for is enforced after it, whatever was removed before. -/
theorem Store.Keeps.enforces (keeps : store.Keeps ledger) (clear : store.clear action)
    (imposed : action.imposes store.now = some ban) (stops : ban.record.stops name = true) :
    ((store.perform action).checkMaskSimbanned name ban.list).isSome := by
  have after := keeps.perform clear
  refine (after.check name ban.list).1.mpr ⟨ban.record, ?_, ?_, rfl, stops⟩
  · simp [Ledger.perform, ← keeps.now, imposed]
  · rw [after.now, ledger.now_imposed imposed, ← keeps.now]
    exact imposes_inForce imposed

/-- In every run in which each SVSHOLD finds the hold it is about, the check of a name
gives a ban exactly when one that was asked for, has not ended and has time left stops the
name; a removal by mask ends the bans that it names and no others; and a ban that is asked
for again is enforced again. -/
theorem simbans_exact (now : Int) (actions : List Action) (clear : machine.Allows Store.clear (.empty now) actions) :
    let store := actions.foldl Store.perform (.empty now)
    let ledger := actions.foldl Ledger.perform (.empty now)
    (∀ name list,
      ((store.checkMaskSimbanned name list).isSome ↔
        ∃ record ∈ ledger.records, record.inForce store.now = true ∧ record.list = list ∧ record.stops name = true) ∧
      ∀ ban, store.checkMaskSimbanned name list = some ban →
        ban.record ∈ ledger.records ∧ ban.record.inForce store.now = true ∧ ban.list = list ∧ ban.record.stops name = true) ∧
    (∀ list flags mask wild ban, ban.expired store.now = false →
      ((store.removeSimbansMatchMask list flags mask wild).lists.Holds ban ↔
        store.lists.Holds ban ∧ (ban.list == list && (ban.flags.has flags && chkfnc wild mask ban.mask)) = false)) ∧
    ∀ action, store.clear action → ∀ ban, action.imposes store.now = some ban → ∀ name, ban.record.stops name = true →
      ((store.perform action).checkMaskSimbanned name ban.list).isSome := by
  intro store ledger
  have keeps : store.Keeps ledger := (Store.Keeps.empty now).run actions clear
  refine ⟨keeps.check, ?_, ?_⟩
  · intro list flags mask wild ban live
    exact Store.holds_removeWhere keeps.filed live
  · intro action found ban imposed name stops
    exact keeps.enforces found imposed stops

/-- A hold, a restricted nick that the next configuration no longer has, and the end of
the hold. -/
def heldRun : List Action :=
  [.svshold "foo".toList "3600".toList none, .restrict .nick "foo".toList none,
    .removeFlags .nick { isLocal := true } { temporary := true }, .svshold "foo".toList "0".toList none]

theorem simbans_exact_held :
    (((heldRun.take 3).foldl Store.perform (.empty 0)).checkMaskSimbanned "FOO".toList .nick).isSome := by
  have clear : machine.Allows Store.clear (.empty 0) (heldRun.take 3) := by
    refine ⟨trivial, ?_, trivial, trivial, trivial, trivial, trivial⟩
    intro ban made
    rfl
  refine ((simbans_exact 0 (heldRun.take 3) clear).1 "FOO".toList .nick).1.mpr ?_
  exact ⟨⟨.nick, { isLocal := true, temporary := true }, "FOO".toList, some 3600⟩, by decide, by decide, rfl, by decide⟩

/-- The end of the hold takes out the restricted nick, which was removed before. -/
theorem ended_hold_stays :
    ((heldRun.foldl Store.perform (.empty 0)).checkMaskSimbanned "foo".toList .nick).isSome ∧
      (heldRun.foldl Ledger.perform (.empty 0)).records = [] := by
  decide

end SolidIrcd.SimBan
