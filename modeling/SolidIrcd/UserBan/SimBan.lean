import SolidIrcd.UserBan.Store

/-! The simple bans: reserved nicks, reserved channels and banned real names. A ban that
is removed stays where it is and is rewritten as a temporary one whose time is over. -/

namespace SolidIrcd.SimBan

open Scan (Text)
open Mask (isWild matchMask)
open UserBan (hostHash hashSize)

/-- `nick_bans`, `chan_bans` and `gcos_bans`: of SBAN_NICK, SBAN_CHAN and SBAN_GCOS every
caller gives one. -/
inductive BanList where
  | nick
  | chan
  | gcos
  deriving DecidableEq, Repr

/-- The other bits of `flags`: SBAN_LOCAL, SBAN_NETWORK, SBAN_WILD, SBAN_TEMPORARY. -/
structure Flags where
  isLocal : Bool := false
  network : Bool := false
  wild : Bool := false
  temporary : Bool := false
  deriving DecidableEq, Repr

/-- `(flags & wanted) == wanted`. -/
def Flags.has (flags wanted : Flags) : Bool :=
  (!wanted.isLocal || flags.isLocal) && (!wanted.network || flags.network) &&
    (!wanted.wild || flags.wild) && (!wanted.temporary || flags.temporary)

/-- `(flags & others) != 0`. -/
def Flags.meets (flags others : Flags) : Bool :=
  (flags.isLocal && others.isLocal) || (flags.network && others.network) ||
    (flags.wild && others.wild) || (flags.temporary && others.temporary)

/-- `struct simBan`. -/
structure Ban where
  list : BanList
  flags : Flags
  mask : Text
  reason : Option Text := none
  timeset : Int := 0
  duration : Int := 0
  deriving DecidableEq, Repr

/-- `make_simpleban`, for flags with one of the lists. -/
def makeSimpleban (list : BanList) (flags : Flags) (mask : Text) : Option Ban :=
  let wildcount := mask.countP isWild
  let othercount := mask.countP fun c => !isWild c
  if !(flags.network || flags.isLocal) then none
  else if othercount = 0 then none
  else some { list, flags := if wildcount ≠ 0 then { flags with wild := true } else flags, mask }

/-- The test for a temporary ban that every loop over the bans makes. -/
def Ban.expired (ban : Ban) (now : Int) : Bool := ban.flags.temporary && decide (ban.timeset + ban.duration ≤ now)

/-- `wild_list` and `hash_list` of a `banlist`. -/
inductive Slot where
  | wild (list : BanList)
  | hash (list : BanList) (hv : Nat)
  deriving DecidableEq, Repr

def Slot.list : Slot → BanList
  | .wild list => list
  | .hash list _ => list

def Ban.slot (ban : Ban) : Slot :=
  if ban.flags.wild then .wild ban.list else .hash ban.list (hostHash ban.mask % hashSize)

structure Store where
  lists : Shelf Slot Ban
  now : Int

def Store.empty (now : Int) : Store := ⟨Shelf.empty, now⟩

/-- `add_simban`. -/
def Store.addSimban (store : Store) (ban : Ban) : Store := { store with lists := store.lists.put ban.slot ban }

/-- What `find_simban_exact` compares. -/
def Ban.same (borig ban : Ban) : Bool :=
  ban.list == borig.list && ban.flags == borig.flags && mycmp ban.mask borig.mask

/-- `find_simban_exact`. -/
def Store.findSimbanExact (store : Store) (borig : Ban) : Option Ban := (store.lists borig.slot).find? borig.same

/-- The two loops of `check_mask_simbanned`. -/
def searched (now : Int) (mask : Text) (list : BanList) : List (Slot × (Ban → Bool)) :=
  [(.hash list (hostHash mask % hashSize), fun ban => !ban.expired now && mycmp ban.mask mask),
    (.wild list, fun ban => !ban.expired now && matchMask ban.mask mask)]

/-- `check_mask_simbanned`. -/
def Store.checkMaskSimbanned (store : Store) (mask : Text) (list : BanList) : Option Ban :=
  store.lists.search (searched store.now mask list)

/-- Kludge it out! -/
def Ban.disable (ban : Ban) (now : Int) : Ban :=
  { ban with flags := { ban.flags with temporary := true }, timeset := now - 5, duration := 1 }

/-- The body of the loops that remove: bans that have expired are passed over. -/
def Ban.removeIf (now : Int) (hit : Ban → Bool) (ban : Ban) : Ban :=
  if !ban.expired now && hit ban then ban.disable now else ban

def Store.removeWhere (store : Store) (list : BanList) (hit : Ban → Bool) : Store :=
  { store with lists := store.lists.revise (·.list == list) (Ban.removeIf store.now hit) }

/-- `remove_simbans_match_flags`. -/
def Store.removeSimbansMatchFlags (store : Store) (list : BanList) (flags nflags : Flags) : Store :=
  store.removeWhere list fun ban => ban.flags.has flags && !ban.flags.meets nflags

/-- `chkfnc = wild ? match : mycmp`. -/
def chkfnc (wild : Bool) (mask other : Text) : Bool := if wild then matchMask mask other else mycmp mask other

/-- `remove_simbans_match_mask`. -/
def Store.removeSimbansMatchMask (store : Store) (list : BanList) (flags : Flags) (mask : Text) (wild : Bool) : Store :=
  store.removeWhere list fun ban => ban.flags.has flags && chkfnc wild mask ban.mask

/-- `expire_simbans`. -/
def Store.expireSimbans (store : Store) : Store :=
  { store with lists := store.lists.discard fun ban => ban.expired store.now }

/-- The end of `m_sqline`, `m_sgline` and `confadd_restrict`: no ban is added twice. -/
def Store.addNew (store : Store) (made : Option Ban) (reason : Text) : Store :=
  match made with
  | none => store
  | some ban =>
    match store.findSimbanExact ban with
    | none => store.addSimban { ban with reason := some reason, timeset := store.now }
    | some _ => store

/-- `BadPtr(reason) ? usual : reason`. -/
def reasonOr (reason : Option Text) (usual : String) : Text :=
  match reason with
  | none | some [] => usual.toList
  | some reason => reason

/-- The list of an SQLINE: channels start with a hash. -/
def BanList.ofMask (mask : Text) : BanList := if mask.head? = some '#' then .chan else .nick

/-- `m_sqline`. -/
def Store.mSqline (store : Store) (mask : Text) (reason : Option Text) : Store :=
  store.addNew (makeSimpleban (.ofMask mask) { network := true } mask) (reasonOr reason "Reserved")

/-- The mask and the reason in the last parameter of an SGLINE; a negative length is a
very long one there. -/
def splitSgline (len : Int) (text : Text) : Option (Text × Text) :=
  if 0 ≤ len ∧ len < text.length ∧ text[len.toNat]? = some ':' then
    some (text.take len.toNat, text.drop (len.toNat + 1))
  else none

/-- `m_sgline`. -/
def Store.mSgline (store : Store) (len text : Text) : Store :=
  match splitSgline (Decimal.atoi len) text with
  | none => store
  | some (mask, reason) => store.addNew (makeSimpleban .gcos { network := true } mask) (reasonOr (some reason) "Reserved")

/-- The reason of a restrict block that has none. -/
def BanList.usualReason : BanList → String
  | .chan => "Reserved Channel"
  | .nick => "Reserved Nick"
  | .gcos => "Bad GCOS"

/-- `confadd_restrict`, once it has read the block. -/
def Store.confaddRestrict (store : Store) (list : BanList) (mask : Text) (reason : Option Text) : Store :=
  store.addNew (makeSimpleban list { isLocal := true } mask) (reason.getD list.usualReason.toList)

/-- How `m_unsqline` and `m_unsgline` read their parameters: `matchit` and the mask. -/
def unParams : List Text → Option (Bool × Text)
  | [] => none
  | [matchit, mask] => some (Decimal.atoi matchit != 0, mask)
  | mask :: _ => some (false, mask)

/-- `m_unsqline`. -/
def Store.mUnsqline (store : Store) (params : List Text) : Store :=
  match unParams params with
  | none => store
  | some (matchit, mask) =>
    if mycmp mask ['*'] && matchit then
      (store.removeSimbansMatchMask .chan { network := true } mask true).removeSimbansMatchMask
        .nick { network := true } mask true
    else store.removeSimbansMatchMask (.ofMask mask) { network := true } mask matchit

/-- `m_unsgline`. -/
def Store.mUnsgline (store : Store) (params : List Text) : Store :=
  match unParams params with
  | none => store
  | some (matchit, mask) => store.removeSimbansMatchMask .gcos { network := true } mask matchit

/-- The ban that `m_svshold` makes to look for, and to add. -/
def heldBan (mask : Text) : Option Ban := makeSimpleban .nick { isLocal := true, temporary := true } mask

/-- `strtol(parv[2], NULL, 0)` in an `int`. -/
def holdLength (length : Text) : Int := Decimal.toInt (Decimal.strtolAuto length).1

/-- `m_svshold`; what it finds is the ban that it takes out or changes. -/
def Store.mSvshold (store : Store) (mask length : Text) (reason : Option Text) : Store :=
  let reason := reason.getD "Nickname is reserved, try again later".toList
  let held (ban : Ban) : Ban :=
    { ban with reason := some reason, timeset := store.now, duration := holdLength length }
  match heldBan mask with
  | none => store
  | some ban =>
    match store.findSimbanExact ban with
    | some _ =>
      { store with lists := store.lists.amend ban.slot ban.same fun oban =>
          if holdLength length ≤ 0 then none else some (held oban) }
    | none => if holdLength length > 0 then store.addSimban (held ban) else store

/-- What may happen to the bans. The removals by flags are those of REHASH and of a
reread configuration. -/
inductive Action where
  | sqline (mask : Text) (reason : Option Text)
  | unsqline (params : List Text)
  | sgline (len text : Text)
  | unsgline (params : List Text)
  | restrict (list : BanList) (mask : Text) (reason : Option Text)
  | svshold (mask length : Text) (reason : Option Text)
  | removeFlags (list : BanList) (flags nflags : Flags)
  | removeMask (list : BanList) (flags : Flags) (mask : Text) (wild : Bool)
  | expire
  | tick (seconds : Nat)
  deriving DecidableEq, Repr

def Store.perform (store : Store) : Action → Store
  | .sqline mask reason => store.mSqline mask reason
  | .unsqline params => store.mUnsqline params
  | .sgline len text => store.mSgline len text
  | .unsgline params => store.mUnsgline params
  | .restrict list mask reason => store.confaddRestrict list mask reason
  | .svshold mask length reason => store.mSvshold mask length reason
  | .removeFlags list flags nflags => store.removeSimbansMatchFlags list flags nflags
  | .removeMask list flags mask wild => store.removeSimbansMatchMask list flags mask wild
  | .expire => store.expireSimbans
  | .tick seconds => { store with now := store.now + seconds }

@[simp] theorem Store.removeWhere_now (store : Store) : (store.removeWhere list hit).now = store.now := rfl

@[simp] theorem Store.expireSimbans_now (store : Store) : store.expireSimbans.now = store.now := rfl

@[simp] theorem Ban.slot_list (ban : Ban) : ban.slot.list = ban.list := by
  unfold slot
  split <;> rfl

/-- What a ban is filed by, and what it is found by, is left as it is. -/
structure Ban.Keeps (before after : Ban) : Prop where
  list : after.list = before.list
  mask : after.mask = before.mask
  wild : after.flags.wild = before.flags.wild

theorem Ban.Keeps.slot {before after : Ban} (keeps : before.Keeps after) : after.slot = before.slot := by
  simp only [Ban.slot, keeps.list, keeps.mask, keeps.wild]

theorem Ban.disable_keeps (ban : Ban) (now : Int) : ban.Keeps (ban.disable now) := ⟨rfl, rfl, rfl⟩

theorem Ban.removeIf_keeps (now : Int) (hit : Ban → Bool) (ban : Ban) : ban.Keeps (ban.removeIf now hit) := by
  unfold removeIf
  split
  · exact ban.disable_keeps now
  · exact ⟨rfl, rfl, rfl⟩

/-- A removed ban counts as one whose time is over. -/
theorem Ban.disable_expired (ban : Ban) (now : Int) : (ban.disable now).expired now = true := by
  have past : now - 5 + 1 ≤ now := by omega
  simp [disable, expired, past]

theorem Ban.expired_mono {ban : Ban} (past : ban.expired now = true) (seconds : Nat) :
    ban.expired (now + seconds) = true := by
  simp only [expired, Bool.and_eq_true, decide_eq_true_eq] at past ⊢
  exact ⟨past.1, by omega⟩

/-- A ban that a removal leaves in force was there, and the removal was not about it. -/
theorem Ban.removeIf_live {ban : Ban} : (ban.removeIf now hit).expired now = false ↔
    ban.expired now = false ∧ hit ban = false := by
  unfold removeIf
  split
  next removed =>
    simp only [Bool.and_eq_true, Bool.not_eq_true'] at removed
    simp [Ban.disable_expired, removed.2]
  next kept =>
    constructor
    · intro live
      refine ⟨live, ?_⟩
      simpa [live] using kept
    · exact And.left

theorem Ban.removeIf_of_live {ban : Ban} (live : (ban.removeIf now hit).expired now = false) :
    ban.removeIf now hit = ban := by
  unfold removeIf at live ⊢
  split at live
  next => simp [Ban.disable_expired] at live
  next kept => exact if_neg kept

theorem Ban.same_iff {borig ban : Ban} : borig.same ban = true ↔
    ban.list = borig.list ∧ ban.flags = borig.flags ∧ mycmp ban.mask borig.mask = true := by
  simp [same, and_assoc]

theorem Ban.same_refl (ban : Ban) : ban.same ban = true := same_iff.mpr ⟨rfl, rfl, mycmp_refl _⟩

/-- Bans with the same flags and mask stand in one list. -/
theorem Ban.slot_of_same {borig ban : Ban} (same : borig.same ban = true) : ban.slot = borig.slot := by
  obtain ⟨list, flags, mask⟩ := same_iff.mp same
  simp only [slot, list, flags, UserBan.hostHash_congr mask]

theorem Ban.same_congr {first second : Ban} (same : first.same second = true) (ban : Ban) :
    second.same ban = first.same ban := by
  obtain ⟨list, flags, mask⟩ := same_iff.mp same
  simp only [Ban.same, list, flags, mycmp_comm ban.mask, mycmp_congr_left mask]

theorem Ban.same_symm {first second : Ban} (same : first.same second = true) : second.same first = true :=
  (same_congr same first).trans first.same_refl

theorem makeSimpleban_some (made : makeSimpleban list flags mask = some ban) :
    ban = { list, flags := { flags with wild := flags.wild || mask.any isWild }, mask } := by
  simp only [makeSimpleban] at made
  split at made
  · cases made
  · split at made
    · cases made
    · obtain rfl := Option.some.inj made
      by_cases wild : mask.any isWild = true
      · have counted : mask.countP isWild ≠ 0 := by
          simpa [List.countP_eq_zero] using wild
        simp [wild, counted]
      · have counted : mask.countP isWild = 0 := by
          simpa [List.countP_eq_zero] using wild
        simp [wild, counted]

end SolidIrcd.SimBan
