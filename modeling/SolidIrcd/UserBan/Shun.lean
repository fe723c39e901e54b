import Mathlib.Logic.Function.Basic
import SolidIrcd.Lib.Machine
import SolidIrcd.UserBan.Command
import SolidIrcd.UserBan.Exact

/-! Shuns: `m_shun`, `m_unshun`, the expiry of bans and the registration of users keep a flag
on each user, which should say whether a shun matches. -/

namespace SolidIrcd.UserBan.Shun

open Scan (Text)
open Mask (matchMask)
open Function (update)

abbrev ClientId := Nat

/-- A connection of this server: accepted only, or a registered user with FLAGS_SHUNNED. -/
inductive Conn where
  | waiting (ip : Address)
  | person (client : Client) (shunned : Bool)
  deriving DecidableEq, Repr

structure State where
  store : Store
  conns : ClientId → Option Conn
  now : Int

def State.start : State := ⟨.empty, fun _ => none, 0⟩

/-- The lists in the order of `expire_userbans`. -/
def slots : List Slot :=
  .cidr4big :: (List.range 256).flatMap (fun a => (List.range 256).map fun b => .cidr4 a b) ++
    [.hostWild, .ipWild] ++ (List.range hashSize).flatMap fun a => [.hostBucket a, .ipBucket a]

/-- The bans in all lists. -/
def bans (store : Store) : List Ban := slots.flatMap store.lists

/-- The users that a test finds get the flag, or lose it. -/
def State.setShun (state : State) (flag : Bool) (test : Client → Bool) : State :=
  { state with
    conns := fun id =>
      match state.conns id with
      | some (.person client shunned) => some (.person client (if test client then flag else shunned))
      | other => other }

/-- `isallnum`. -/
def isallnum (text : Text) : Bool := text.all isDigit

/-- A shun of everybody is refused. -/
def shunsAll (user host : Text) : Bool :=
  matchMask user "jkjlkajflkajf".toList && matchMask host "afls...afplsf".toList

/-- The sender is a user of this server and the ban matches. -/
def State.hitsSender (state : State) (sender : Option ClientId) (ban : Ban) : Bool :=
  match sender.bind state.conns with
  | some (.person client _) => userMatchBan client ban
  | _ => false

/-- The ban `m_shun` makes of its parameters. -/
def shunBan (seconds target : Text) : Option Ban :=
  let user := (userHost target).1.take userLen
  let host := (userHost target).2.take hostLen
  if isallnum seconds = false then none
  else if shunsAll user host then none
  else makeHostbasedBan (some user) host

/-- The ban that `m_shun` adds, unless it is there already or would affect the sender. -/
def State.newShun (state : State) (sender : Option ClientId) (seconds target reason : Text) : Option Ban :=
  match shunBan seconds target with
  | none => none
  | some ban =>
    if (state.store.findUserbanExact ban {}).any fun oban => oban.flags.shun then none
    else
      let ban := ban.mark { shun := true, reason := some reason, lasts := some (state.now, Decimal.atoi seconds) }
      if state.hitsSender sender ban then none else some ban

/-- `m_shun`, of a privileged client. -/
def State.mShun (state : State) (sender : Option ClientId) (seconds target reason : Text) : State :=
  match state.newShun sender seconds target reason with
  | none => state
  | some ban =>
    match state.store.addHostbasedUserban ban with
    | none => state
    | some store => { state.setShun true (userMatchBan · ban) with store := store }

/-- The ban `m_unshun` looks for. -/
def unshunBan (target : Text) : Option Ban :=
  if shunsAll (userHost target).1 (userHost target).2 then none
  else
    (makeHostbasedBan (some (userHost target).1) (userHost target).2).map fun ban =>
      ban.mark { shun := true, lasts := some (0, 0) }

/-- `m_unshun`, of a privileged client. -/
def State.mUnshun (state : State) (target : Text) : State :=
  match unshunBan target with
  | none => state
  | some ban =>
    match state.store.findUserbanExact ban { shun := true, temporary := true } with
    | none => state
    | some oban =>
      { state.setShun false (userMatchBan · ban) with store := state.store.removeUserban oban.internalEnt }

/-- `expire_userbans`: the shuns that are over take the flag from whom they match. -/
def State.expire (state : State) (now : Int) : State :=
  let ranOut := (bans state.store).filter fun ban => ban.expired now && ban.flags.shun
  { state.setShun false (fun client => ranOut.any (userMatchBan client)) with
    store := state.store.expireUserbans now
    now := now }

/-- A connection that is accepted has no `*@address` ban on it. -/
def State.accept (state : State) (id : ClientId) (ip : Address) : State :=
  match state.store.checkUserbanned state.now ⟨[], [], ip⟩ { ip := true, cidr4 := true, wilduser := true } {} with
  | some _ => state
  | none => { state with conns := update state.conns id (some (.waiting ip)) }

/-- The two lookups of `register_user`. -/
def State.registerBan (state : State) (client : Client) : Option Ban :=
  match state.store.checkUserbanned state.now client { ip := true, cidr4 := true } { wilduser := true } with
  | some ban => some ban
  | none => state.store.checkUserbanned state.now client { host := true } {}

/-- `register_user`, as far as bans go: a shun sets the flag, another ban ends the connection. -/
def State.register (state : State) (id : ClientId) (username realhost : Text) : State :=
  match state.conns id with
  | some (.waiting ip) =>
    let client : Client := ⟨username, realhost, ip⟩
    match state.registerBan client with
    | none => { state with conns := update state.conns id (some (.person client false)) }
    | some ban =>
      if ban.flags.shun then { state with conns := update state.conns id (some (.person client true)) }
      else { state with conns := update state.conns id none }
  | _ => state

inductive Action where
  | tick (now : Int)
  | expire (now : Int)
  | shun (sender : Option ClientId) (seconds target reason : Text)
  | unshun (target : Text)
  | ban (user : Option Text) (host : Text) (marks : Marks)
  | unban (internalEnt : Nat)
  | accept (id : ClientId) (ip : Address)
  | register (id : ClientId) (username realhost : Text)
  | exit (id : ClientId)
  deriving DecidableEq, Repr

def State.perform (state : State) : Action → State
  | .tick now => { state with now := now }
  | .expire now => state.expire now
  | .shun sender seconds target reason => state.mShun sender seconds target reason
  | .unshun target => state.mUnshun target
  | .ban user host marks =>
    match state.store.perform (.add user host marks) with
    | some store => { state with store := store }
    | none => state
  | .unban internalEnt => { state with store := state.store.removeUserban internalEnt }
  | .accept id ip => state.accept id ip
  | .register id username realhost => state.register id username realhost
  | .exit id => { state with conns := update state.conns id none }

/-- The clock runs on, and the other commands leave shuns alone. -/
def State.Possible (state : State) : Action → Prop
  | .tick now => state.now ≤ now
  | .expire now => state.now ≤ now
  | .ban _ _ marks => marks.shun = false
  | .unban internalEnt => ∀ ban, state.store.lists.Holds ban → ban.internalEnt = internalEnt → ban.flags.shun = false
  | _ => True

def machine : Machine State Action := ⟨State.perform, State.Possible⟩

/-- A shun of the store that is not over. -/
def State.Active (state : State) (now : Int) (ban : Ban) : Prop :=
  state.store.lists.Holds ban ∧ ban.flags.shun = true ∧ ban.expired now = false

/-- The flag says whether a shun matches. -/
def State.Exact (state : State) : Prop :=
  ∀ id client shunned, state.conns id = some (.person client shunned) →
    (shunned = true ↔ ∃ ban, state.Active state.now ban ∧ userMatchBan client ban = true)

/-- The registered users. -/
def State.Person (state : State) (client : Client) : Prop :=
  ∃ id shunned, state.conns id = some (.person client shunned)

/-- When the flags go on saying so. -/
def State.Fits (state : State) : Action → Prop
  | .tick now => ∀ client, state.Person client → ∀ ban, state.Active state.now ban → userMatchBan client ban = true →
      ∃ other, state.Active now other ∧ userMatchBan client other = true
  | .expire now => ∀ client, state.Person client → ∀ ban, state.store.lists.Holds ban → ban.flags.shun = true →
      ban.expired now = true → userMatchBan client ban = true →
      ∀ other, state.Active now other → userMatchBan client other = false
  | .shun sender seconds target reason => ∀ ban, state.newShun sender seconds target reason = some ban →
      0 < ban.duration ∨ ∀ client, state.Person client → userMatchBan client ban = false
  | .unshun target => ∀ ban oban, unshunBan target = some ban →
      state.store.findUserbanExact ban { shun := true, temporary := true } = some oban →
      ∀ client, state.Person client → userMatchBan client ban = true →
      ∀ other, state.Active state.now other → other ≠ oban → userMatchBan client other = false
  | .register id username realhost => ∀ ip, state.conns id = some (.waiting ip) →
      ∀ ban, state.Active state.now ban → userMatchBan ⟨username, realhost, ip⟩ ban = true →
      ∃ other, state.Active state.now other ∧ userMatchBan ⟨username, realhost, ip⟩ other = true ∧
        (other.flags.wilduser = false ∨ other.flags.host = true)
  | _ => True

/-- UBAN_WILDHOST goes by the text of the host, and UBAN_WILDUSER by the user. -/
structure Worded (ban : Ban) : Prop where
  host : ban.flags.host = true →
    ban.flags.wildhost = (mycmp (ban.h.getD []) "*.*".toList || mycmp (ban.h.getD []) ['*'])
  user : ban.flags.wilduser = false → ban.u.isSome = true

structure State.Kept (state : State) : Prop where
  proper : state.store.Proper
  worded : ∀ ban, state.store.lists.Holds ban → Worded ban
  exact : state.Exact

theorem mem_slots (place : Ban.slot ban = some slot) : slot ∈ slots := by
  have positive : 0 < hashSize := by decide
  unfold Ban.slot at place
  unfold slots
  split at place
  · obtain rfl := Option.some.inj place
    simp
  · split at place
    · obtain rfl := Option.some.inj place
      simp [octet_lt]
    · split at place
      · split at place
        · obtain rfl := Option.some.inj place
          simp
        · obtain rfl := Option.some.inj place
          simp [Nat.mod_lt _ positive]
      · split at place
        · split at place
          · obtain rfl := Option.some.inj place
            simp
          · obtain rfl := Option.some.inj place
            simp [Nat.mod_lt _ positive]
        · cases place

theorem mem_bans (proper : Store.Proper store) : ban ∈ bans store ↔ store.lists.Holds ban := by
  unfold bans
  rw [List.mem_flatMap]
  constructor
  · rintro ⟨slot, -, here⟩
    exact ⟨slot, here⟩
  · rintro ⟨slot, here⟩
    exact ⟨slot, mem_slots (proper.filed slot ban here), here⟩

/-- Two texts without letters are equal when `mycmp` says so. -/
private theorem plain_of_mycmp {text marks : Text} (same : mycmp text marks = true)
    (fixed : marks.all (fun mark => !mark.isUpper && toUpper mark == mark) = true) : text = marks := by
  have alike : Mask.Alike marks text := (mycmp_iff.mp same).symm
  clear same
  induction marks generalizing text with
  | nil => exact List.map_eq_nil_iff.mp alike.symm
  | cons mark marks ih =>
    simp only [List.all_cons, Bool.and_eq_true, Bool.not_eq_true', beq_iff_eq] at fixed
    obtain ⟨⟨notUpper, same⟩, fixed⟩ := fixed
    obtain ⟨rest, rfl, alike'⟩ := alike.mark_left (by simp [notUpper]) same
    rw [ih fixed alike']

private theorem other_of_mycmp (counted : host.countP isOther ≠ 0) :
    (mycmp host "*.*".toList || mycmp host ['*']) = false := by
  rw [Bool.or_eq_false_iff]
  constructor
  · apply Bool.eq_false_iff.mpr
    intro same
    rw [plain_of_mycmp same (by decide)] at counted
    exact counted (by decide)
  · apply Bool.eq_false_iff.mpr
    intro same
    rw [plain_of_mycmp same (by decide)] at counted
    exact counted (by decide)

private theorem wildhost_made (made : classify user host = some form) (isHost : (form.ban user).flags.host = true) :
    (form.ban user).flags.wildhost =
      (mycmp ((form.ban user).h.getD []) "*.*".toList || mycmp ((form.ban user).h.getD []) ['*']) := by
  have forced (text : Text) (net : cidrForce text = some form) : False := by
    obtain ⟨cidr, ia, -, -, rfl⟩ := cidrForce_net net
    by_cases big : cidr < 16
    · simp [Form.ban, big] at isHost
    · simp [Form.ban, big] at isHost
  unfold classify at made
  simp only at made
  split at made
  next =>
    split at made
    · cases made
    · obtain rfl := Option.some.inj made
      rfl
  next =>
    split at made
    · cases made
    · split at made
      next =>
        split at made
        · cases made
        · obtain rfl | ⟨text, net⟩ := wildAddress_cases made
          · cases isHost
          · exact (forced text net).elim
      next =>
        split at made
        · exact (forced _ made).elim
        · split at made
          · cases made
          · split at made
            · obtain rfl := Option.some.inj made
              cases isHost
            next counted =>
              obtain rfl := Option.some.inj made
              exact (other_of_mycmp counted).symm

theorem worded_made (made : makeHostbasedBan user phost = some ban) : Worded ban := by
  obtain ⟨form, found, rfl⟩ := Option.map_eq_some_iff.mp made
  refine ⟨wildhost_made found, fun someone => ?_⟩
  have named : isEveryone user = false := by
    cases form with
    | text flags host => exact someone
    | net flags c4h c4m => exact someone
  cases user with
  | none => simp [isEveryone] at named
  | some user =>
    cases form with
    | text flags host => simp [Form.ban, named]
    | net flags c4h c4m => simp [Form.ban, named]

theorem Worded.mark (worded : Worded ban) (marks : Marks) : Worded (ban.mark marks) := ⟨worded.host, worded.user⟩

private theorem userDiffers_same (same : Ban.Same first second) (worded : Worded first) (worded' : Worded second)
    (client : Client) : first.userDiffers client = second.userDiffers client := by
  unfold Ban.userDiffers
  rw [← same.wilduser]
  cases wild : first.flags.wilduser with
  | true => rfl
  | false =>
    obtain ⟨user, given⟩ := Option.isSome_iff_exists.mp (worded.user wild)
    obtain ⟨user', given'⟩ := Option.isSome_iff_exists.mp (worded'.user (same.wilduser ▸ wild))
    have equal : mycmp user user' = true := by simpa [given, given'] using same.user.resolve_left (by simp [wild])
    simp [given, given', Mask.matchMask_congr equal]

/-- A ban of a list of texts has a text, and in the list of wild hosts it is one of a host. -/
private theorem shown (kind : Kind ban) (place : ban.slot = some slot) :
    (ban.h.isSome = true ∧ (slot = .hostWild → ban.flags.host = true)) ∨ slot = .cidr4big ∨
      ∃ a b, slot = .cidr4 a b := by
  unfold Ban.slot at place
  cases kind with
  | ip h is host cidr4 cidr4big text =>
    refine .inl ⟨by simp [text], ?_⟩
    rintro rfl
    cases wild : ban.flags.wild <;> simp [is, cidr4, cidr4big, wild] at place
  | host h is ip cidr4 cidr4big text => exact .inl ⟨by simp [text], fun _ => is⟩
  | cidr4 cidr is cidr4big => exact .inr (.inr ⟨_, _, by simpa [is, cidr4big] using place.symm⟩)
  | cidr4big is => exact .inr (.inl (by simpa [is] using place.symm))

/-- Bans with one mask match the same users. -/
theorem userMatchBan_same (same : Ban.Same first second) (kind : Kind first) (kind' : Kind second)
    (worded : Worded first) (worded' : Worded second) (client : Client) :
    userMatchBan client first = userMatchBan client second := by
  obtain ⟨slot, place⟩ := slot_of_kind kind
  have place' : second.slot = some slot := same.slot ▸ place
  have agrees : slot.agrees client first = slot.agrees client second := by
    rcases shown kind place with ⟨text, host⟩ | rfl | ⟨a, b, rfl⟩
    · rcases shown kind' place' with ⟨text', host'⟩ | rfl | ⟨a, b, rfl⟩
      · obtain ⟨h, given⟩ := Option.isSome_iff_exists.mp text
        obtain ⟨h', given'⟩ := Option.isSome_iff_exists.mp text'
        have equal : mycmp h h' = true := by simpa [given, given'] using same.host
        have compare := mycmp_congr_left equal
        have matched := Mask.matchMask_congr equal
        cases slot with
        | cidr4big => simp [Slot.agrees, Ban.coversIp, same.ip, same.mask]
        | cidr4 a b => simp [Slot.agrees, Ban.coversIp, same.ip, same.mask]
        | ipWild => simp [Slot.agrees, given, given', matched]
        | ipBucket hv => simp [Slot.agrees, given, given', compare]
        | hostWild =>
          simp [Slot.agrees, given, given', matched, compare, worded.host (host rfl), worded'.host (host' rfl)]
        | hostBucket hv => simp [Slot.agrees, given, given', compare]
      · simp [Slot.agrees, Ban.coversIp, same.ip, same.mask]
      · simp [Slot.agrees, Ban.coversIp, same.ip, same.mask]
    · simp [Slot.agrees, Ban.coversIp, same.ip, same.mask]
    · simp [Slot.agrees, Ban.coversIp, same.ip, same.mask]
  apply Bool.eq_iff_iff.mpr
  rw [← agrees_slot kind place client, ← agrees_slot kind' place' client, agrees,
    userDiffers_same same worded worded' client]

private theorem slot_of_host (kind : Kind ban) (place : ban.slot = some slot) :
    ban.flags.host = true ↔ slot = .hostWild ∨ ∃ hv, slot = .hostBucket hv := by
  unfold Ban.slot at place
  cases kind with
  | ip h is host cidr4 cidr4big text =>
    cases wild : ban.flags.wild <;> simp [is, cidr4, cidr4big, wild] at place <;> simp [← place, host]
  | host h is ip cidr4 cidr4big text =>
    cases wild : ban.flags.wild <;> simp [is, ip, cidr4, cidr4big, wild] at place <;> simp [← place, is]
  | cidr4 cidr is cidr4big ip host =>
    simp [is, cidr4big] at place
    simp [← place, host]
  | cidr4big is cidr4 ip host =>
    simp [is] at place
    simp [← place, host]

section Lookup

variable {store : Store} (proper : store.Proper)

private theorem searched_passes (looked : (slot, test) ∈ searched now client yflags nflags)
    (passes : test ban = true) :
    ban.expired now = false ∧ ban.userDiffers client = false ∧ slot.agrees client ban = true := by
  have loop : (ban.passedOver now client yflags nflags = false ∧ slot.agrees client ban = true) := by
    simp only [searched, List.mem_append] at looked
    rcases looked with (looked | looked) | looked
    all_goals
      split at looked
      · simp only [List.mem_cons, Prod.mk.injEq, List.not_mem_nil, or_false] at looked
        rcases looked with ⟨rfl, rfl⟩ | ⟨rfl, rfl⟩ <;> simpa [Slot.agrees] using passes
      · cases looked
  simp only [Ban.passedOver, Bool.or_eq_false_iff] at loop
  exact ⟨loop.1.1.1, loop.1.2, loop.2⟩

include proper

theorem check_some (found : store.checkUserbanned now client yflags nflags = some ban) :
    store.lists.Holds ban ∧ ban.expired now = false ∧ userMatchBan client ban = true := by
  obtain ⟨slot, test, looked, here, passes⟩ := Shelf.search_some found
  obtain ⟨live, user, agrees⟩ := searched_passes looked passes
  have held : store.lists.Holds ban := ⟨slot, here⟩
  exact ⟨held, live, (agrees_slot (proper.kinds ban held) (proper.filed slot ban here) client).mp ⟨user, agrees⟩⟩

/-- A ban that matches is looked up, unless it is one of `*@address`. -/
theorem check_none (ip : store.checkUserbanned now client { ip := true, cidr4 := true } { wilduser := true } = none)
    (host : store.checkUserbanned now client { host := true } {} = none) (held : store.lists.Holds ban)
    (live : ban.expired now = false) (matched : userMatchBan client ban = true) :
    ban.flags.wilduser = true ∧ ban.flags.host = false := by
  obtain ⟨slot, here⟩ := held
  have kind := proper.kinds ban ⟨slot, here⟩
  have place := proper.filed slot ban here
  obtain ⟨user, agrees⟩ := (agrees_slot kind place client).mpr matched
  have missed (yflags nflags : Flags)
      (looked : ∃ test, (slot, test) ∈ searched now client yflags nflags ∧ test ban = true) :
      store.checkUserbanned now client yflags nflags ≠ none := by
    obtain ⟨test, looked, passes⟩ := looked
    exact Option.isSome_iff_ne_none.mp (Shelf.search_isSome looked here passes)
  have hostless : ban.flags.host = false := by
    apply Bool.eq_false_iff.mpr
    intro isHost
    rcases (slot_of_host kind place).mp isHost with rfl | ⟨hv, rfl⟩
    · exact missed _ _ (by simpa [searched, Slot.agrees, Ban.passedOver, live, user] using agrees) host
    · exact missed _ _ (by simpa [searched, Slot.agrees, Ban.passedOver, live, user] using agrees) host
  refine ⟨?_, hostless⟩
  apply Bool.of_not_eq_false
  intro someone
  have addressed : ∃ test, (slot, test) ∈ searched now client { ip := true, cidr4 := true } { wilduser := true } ∧
      test ban = true := by
    cases slot with
    | hostWild => simp [(slot_of_host kind place).mpr (.inl rfl)] at hostless
    | hostBucket hv => simp [(slot_of_host kind place).mpr (.inr ⟨hv, rfl⟩)] at hostless
    | cidr4big => simpa [searched, Slot.agrees, Ban.passedOver, live, user, someone] using agrees
    | cidr4 a b => simpa [searched, Slot.agrees, Ban.passedOver, live, user, someone, and_assoc] using agrees
    | ipWild => simpa [searched, Slot.agrees, Ban.passedOver, live, user, someone] using agrees
    | ipBucket hv => simpa [searched, Slot.agrees, Ban.passedOver, live, user, someone] using agrees
  exact missed _ _ addressed ip

end Lookup

theorem unexpired_mono {ban : Ban} (live : ban.expired later = false) (on : now ≤ later) :
    ban.expired now = false := by
  apply Bool.eq_false_iff.mpr
  intro ranOut
  simp [Ban.expired_mono ranOut on] at live

variable {state : State}

theorem conns_setShun : (state.setShun flag test).conns cptr = some (.person client shunned) ↔
    ∃ before, state.conns cptr = some (.person client before) ∧ shunned = if test client then flag else before := by
  unfold State.setShun
  dsimp only
  split
  next client' before found =>
    simp only [found, Option.some.injEq, Conn.person.injEq]
    constructor
    · rintro ⟨rfl, rfl⟩
      exact ⟨before, ⟨rfl, rfl⟩, rfl⟩
    · rintro ⟨_, ⟨rfl, rfl⟩, rfl⟩
      exact ⟨rfl, rfl⟩
  next other =>
    constructor
    · intro found
      exact absurd found (other client shunned)
    · rintro ⟨before, found, -⟩
      exact absurd found (other client before)

/-- A change of the flags and of the bans, user by user. -/
theorem exact_setShun (exact : state.Exact) (store : Store) (now : Int)
    (each : ∀ client, state.Person client →
      ((∃ ban, (store.lists.Holds ban ∧ ban.flags.shun = true ∧ ban.expired now = false) ∧
          userMatchBan client ban = true) ↔
        if test client = true then flag = true
        else ∃ ban, state.Active state.now ban ∧ userMatchBan client ban = true)) :
    State.Exact { state.setShun flag test with store := store, now := now } := by
  intro id client shunned here
  obtain ⟨before, found, rfl⟩ := conns_setShun.mp here
  refine Iff.trans ?_ (each client ⟨id, before, found⟩).symm
  split
  · rfl
  · exact exact id client before found

/-- What `m_shun` adds: a ban of a kind, live when its seconds are. -/
private theorem newShun_made (added : state.newShun sender seconds target reason = some ban) :
    Kind ban ∧ Worded ban ∧ ban.flags.shun = true ∧ (ban.expired state.now = false ↔ 0 < ban.duration) := by
  unfold State.newShun at added
  split at added
  · cases added
  next plain made =>
    split at added
    · cases added
    · dsimp only at added
      split at added
      · cases added
      · obtain rfl := Option.some.inj added
        have built : ∃ user host, makeHostbasedBan (some user) host = some plain := by
          unfold shunBan at made
          dsimp only at made
          split at made
          · cases made
          · split at made
            · cases made
            · exact ⟨_, _, made⟩
        obtain ⟨user, host, built⟩ := built
        refine ⟨(makeHostbasedBan_kind built).mark _, (worded_made built).mark _, rfl, ?_⟩
        have unexpired : ¬ (state.now + Decimal.atoi seconds ≤ state.now) ↔ 0 < Decimal.atoi seconds := by omega
        change (true && decide (state.now + Decimal.atoi seconds ≤ state.now)) = false ↔ 0 < Decimal.atoi seconds
        rw [Bool.true_and, decide_eq_false_iff_not]
        exact unexpired

private theorem unshunBan_made (made : unshunBan target = some ban) : Kind ban ∧ Worded ban := by
  unfold unshunBan at made
  split at made
  · cases made
  · obtain ⟨plain, built, rfl⟩ := Option.map_eq_some_iff.mp made
    exact ⟨(makeHostbasedBan_kind built).mark _, (worded_made built).mark _⟩

private theorem registerBan_some (proper : state.store.Proper) (found : state.registerBan client = some ban) :
    state.store.lists.Holds ban ∧ ban.expired state.now = false ∧ userMatchBan client ban = true := by
  unfold State.registerBan at found
  split at found
  next first =>
    obtain rfl := Option.some.inj found
    exact check_some proper first
  next => exact check_some proper found

private theorem registerBan_none (missing : state.registerBan client = none) :
    state.store.checkUserbanned state.now client { ip := true, cidr4 := true } { wilduser := true } = none ∧
      state.store.checkUserbanned state.now client { host := true } {} = none := by
  unfold State.registerBan at missing
  split at missing
  · cases missing
  next first => exact ⟨first, missing⟩

section Steps

variable (kept : state.Kept)

include kept

theorem State.Kept.tick (on : state.now ≤ clock) (fits : state.Fits (.tick clock)) :
    State.Kept { state with now := clock } := by
  refine ⟨kept.proper, kept.worded, ?_⟩
  intro id client shunned here
  rw [kept.exact id client shunned here]
  constructor
  · rintro ⟨ban, active, matched⟩
    exact fits client ⟨id, shunned, here⟩ ban active matched
  · rintro ⟨ban, ⟨held, shun, live⟩, matched⟩
    exact ⟨ban, ⟨held, shun, unexpired_mono live on⟩, matched⟩

theorem State.Kept.expire (on : state.now ≤ clock) (fits : state.Fits (.expire clock)) :
    (state.expire clock).Kept := by
  refine ⟨kept.proper.discard _, fun ban held => kept.worded ban (Shelf.holds_discard.mp held).1, ?_⟩
  refine exact_setShun kept.exact _ _ fun client person => ?_
  have ranOut :
      ((bans state.store).filter fun ban => ban.expired clock && ban.flags.shun).any (userMatchBan client) = true ↔
      ∃ ban, state.store.lists.Holds ban ∧ ban.flags.shun = true ∧ ban.expired clock = true ∧
        userMatchBan client ban = true := by
    simp only [List.any_eq_true, List.mem_filter, mem_bans kept.proper, Bool.and_eq_true]
    constructor
    · rintro ⟨ban, ⟨held, expired, shun⟩, matched⟩
      exact ⟨ban, held, shun, expired, matched⟩
    · rintro ⟨ban, held, shun, expired, matched⟩
      exact ⟨ban, ⟨held, expired, shun⟩, matched⟩
  have stays (ban : Ban) : (state.store.expireUserbans clock).lists.Holds ban ↔
      state.store.lists.Holds ban ∧ ban.expired clock = false := Shelf.holds_discard
  split
  next gone =>
    obtain ⟨ban, held, shun, expired, matched⟩ := ranOut.mp gone
    constructor
    · rintro ⟨other, ⟨held', shun', live⟩, matched'⟩
      have active : state.Active clock other := ⟨((stays other).mp held').1, shun', live⟩
      have unmatched := fits client person ban held shun expired matched other active
      simp [unmatched] at matched'
    · intro false
      cases false
  next none =>
    constructor
    · rintro ⟨ban, ⟨held, shun, live⟩, matched⟩
      exact ⟨ban, ⟨((stays ban).mp held).1, shun, unexpired_mono live on⟩, matched⟩
    · rintro ⟨ban, ⟨held, shun, -⟩, matched⟩
      have live : ban.expired clock = false := by
        apply Bool.eq_false_iff.mpr
        intro expired
        exact none (ranOut.mpr ⟨ban, held, shun, expired, matched⟩)
      exact ⟨ban, ⟨(stays ban).mpr ⟨held, live⟩, shun, live⟩, matched⟩

/-- What keeps the shuns that match and what leaves the clock and the users alone. -/
theorem State.Kept.restock {store : Store} (proper : store.Proper)
    (worded : ∀ ban, store.lists.Holds ban → Worded ban)
    (shuns : ∀ ban, ban.flags.shun = true → (store.lists.Holds ban ↔ state.store.lists.Holds ban)) :
    State.Kept { state with store := store } := by
  refine ⟨proper, worded, ?_⟩
  intro id client shunned here
  rw [kept.exact id client shunned here]
  constructor
  · rintro ⟨ban, ⟨held, shun, live⟩, matched⟩
    exact ⟨ban, ⟨(shuns ban shun).mpr held, shun, live⟩, matched⟩
  · rintro ⟨ban, ⟨held, shun, live⟩, matched⟩
    exact ⟨ban, ⟨(shuns ban shun).mp held, shun, live⟩, matched⟩

theorem State.Kept.ban (other : marks.shun = false) : (state.perform (.ban user host marks)).Kept := by
  unfold State.perform Store.perform
  dsimp only
  cases made : makeHostbasedBan user host with
  | none => exact kept
  | some ban =>
    have kind := (makeHostbasedBan_kind made).mark marks
    obtain ⟨slot, place⟩ := slot_of_kind kind
    simp only [Store.addHostbasedUserban, place, Option.map_some]
    refine kept.restock (kept.proper.add kind place) ?_ ?_
    · intro ban held
      obtain rfl | old := Shelf.holds_put.mp held
      · exact ⟨(worded_made made).host, (worded_made made).user⟩
      · exact kept.worded ban old
    · intro ban shun
      rw [Shelf.holds_put]
      refine or_iff_right ?_
      rintro rfl
      simp [Ban.mark, other] at shun

theorem State.Kept.unban
    (other : ∀ ban, state.store.lists.Holds ban → ban.internalEnt = internalEnt → ban.flags.shun = false) :
    State.Kept { state with store := state.store.removeUserban internalEnt } := by
  have holds (ban : Ban) : (state.store.removeUserban internalEnt).lists.Holds ban ↔
      state.store.lists.Holds ban ∧ (ban.internalEnt == internalEnt) = false := Shelf.holds_discard
  refine kept.restock (kept.proper.discard _) (fun ban held => kept.worded ban ((holds ban).mp held).1) ?_
  intro ban shun
  rw [holds]
  refine and_iff_left_of_imp fun held => ?_
  rw [beq_eq_false_iff_ne]
  intro same
  simp [other ban held same] at shun

theorem State.Kept.shun (fits : state.Fits (.shun sender seconds target reason)) :
    (state.mShun sender seconds target reason).Kept := by
  unfold State.mShun
  split
  · exact kept
  next ban added =>
    obtain ⟨kind, worded, shun, live⟩ := newShun_made added
    obtain ⟨slot, place⟩ := slot_of_kind kind
    simp only [Store.addHostbasedUserban, place, Option.map_some]
    refine ⟨kept.proper.add kind place, ?_, ?_⟩
    · intro other held
      obtain rfl | old := Shelf.holds_put.mp held
      · exact ⟨worded.host, worded.user⟩
      · exact kept.worded other old
    refine exact_setShun kept.exact _ _ fun client person => ?_
    split
    next matched =>
      refine iff_of_true ?_ rfl
      have lasts := (fits ban added).resolve_right fun nobody => by simp [nobody client person] at matched
      refine ⟨{ ban with internalEnt := state.store.next }, ⟨?_, shun, live.mpr lasts⟩, matched⟩
      exact Shelf.holds_put.mpr (.inl rfl)
    next unmatched =>
      constructor
      · rintro ⟨other, ⟨held, isShun, unexpired⟩, matched⟩
        obtain rfl | old := Shelf.holds_put.mp held
        · exact absurd matched unmatched
        · exact ⟨other, ⟨old, isShun, unexpired⟩, matched⟩
      · rintro ⟨other, ⟨held, isShun, unexpired⟩, matched⟩
        exact ⟨other, ⟨Shelf.holds_put.mpr (.inr held), isShun, unexpired⟩, matched⟩

theorem State.Kept.unshun (fits : state.Fits (.unshun target)) : (state.mUnshun target).Kept := by
  unfold State.mUnshun
  split
  · exact kept
  next ban made =>
    split
    · exact kept
    next oban found =>
      obtain ⟨kind, worded⟩ := unshunBan_made made
      obtain ⟨held, same, -⟩ := kept.proper.find_some kind found
      have alike := userMatchBan_same same kind (kept.proper.kinds oban held) worded (kept.worded oban held)
      have stays (other : Ban) : (state.store.removeUserban oban.internalEnt).lists.Holds other ↔
          state.store.lists.Holds other ∧ other ≠ oban := kept.proper.holds_remove held
      refine ⟨kept.proper.discard _, fun other held => kept.worded other ((stays other).mp held).1, ?_⟩
      refine exact_setShun kept.exact _ _ fun client person => ?_
      split
      next matched =>
        constructor
        · rintro ⟨other, ⟨held', isShun, live⟩, matched'⟩
          obtain ⟨old, differs⟩ := (stays other).mp held'
          have unmatched := fits ban oban made found client person matched other ⟨old, isShun, live⟩ differs
          simp [unmatched] at matched'
        · intro cleared
          cases cleared
      next unmatched =>
        constructor
        · rintro ⟨other, ⟨held', isShun, live⟩, matched⟩
          exact ⟨other, ⟨((stays other).mp held').1, isShun, live⟩, matched⟩
        · rintro ⟨other, ⟨held', isShun, live⟩, matched⟩
          refine ⟨other, ⟨(stays other).mpr ⟨held', ?_⟩, isShun, live⟩, matched⟩
          rintro rfl
          rw [alike] at unmatched
          exact unmatched matched

/-- A connection that changes takes what it says with it. -/
theorem State.Kept.connect (change : ∀ client shunned, conn = some (.person client shunned) →
      (shunned = true ↔ ∃ ban, state.Active state.now ban ∧ userMatchBan client ban = true)) :
    State.Kept { state with conns := update state.conns cptr conn } := by
  refine ⟨kept.proper, kept.worded, ?_⟩
  intro other client shunned here
  by_cases same : other = cptr
  · subst same
    exact change client shunned (by simpa using here)
  · exact kept.exact other client shunned (by simpa [same] using here)

theorem State.Kept.accept (cptr : ClientId) (ip : Address) : (state.accept cptr ip).Kept := by
  unfold State.accept
  split
  · exact kept
  · refine kept.connect ?_
    intro client shunned person
    cases person

theorem State.Kept.register (fits : state.Fits (.register cptr username realhost)) :
    (state.register cptr username realhost).Kept := by
  unfold State.register
  split
  next ip waits =>
    dsimp only
    split
    next none =>
      refine kept.connect ?_
      intro client shunned person
      obtain ⟨rfl, rfl⟩ := Conn.person.inj (Option.some.inj person)
      refine iff_of_false Bool.false_ne_true ?_
      rintro ⟨ban, active, matched⟩
      obtain ⟨other, ⟨held, -, live⟩, matched', seen⟩ := fits ip waits ban active matched
      obtain ⟨ipless, hostless⟩ := registerBan_none none
      obtain ⟨wild, noHost⟩ := check_none kept.proper ipless hostless held live matched'
      rcases seen with seen | seen
      · simp [wild] at seen
      · simp [noHost] at seen
    next ban found =>
      obtain ⟨held, live, matched⟩ := registerBan_some kept.proper found
      split
      next shun =>
        refine kept.connect ?_
        intro client shunned person
        obtain ⟨rfl, rfl⟩ := Conn.person.inj (Option.some.inj person)
        exact iff_of_true rfl ⟨ban, ⟨held, shun, live⟩, matched⟩
      next =>
        refine kept.connect ?_
        intro client shunned person
        cases person
  next => exact kept

theorem State.Kept.perform (possible : state.Possible action) (fits : state.Fits action) :
    (state.perform action).Kept := by
  cases action with
  | tick now => exact kept.tick possible fits
  | expire now => exact kept.expire possible fits
  | shun sender seconds target reason => exact kept.shun fits
  | unshun target => exact kept.unshun fits
  | ban user host marks => exact kept.ban possible
  | unban internalEnt => exact kept.unban possible
  | accept cptr ip => exact kept.accept cptr ip
  | register cptr username realhost => exact kept.register fits
  | exit cptr =>
    refine kept.connect ?_
    intro client shunned person
    cases person

end Steps

theorem State.Kept.start : State.start.Kept := by
  refine ⟨Store.Proper.empty, fun _ held => absurd held Shelf.holds_empty, ?_⟩
  intro id client shunned here
  cases here

/-- In every run whose steps fit, the flag of each user says whether a shun that is stored
and not over matches the user. -/
theorem shuns_exact (run : machine.Run State.Fits .start final) : final.Exact :=
  (run.invariant State.Kept (fun _ _ possible fits kept => kept.perform possible fits) State.Kept.start).exact

private theorem shunsAll_foo (user : Text) : shunsAll user "foo.bar".toList = false := by
  have apart : matchMask ('f' :: "oo.bar".toList) "afls...afplsf".toList = false :=
    Mask.matchMask_of_head (by decide) (by decide) (by decide) _ _
  rw [shunsAll, show "foo.bar".toList = 'f' :: "oo.bar".toList by decide, apart, Bool.and_false]

def ann : Client := ⟨"ann".toList, "foo.bar".toList, 0x0A000001#32⟩

/-- The ban on a user at `foo.bar`, as `make_hostbased_ban` makes it. -/
def fooBan (user : Text) : Ban := Form.ban (some user) (.text { host := true } "foo.bar".toList)

/-- The shun of a hundred seconds. -/
def fooShun (user : Text) : Ban := (fooBan user).mark { shun := true, reason := some [], lasts := some (0, 100) }

/-- The ban that UNSHUN looks for. -/
def soughtBan : Ban := (fooBan "ann".toList).mark { shun := true, lasts := some (0, 0) }

def fooSlot : Slot := .hostBucket (hostHash "foo.bar".toList % hashSize)

/-- `ann` is accepted and registers. -/
def registered : State :=
  machine.perform (machine.perform .start (.accept 1 ann.ip)) (.register 1 ann.username ann.realhost)

/-- `SHUN 100 *@foo.bar`, and then `SHUN 100 ann@foo.bar`. -/
def hostShunned : State := machine.perform registered (.shun none "100".toList "*@foo.bar".toList [])

def bothShunned : State := machine.perform hostShunned (.shun none "100".toList "ann@foo.bar".toList [])

def annUnshunned : State := machine.perform bothShunned (.unshun "ann@foo.bar".toList)

private theorem shunBan_foo (target user : Text) (parts : userHost target = (user, "foo.bar".toList))
    (made : makeHostbasedBan (some (user.take userLen)) "foo.bar".toList = some ban) :
    shunBan "100".toList target = some ban := by
  have host : "foo.bar".toList.take hostLen = "foo.bar".toList := by decide
  have number : ¬ (isallnum "100".toList = false) := by decide
  simp only [shunBan, parts, host, shunsAll_foo, number, if_false, Bool.false_eq_true]
  exact made

private theorem newShun_host :
    registered.newShun none "100".toList "*@foo.bar".toList [] = some (fooShun ['*']) := by
  unfold State.newShun
  rw [shunBan_foo "*@foo.bar".toList ['*'] (by decide) (show _ = some (fooBan ['*']) by decide)]
  rfl

private theorem hostShunned_eq : hostShunned = { registered.setShun true (userMatchBan · (fooShun ['*'])) with
    store := ⟨Shelf.empty.put fooSlot (fooShun ['*']), 1⟩ } := by
  change State.mShun _ _ _ _ _ = _
  unfold State.mShun
  rw [newShun_host]
  rfl

private theorem newShun_ann : hostShunned.newShun none "100".toList "ann@foo.bar".toList [] =
    some (fooShun "ann".toList) := by
  unfold State.newShun
  rw [shunBan_foo "ann@foo.bar".toList "ann".toList (by decide) (show _ = some (fooBan "ann".toList) by decide),
    hostShunned_eq]
  decide

private theorem bothShunned_eq : bothShunned =
    { hostShunned.setShun true (userMatchBan · (fooShun "ann".toList)) with
      store :=
        ⟨(Shelf.empty.put fooSlot (fooShun ['*'])).put fooSlot { fooShun "ann".toList with internalEnt := 1 }, 2⟩ } := by
  change State.mShun _ _ _ _ _ = _
  unfold State.mShun
  rw [newShun_ann, hostShunned_eq]
  rfl

private theorem annUnshunned_eq : annUnshunned = { bothShunned.setShun false (userMatchBan · soughtBan) with
    store := bothShunned.store.removeUserban 1 } := by
  have made : unshunBan "ann@foo.bar".toList = some soughtBan := by
    rw [unshunBan, show userHost "ann@foo.bar".toList = ("ann".toList, "foo.bar".toList) by decide, shunsAll_foo]
    decide
  have found : bothShunned.store.findUserbanExact soughtBan { shun := true, temporary := true } =
      some { fooShun "ann".toList with internalEnt := 1 } := by
    rw [bothShunned_eq]
    decide
  change State.mUnshun _ _ = _
  simp only [State.mUnshun, made, found]

private theorem run_host : machine.Run State.Fits .start hostShunned := by
  let lines : List Action := [.accept 1 ann.ip, .register 1 ann.username ann.realhost,
    .shun none "100".toList "*@foo.bar".toList []]
  refine .of_list lines (.refl _) ⟨trivial, trivial, trivial, ?_, trivial, ?_, trivial⟩
  · intro ip _ ban active
    exact absurd active.1 Shelf.holds_empty
  · intro ban added
    obtain rfl := Option.some.inj (newShun_host.symm.trans added)
    exact .inl (by decide)

/-- `ann` is under the shun on the host. -/
theorem hostShunned_exact : hostShunned.Exact ∧ hostShunned.conns 1 = some (.person ann true) := by
  refine ⟨shuns_exact run_host, ?_⟩
  rw [hostShunned_eq]
  decide

/-- `UNSHUN ann@foo.bar` takes the flag from `ann`, whom `*@foo.bar` still matches. -/
theorem annUnshunned_inexact : machine.Run Machine.Any .start annUnshunned ∧ ¬ annUnshunned.Exact := by
  constructor
  · let lines : List Action := [.accept 1 ann.ip, .register 1 ann.username ann.realhost,
      .shun none "100".toList "*@foo.bar".toList [], .shun none "100".toList "ann@foo.bar".toList [],
      .unshun "ann@foo.bar".toList]
    exact .of_list lines (.refl _)
      ⟨trivial, trivial, trivial, trivial, trivial, trivial, trivial, trivial, trivial, trivial, trivial⟩
  · intro exact
    have matched : userMatchBan ann soughtBan = true := by
      have user : matchMask "ann".toList "ann".toList = true := Mask.matchMask_of_mycmp (mycmp_refl _) (by decide)
      have same : soughtBan.userDiffers ann = false := by
        change (!false && !matchMask "ann".toList "ann".toList) = false
        rw [user]
        rfl
      rw [userMatchBan, same]
      decide
    have flagged : bothShunned.conns 1 = some (.person ann true) := by
      rw [bothShunned_eq]
      refine conns_setShun.mpr ⟨true, ?_, by simp⟩
      rw [hostShunned_eq]
      decide
    have cleared : annUnshunned.conns 1 = some (.person ann false) := by
      rw [annUnshunned_eq]
      exact conns_setShun.mpr ⟨true, flagged, by rw [if_pos matched]⟩
    have held : annUnshunned.Active 0 (fooShun ['*']) := by
      rw [annUnshunned_eq, bothShunned_eq]
      exact ⟨⟨fooSlot, by decide⟩, rfl, by decide⟩
    have now : annUnshunned.now = 0 := by
      rw [annUnshunned_eq, bothShunned_eq, hostShunned_eq]
      rfl
    rw [← now] at held
    exact absurd ((exact 1 ann false cleared).mpr ⟨_, held, by decide⟩) Bool.false_ne_true

end SolidIrcd.UserBan.Shun
