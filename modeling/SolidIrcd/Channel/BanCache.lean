import SolidIrcd.Lib.Machine
import SolidIrcd.Channel.Basic
import SolidIrcd.Channel.MaskMatch
import Mathlib.Logic.Function.Basic

/-! The answer of `is_banned` that each member of a channel keeps, and the serial number
that tells whether it is still good. -/

namespace SolidIrcd.Channel.BanCache

open Scan (Text)
open Function (update)

/-- An `aClient` pointer. -/
abbrev ClientId := Nat

/-- An `aChannel` pointer. -/
abbrev ChanId := Nat

/-- What `is_banned` looks at of a client. -/
structure Identity where
  person : Bool
  name : Text
  username : Text
  host : Text
  hostip : Text
  realhost : Text
  maskhost : Text
  deriving DecidableEq, Repr

/-- `chanMember`: `banned` is `CHFL_BANNED`. -/
structure Member where
  cptr : ClientId
  banned : Bool
  banserial : Nat
  deriving DecidableEq, Repr

structure Chan where
  banlist : List Text
  banexemptList : List Text
  banserial : Nat
  members : List Member
  deriving DecidableEq, Repr

structure State where
  clients : ClientId → Identity
  channels : ChanId → Chan

/-- The four texts `is_banned` matches. -/
def Identity.texts (cptr : Identity) : List Text :=
  [cptr.host, cptr.hostip, cptr.realhost, cptr.maskhost].map fun host =>
    Mask.makeNickUserHost (some cptr.name) (some cptr.username) (some host)

/-- `is_banned` without a member, which only computes. -/
def isBanned (cptr : Identity) (chptr : Chan) : Bool :=
  cptr.person && !chptr.banexemptList.any (fun exempt => cptr.texts.any (Mask.matchMask exempt)) &&
    chptr.banlist.any fun ban => cptr.texts.any (Mask.matchMask ban)

/-- `is_banned` for a member: what the record of the member is afterwards. -/
def refresh (cptr : Identity) (chptr : Chan) (cm : Member) : Member :=
  if cptr.person = false then cm
  else if cm.banserial = chptr.banserial then cm
  else { cm with banserial := chptr.banserial, banned := isBanned cptr chptr }

/-- `banserial` is an `unsigned int`. -/
def nextSerial (banserial : Nat) : Nat := (banserial + 1) % 4294967296

/-- `add_banid` and `add_exempt_id`. -/
def Chan.add (chptr : Chan) (list : MaskList) (myClient : Bool) (mask : Text) : Chan :=
  match list with
  | .ban =>
    match addId .ban myClient chptr.banlist mask with
    | .error _ => chptr
    | .ok banlist => { chptr with banlist, banserial := nextSerial chptr.banserial }
  | .exempt =>
    match addId .exempt myClient chptr.banexemptList mask with
    | .error _ => chptr
    | .ok banexemptList => { chptr with banexemptList, banserial := nextSerial chptr.banserial }
  | .invite => chptr

/-- `del_banid` and `del_exempt_id`: the serial moves when the mask was there. -/
def Chan.del (chptr : Chan) (list : MaskList) (mask : Text) : Chan :=
  match list with
  | .ban =>
    if chptr.banlist.any (mycmp mask) then
      { chptr with banlist := delId chptr.banlist mask, banserial := nextSerial chptr.banserial }
    else chptr
  | .exempt =>
    if chptr.banexemptList.any (mycmp mask) then
      { chptr with banexemptList := delId chptr.banexemptList mask, banserial := nextSerial chptr.banserial }
    else chptr
  | .invite => chptr

/-- `kill_ban_list`. -/
def Chan.killBanList (chptr : Chan) : Chan :=
  { chptr with banlist := [], banexemptList := [], banserial := nextSerial chptr.banserial }

/-- `add_user_to_channel`. -/
def Chan.addUser (chptr : Chan) (who : ClientId) : Chan :=
  { chptr with members := ⟨who, false, chptr.banserial⟩ :: chptr.members }

/-- `remove_user_from_channel`. -/
def Chan.removeUser (chptr : Chan) (sptr : ClientId) : Chan :=
  { chptr with members := chptr.members.eraseP fun cm => cm.cptr = sptr }

/-- The call of `is_banned` in `can_send`, for the record `find_user_member` finds. -/
def consultMember (cptr : ClientId) (identity : Identity) (chptr : Chan) : List Member → List Member
  | [] => []
  | cm :: rest =>
    if cm.cptr = cptr then refresh identity chptr cm :: rest else cm :: consultMember cptr identity chptr rest

def Chan.consult (chptr : Chan) (cptr : ClientId) (identity : Identity) : Chan :=
  { chptr with members := consultMember cptr identity chptr chptr.members }

/-- What `make_channel` leaves. -/
def Chan.create : Chan := ⟨[], [], 0, []⟩

inductive Action where
  | introduce (cptr : ClientId) (identity : Identity)
  | create (ch : ChanId)
  | join (ch : ChanId) (who : ClientId)
  | part (ch : ChanId) (sptr : ClientId)
  | add (ch : ChanId) (list : MaskList) (myClient : Bool) (mask : Text)
  | del (ch : ChanId) (list : MaskList) (mask : Text)
  | killBanList (ch : ChanId)
  | canSend (ch : ChanId) (cptr : ClientId)
  | nick (sptr : ClientId) (nick : Text)
  | host (sptr : ClientId) (host maskhost : Text)

/-- Who a client is after an action. -/
def State.identity (state : State) (cptr : ClientId) : Action → Identity
  | .introduce new identity => if cptr = new then identity else state.clients cptr
  | .nick sptr nick => if cptr = sptr then { state.clients sptr with name := nick } else state.clients cptr
  | .host sptr host maskhost =>
    if cptr = sptr then { state.clients sptr with host, maskhost } else state.clients cptr
  | _ => state.clients cptr

/-- What an action does to the channels. -/
def State.channelsAfter (state : State) : Action → ChanId → Chan
  | .create ch => update state.channels ch Chan.create
  | .join ch who => update state.channels ch ((state.channels ch).addUser who)
  | .part ch sptr => update state.channels ch ((state.channels ch).removeUser sptr)
  | .add ch list myClient mask => update state.channels ch ((state.channels ch).add list myClient mask)
  | .del ch list mask => update state.channels ch ((state.channels ch).del list mask)
  | .killBanList ch => update state.channels ch (state.channels ch).killBanList
  | .canSend ch cptr => update state.channels ch ((state.channels ch).consult cptr (state.clients cptr))
  | _ => state.channels

def State.perform (state : State) (action : Action) : State :=
  ⟨fun cptr => state.identity cptr action, state.channelsAfter action⟩

def State.start : State := ⟨fun _ => ⟨false, [], [], [], [], [], []⟩, fun _ => Chan.create⟩

/-- A client is introduced before it is anywhere, and a channel is made when it has
nobody. -/
def State.Possible (state : State) : Action → Prop
  | .introduce cptr _ => ∀ ch, ∀ cm ∈ (state.channels ch).members, cm.cptr ≠ cptr
  | .create ch => (state.channels ch).members = []
  | _ => True

def machine : Machine State Action := ⟨State.perform, State.Possible⟩

/-- Nobody banned comes in, nobody changes name or host into or out of a ban that is
remembered, and the serial does not come round to one that is remembered. -/
def State.Quiet (state : State) : Action → Prop
  | .join ch who => isBanned (state.clients who) (state.channels ch) = false
  | .add ch _ _ _ | .del ch _ _ | .killBanList ch =>
    ∀ cm ∈ (state.channels ch).members, cm.banserial ≠ nextSerial (state.channels ch).banserial
  | .nick sptr nick => ∀ ch, ∀ cm ∈ (state.channels ch).members, cm.cptr = sptr →
      cm.banserial = (state.channels ch).banserial →
      isBanned { state.clients sptr with name := nick } (state.channels ch) =
        isBanned (state.clients sptr) (state.channels ch)
  | .host sptr host maskhost => ∀ ch, ∀ cm ∈ (state.channels ch).members, cm.cptr = sptr →
      cm.banserial = (state.channels ch).banserial →
      isBanned { state.clients sptr with host, maskhost } (state.channels ch) =
        isBanned (state.clients sptr) (state.channels ch)
  | _ => True

/-- A member's answer, where its serial says that it is good. -/
def Chan.Coherent (chptr : Chan) (clients : ClientId → Identity) : Prop :=
  ∀ cm ∈ chptr.members, cm.banserial = chptr.banserial → cm.banned = isBanned (clients cm.cptr) chptr

def State.Coherent (state : State) : Prop := ∀ ch, (state.channels ch).Coherent state.clients

section

variable {state : State} {chptr : Chan} {clients : ClientId → Identity}

/-- A new serial puts every answer out of date. -/
theorem Chan.bumped (chptr : Chan) (new : ∀ cm ∈ chptr.members, cm.banserial ≠ nextSerial chptr.banserial)
    (banlist banexemptList : List Text) :
    Chan.Coherent ⟨banlist, banexemptList, nextSerial chptr.banserial, chptr.members⟩ clients :=
  fun cm member current => absurd current (new cm member)

theorem Chan.Coherent.add (coherent : chptr.Coherent clients) (list : MaskList) (myClient : Bool) (mask : Text)
    (new : ∀ cm ∈ chptr.members, cm.banserial ≠ nextSerial chptr.banserial) :
    (chptr.add list myClient mask).Coherent clients := by
  unfold Chan.add
  split
  · split
    · exact coherent
    · exact chptr.bumped new _ _
  · split
    · exact coherent
    · exact chptr.bumped new _ _
  · exact coherent

theorem Chan.Coherent.del (coherent : chptr.Coherent clients) (list : MaskList) (mask : Text)
    (new : ∀ cm ∈ chptr.members, cm.banserial ≠ nextSerial chptr.banserial) : (chptr.del list mask).Coherent clients := by
  unfold Chan.del
  split
  · split
    · exact chptr.bumped new _ _
    · exact coherent
  · split
    · exact chptr.bumped new _ _
    · exact coherent
  · exact coherent

theorem Chan.Coherent.addUser (coherent : chptr.Coherent clients)
    (free : isBanned (clients who) chptr = false) : (chptr.addUser who).Coherent clients := by
  intro cm member current
  rcases List.mem_cons.mp member with rfl | member
  · exact free.symm
  · exact coherent cm member current

theorem Chan.Coherent.removeUser (coherent : chptr.Coherent clients) (sptr : ClientId) :
    (chptr.removeUser sptr).Coherent clients :=
  fun cm member => coherent cm (List.mem_of_mem_eraseP member)

theorem mem_consultMember {members : List Member} {cptr : ClientId} {identity : Identity}
    (member : cm ∈ consultMember cptr identity chptr members) :
    cm ∈ members ∨ ∃ old ∈ members, old.cptr = cptr ∧ cm = refresh identity chptr old := by
  induction members with
  | nil => exact absurd member List.not_mem_nil
  | cons first rest ih =>
    rw [consultMember] at member
    split at member
    next found =>
      rcases List.mem_cons.mp member with rfl | member
      · exact .inr ⟨first, List.mem_cons_self .., found, rfl⟩
      · exact .inl (List.mem_cons_of_mem _ member)
    · rcases List.mem_cons.mp member with rfl | member
      · exact .inl (List.mem_cons_self ..)
      · rcases ih member with old | ⟨old, inside, rest⟩
        · exact .inl (List.mem_cons_of_mem _ old)
        · exact .inr ⟨old, List.mem_cons_of_mem _ inside, rest⟩

theorem refresh_cases (identity : Identity) (chptr : Chan) (cm : Member) :
    refresh identity chptr cm = cm ∨
      refresh identity chptr cm = { cm with banserial := chptr.banserial, banned := isBanned identity chptr } := by
  unfold refresh
  split
  · exact .inl rfl
  · split
    · exact .inl rfl
    · exact .inr rfl

theorem Chan.Coherent.consult (coherent : chptr.Coherent clients) (cptr : ClientId) :
    (chptr.consult cptr (clients cptr)).Coherent clients := by
  intro cm member current
  rcases mem_consultMember member with old | ⟨old, inside, found, rfl⟩
  · exact coherent cm old current
  · rcases refresh_cases (clients cptr) chptr old with same | new
    · rw [same] at current ⊢
      exact coherent old inside current
    · rw [new]
      simp only [found]
      rfl

theorem State.Coherent.perform (coherent : state.Coherent) (action : Action) (possible : state.Possible action)
    (quiet : state.Quiet action) : (state.perform action).Coherent := by
  have changed {ch : ChanId} {after : Chan} (good : after.Coherent state.clients) (other : ChanId) :
      (update state.channels ch after other).Coherent state.clients := by
    by_cases same : other = ch
    · subst same
      rw [Function.update_self]
      exact good
    · rw [Function.update_of_ne same]
      exact coherent other
  have renamed {sptr : ClientId} {identity : Identity}
      (kept : ∀ ch, ∀ cm ∈ (state.channels ch).members, cm.cptr = sptr → cm.banserial = (state.channels ch).banserial →
        isBanned identity (state.channels ch) = isBanned (state.clients sptr) (state.channels ch)) (ch : ChanId) :
      (state.channels ch).Coherent fun cptr => if cptr = sptr then identity else state.clients cptr := by
    intro cm member current
    rw [coherent ch cm member current]
    by_cases same : cm.cptr = sptr
    · simp only [same, if_true]
      exact (kept ch cm member same current).symm
    · simp only [same, if_false]
  cases action with
  | introduce cptr identity => exact renamed fun ch cm member same => absurd same (possible ch cm member)
  | create ch => exact changed fun cm member => absurd member List.not_mem_nil
  | join ch who => exact changed ((coherent ch).addUser quiet)
  | part ch sptr => exact changed ((coherent ch).removeUser sptr)
  | add ch list myClient mask => exact changed ((coherent ch).add list myClient mask quiet)
  | del ch list mask => exact changed ((coherent ch).del list mask quiet)
  | killBanList ch => exact changed ((state.channels ch).bumped quiet _ _)
  | canSend ch cptr => exact changed ((coherent ch).consult cptr)
  | nick sptr nick => exact renamed quiet
  | host sptr host maskhost => exact renamed quiet

end

theorem State.coherent_start : State.start.Coherent := fun _ _ member => absurd member List.not_mem_nil

/-- In a run without the steps that go wrong, whatever a member remembers is what
`is_banned` would say. -/
theorem cache_coherent (run : machine.Run State.Quiet State.start state) : state.Coherent :=
  run.invariant State.Coherent (fun _ action possible quiet coherent => coherent.perform action possible quiet)
    State.coherent_start

def ann : Identity := ⟨true, "ann".toList, "a".toList, "h.net".toList, "10.0.0.1".toList, "h.net".toList, "h.net".toList⟩

/-- `ann` is known and her full name is on the ban list of a channel. -/
def banned : State :=
  machine.perform (machine.perform State.start (.introduce 1 ann)) (.add 5 .ban true "ann!a@h.net".toList)

theorem isBanned_ann : isBanned ann (banned.channels 5) = true := by
  have text : Mask.makeNickUserHost (some ann.name) (some ann.username) (some ann.host) = "ann!a@h.net".toList := by
    decide
  have hit : Mask.matchMask "ann!a@h.net".toList "ann!a@h.net".toList = true :=
    Mask.matchMask_of_mycmp (mycmp_refl _) (by decide)
  have list : (banned.channels 5).banlist = ["ann!a@h.net".toList] := rfl
  have exempt : (banned.channels 5).banexemptList = [] := rfl
  rw [isBanned, list, exempt]
  simp only [List.any_cons, List.any_nil, Identity.texts, List.map_cons, text, hit]
  rfl

theorem banned_run (meets : State → Action → Prop) (first : meets State.start (.introduce 1 ann))
    (second : meets (machine.perform State.start (.introduce 1 ann)) (.add 5 .ban true "ann!a@h.net".toList)) :
    machine.Run meets State.start banned := by
  have known : machine.Run meets State.start (machine.perform State.start (.introduce 1 ann)) :=
    .tail (.refl _) (fun _ _ member => absurd member List.not_mem_nil) first
  exact .tail known trivial second

/-- She is on the channel before the ban, and says something after it. -/
private def actions : List Action := [.introduce 1 ann, .join 5 1, .add 5 .ban true "ann!a@h.net".toList, .canSend 5 1]

theorem banned_coherent : (actions.foldl machine.perform State.start).Coherent ∧
    ((actions.foldl machine.perform State.start).channels 5).members = [⟨1, true, 1⟩] := by
  have run : machine.Run State.Quiet State.start (actions.foldl machine.perform State.start) := by
    refine .of_list actions (.refl _) ⟨fun _ _ => nofun, trivial, trivial, rfl, trivial, ?_, trivial, trivial, trivial⟩
    intro cm member
    obtain rfl := List.mem_singleton.mp member
    exact of_decide_eq_true rfl
  exact ⟨cache_coherent run, congrArg (fun answer => [Member.mk 1 answer 1]) isBanned_ann⟩

/-- She joins all the same, on an invitation, and is remembered as not banned. -/
theorem invited_incoherent : machine.Run Machine.Any State.start (machine.perform banned (.join 5 1)) ∧
    ¬ (machine.perform banned (.join 5 1)).Coherent := by
  refine ⟨.tail (banned_run _ trivial trivial) trivial trivial, ?_⟩
  intro coherent
  have answer := coherent 5 ⟨1, false, 1⟩ (List.mem_cons_self ..) rfl
  have same : isBanned ((machine.perform banned (.join 5 1)).clients 1)
      ((machine.perform banned (.join 5 1)).channels 5) = true := isBanned_ann
  exact absurd (answer.trans same) (by decide)

end SolidIrcd.Channel.BanCache
