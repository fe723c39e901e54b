import SolidIrcd.Channel.BanMatch
import SolidIrcd.Channel.JoinRate

/-! Who may join a channel: `can_join` of `channel.c`, and `can_join_whynot`, which lists the
modes that stand against it. -/

namespace SolidIrcd.Channel

open BanCache (ChanId Identity)
open Scan (Text)

/-- What both functions look at of a client. -/
structure Joiner where
  identity : Identity
  /-- `user->invited`. -/
  invited : List ChanId
  uline : Bool
  oper : Bool
  regNick : Bool
  umodez : Bool
  ursl : Bool

/-- What both functions look at of a channel. -/
structure Venue where
  chptr : ChanId
  mode : Mode
  users : Int
  banlist : List Text
  banexemptList : List Text
  inviteList : List Text
  counts : JoinCounts

/-- The errors of `can_join`. -/
inductive JoinError where
  | channelIsFull | inviteOnlyChan | needReggedNick | badChannelKey | ssl | rsl | bannedFromChan
  deriving DecidableEq, Repr

/-- `is_invited`, which has the same two texts as `remove_matching_bans`. -/
def Venue.isInvited (chptr : Venue) (sptr : Joiner) : Bool := chptr.inviteList.any sptr.identity.target

/-- `is_banned` without a member. -/
def Venue.isBanned (chptr : Venue) (sptr : Joiner) : Bool :=
  BanCache.isBanned sptr.identity ⟨chptr.banlist, chptr.banexemptList, 0, []⟩

/-- `*chptr->mode.key && (BadPtr(key) || mycmp(chptr->mode.key, key))`. -/
def Mode.locked (mode : Mode) (key : Option Text) : Bool :=
  mode.key ≠ [] && (key.getD [] = [] || !mycmp mode.key (key.getD []))

def Venue.full (chptr : Venue) : Bool := chptr.mode.limit ≠ 0 && decide (chptr.users ≥ chptr.mode.limit)

/-- An invitation, or a U:line. -/
def Venue.welcomes (chptr : Venue) (sptr : Joiner) : Bool := sptr.invited.contains chptr.chptr || sptr.uline

/-- The `else if` chain of `can_join`: the error, and the mode it is blamed on in the reply. -/
def Venue.modeError (chptr : Venue) (sptr : Joiner) (key : Option Text) (free : Bool) : Option JoinError × Option Text :=
  if !free then (some .channelIsFull, some "+j".toList)
  else if chptr.mode.flags .inviteOnly then (some .inviteOnlyChan, some "+i".toList)
  else if chptr.mode.flags .operOnly && !sptr.oper then (some .inviteOnlyChan, some "+O".toList)
  else if chptr.full then (some .channelIsFull, some "+l".toList)
  else if chptr.mode.flags .regOnly && !sptr.regNick then (some .needReggedNick, none)
  else if chptr.mode.locked key then (some .badChannelKey, none)
  else (none, none)

/-- The two restrictions that only some builds have. -/
def Venue.secureError (build : Build) (chptr : Venue) (sptr : Joiner) (error : Option JoinError) : Option JoinError :=
  let error := if build.haveSsl && chptr.mode.flags .ssl && !sptr.umodez then some .ssl else error
  if build.channelModeD && chptr.mode.flags .rsl && sptr.ursl then some .rsl else error

/-- `can_join`: the error and the mode of the reply, and the windows of the channel; there is
no error when the client is let in. -/
def canJoin (build : Build) (now : Int) (sptr : Joiner) (chptr : Venue) (key : Option Text) :
    (Option JoinError × Option Text) × JoinCounts :=
  if chptr.welcomes sptr then ((none, none), chptr.counts)
  else
    let (free, counts) := checkJoinrate chptr.mode now now true chptr.counts
    let (error, r) := chptr.modeError sptr key free
    let error := chptr.secureError build sptr error
    let error := if error.isSome && chptr.isInvited sptr then none else error
    let error := if error.isNone && chptr.isBanned sptr then some .bannedFromChan else error
    ((error, r), counts)

/-- The letters of the modes that stand against the client. -/
def Venue.reasons (chptr : Venue) (sptr : Joiner) (key : Option Text) (free : Bool) : Text :=
  (if chptr.mode.flags .inviteOnly then ['i'] else []) ++
  (if chptr.mode.flags .regOnly && !sptr.regNick then ['R'] else []) ++
  (if chptr.mode.flags .operOnly && !sptr.oper then ['O'] else []) ++
  (if chptr.mode.locked key then ['k'] else []) ++
  (if chptr.full then ['l'] else []) ++
  (if !free then ['j'] else [])

/-- `can_join_whynot`: `reasonbuf`, and the windows of the channel. -/
def canJoinWhynot (now : Int) (sptr : Joiner) (chptr : Venue) (key : Option Text) : Text × JoinCounts :=
  if chptr.welcomes sptr then ([], chptr.counts)
  else
    let (free, counts) := checkJoinrate chptr.mode now now true chptr.counts
    let reasons := chptr.reasons sptr key free
    let reasons := if reasons ≠ [] && chptr.isInvited sptr then [] else reasons
    (reasons ++ if chptr.isBanned sptr then ['b'] else [], counts)

/-- What a letter of `can_join_whynot` is about is the same in two channels. -/
def Venue.Alike (chptr other : Venue) : Char → Prop
  | 'i' => other.mode.flags .inviteOnly = chptr.mode.flags .inviteOnly
  | 'R' => other.mode.flags .regOnly = chptr.mode.flags .regOnly
  | 'O' => other.mode.flags .operOnly = chptr.mode.flags .operOnly
  | 'k' => other.mode.key = chptr.mode.key
  | 'l' => other.mode.limit = chptr.mode.limit ∧ other.users = chptr.users
  | 'j' => other.mode.flags .joinRate = chptr.mode.flags .joinRate ∧ other.mode.joinNum = chptr.mode.joinNum ∧
      other.mode.joinTime = chptr.mode.joinTime ∧ other.counts = chptr.counts
  | 'b' => other.banlist = chptr.banlist ∧ other.banexemptList = chptr.banexemptList
  | _ => False

/-- The same channel for invitations, with the restriction of this letter; the rest may be anything. -/
structure Venue.Keeps (chptr other : Venue) (reason : Char) : Prop where
  same : other.chptr = chptr.chptr
  inviteList : other.inviteList = chptr.inviteList
  alike : chptr.Alike other reason

/-- None of the restrictions both functions have. -/
structure Venue.Open (now : Int) (sptr : Joiner) (chptr : Venue) (key : Option Text) : Prop where
  rate : (checkJoinrate chptr.mode now now true chptr.counts).1 = true
  inviteOnly : chptr.mode.flags .inviteOnly = false
  operOnly : (chptr.mode.flags .operOnly && !sptr.oper) = false
  limit : chptr.full = false
  regOnly : (chptr.mode.flags .regOnly && !sptr.regNick) = false
  key : chptr.mode.locked key = false

/-- Modes +S and +D, which `can_join_whynot` does not know. -/
def Venue.insecure (build : Build) (chptr : Venue) (sptr : Joiner) : Bool :=
  build.haveSsl && chptr.mode.flags .ssl && !sptr.umodez || build.channelModeD && chptr.mode.flags .rsl && sptr.ursl

/-- Nothing but +S or +D keeps the client out. -/
structure Unexplained (build : Build) (now : Int) (sptr : Joiner) (chptr : Venue) (key : Option Text) : Prop where
  stranger : chptr.welcomes sptr = false
  isOpen : chptr.Open now sptr key
  uninvited : chptr.isInvited sptr = false
  unbanned : chptr.isBanned sptr = false
  insecure : chptr.insecure build sptr = true

variable {build : Build} {now : Int} {sptr : Joiner} {chptr other : Venue} {key : Option Text}

theorem modeError_eq_none :
    (chptr.modeError sptr key (checkJoinrate chptr.mode now now true chptr.counts).1).1 = none ↔ chptr.Open now sptr key := by
  constructor
  · intro none
    unfold Venue.modeError at none
    split at none
    · cases none
    next rate =>
      split at none
      · cases none
      next inviteOnly =>
        split at none
        · cases none
        next operOnly =>
          split at none
          · cases none
          next limit =>
            split at none
            · cases none
            next regOnly =>
              split at none
              · cases none
              next locked =>
                rw [Bool.not_eq_true, Bool.not_eq_false'] at rate
                simp only [Bool.not_eq_true] at inviteOnly operOnly limit regOnly locked
                exact ⟨rate, inviteOnly, operOnly, limit, regOnly, locked⟩
  · intro isOpen
    unfold Venue.modeError
    rw [isOpen.rate, isOpen.inviteOnly, isOpen.operOnly, isOpen.limit, isOpen.regOnly, isOpen.key]
    rfl

theorem secureError_eq_none :
    chptr.secureError build sptr error = none ↔ error = none ∧ chptr.insecure build sptr = false := by
  unfold Venue.secureError Venue.insecure
  cases build.haveSsl && chptr.mode.flags .ssl && !sptr.umodez <;>
    cases build.channelModeD && chptr.mode.flags .rsl && sptr.ursl <;> simp

/-- Whom `can_join` lets in. -/
theorem canJoin_eq_none : (canJoin build now sptr chptr key).1.1 = none ↔
    chptr.welcomes sptr = true ∨
      ((chptr.Open now sptr key ∧ chptr.insecure build sptr = false) ∨ chptr.isInvited sptr = true) ∧
        chptr.isBanned sptr = false := by
  unfold canJoin
  cases chptr.welcomes sptr with
  | true => simp
  | false =>
    simp only [Bool.false_eq_true, if_false, false_or]
    rw [← modeError_eq_none, ← secureError_eq_none]
    cases chptr.secureError build sptr
        (chptr.modeError sptr key (checkJoinrate chptr.mode now now true chptr.counts).1).1 <;>
      cases chptr.isInvited sptr <;> cases chptr.isBanned sptr <;> simp

theorem reasons_eq_nil :
    chptr.reasons sptr key (checkJoinrate chptr.mode now now true chptr.counts).1 = [] ↔ chptr.Open now sptr key := by
  constructor
  · intro none
    simp only [Venue.reasons, List.append_eq_nil_iff, ite_eq_right_iff, List.cons_ne_nil, imp_false, Bool.not_eq_true,
      Bool.not_eq_false'] at none
    obtain ⟨⟨⟨⟨⟨inviteOnly, regOnly⟩, operOnly⟩, locked⟩, limit⟩, rate⟩ := none
    exact ⟨rate, inviteOnly, operOnly, limit, regOnly, locked⟩
  · intro isOpen
    unfold Venue.reasons
    rw [isOpen.rate, isOpen.inviteOnly, isOpen.operOnly, isOpen.limit, isOpen.regOnly, isOpen.key]
    rfl

/-- To whom `can_join_whynot` has nothing to object. -/
theorem canJoinWhynot_eq_nil : (canJoinWhynot now sptr chptr key).1 = [] ↔
    chptr.welcomes sptr = true ∨ (chptr.Open now sptr key ∨ chptr.isInvited sptr = true) ∧ chptr.isBanned sptr = false := by
  unfold canJoinWhynot
  cases chptr.welcomes sptr with
  | true => simp
  | false =>
    simp only [Bool.false_eq_true, if_false, false_or]
    rw [← reasons_eq_nil]
    cases chptr.reasons sptr key (checkJoinrate chptr.mode now now true chptr.counts).1 <;>
      cases chptr.isInvited sptr <;> cases chptr.isBanned sptr <;> simp

/-- The restriction of a letter that another channel keeps is one there. -/
theorem not_open_of_keeps
    (member : reason ∈ chptr.reasons sptr key (checkJoinrate chptr.mode now now true chptr.counts).1)
    (keeps : chptr.Keeps other reason) : ¬other.Open now sptr key := by
  intro isOpen
  have alike := keeps.alike
  simp only [Venue.reasons, List.mem_append, List.mem_ite_nil_right, List.mem_singleton, Bool.not_eq_true'] at member
  rcases member with ((((⟨inviteOnly, rfl⟩ | ⟨regOnly, rfl⟩) | ⟨operOnly, rfl⟩) | ⟨locked, rfl⟩) | ⟨limit, rfl⟩) | ⟨rate, rfl⟩
  · have same : other.mode.flags .inviteOnly = chptr.mode.flags .inviteOnly := alike
    rw [← same, isOpen.inviteOnly] at inviteOnly
    cases inviteOnly
  · have same : other.mode.flags .regOnly = chptr.mode.flags .regOnly := alike
    rw [← same, isOpen.regOnly] at regOnly
    cases regOnly
  · have same : other.mode.flags .operOnly = chptr.mode.flags .operOnly := alike
    rw [← same, isOpen.operOnly] at operOnly
    cases operOnly
  · have same : other.mode.key = chptr.mode.key := alike
    have free := isOpen.key
    rw [Mode.locked, same] at free
    rw [Mode.locked, free] at locked
    cases locked
  · obtain ⟨same, users⟩ : other.mode.limit = chptr.mode.limit ∧ other.users = chptr.users := alike
    have free := isOpen.limit
    rw [Venue.full, same, users] at free
    rw [Venue.full, free] at limit
    cases limit
  · obtain ⟨flag, num, time, counts⟩ : other.mode.flags .joinRate = chptr.mode.flags .joinRate ∧
        other.mode.joinNum = chptr.mode.joinNum ∧ other.mode.joinTime = chptr.mode.joinTime ∧
          other.counts = chptr.counts := alike
    have free := isOpen.rate
    rw [counts, checkJoinrate_congr flag num time, rate] at free
    cases free

/-- What `can_join_whynot` says is a restriction `can_join` enforces on the client, in every
channel that has it. -/
theorem reason_enforced (member : reason ∈ (canJoinWhynot now sptr chptr key).1) (keeps : chptr.Keeps other reason) :
    (canJoin build now sptr other key).1.1 ≠ none := by
  have welcome : other.welcomes sptr = chptr.welcomes sptr := by rw [Venue.welcomes, Venue.welcomes, keeps.same]
  have list : other.isInvited sptr = chptr.isInvited sptr := by rw [Venue.isInvited, Venue.isInvited, keeps.inviteList]
  unfold canJoinWhynot at member
  rw [ne_eq, canJoin_eq_none, welcome, list]
  cases stranger : chptr.welcomes sptr with
  | true => simp [stranger] at member
  | false =>
    rw [stranger] at member
    simp only [Bool.false_eq_true, if_false, List.mem_append, List.mem_ite_nil_right, List.mem_singleton] at member
    simp only [Bool.false_eq_true, false_or, not_and, Bool.not_eq_false]
    rcases member with mode | ⟨banned, rfl⟩
    · have uninvited : chptr.isInvited sptr = false ∧
          reason ∈ chptr.reasons sptr key (checkJoinrate chptr.mode now now true chptr.counts).1 := by
        split at mode
        · cases mode
        next kept =>
          refine ⟨?_, mode⟩
          rw [← Bool.not_eq_true]
          intro invited
          apply kept
          simp [invited, List.ne_nil_of_mem mode]
      intro admits
      rcases admits with ⟨isOpen, -⟩ | invited
      · exact absurd isOpen (not_open_of_keeps uninvited.2 keeps)
      · rw [uninvited.1] at invited
        cases invited
    · obtain ⟨bans, exempts⟩ : other.banlist = chptr.banlist ∧ other.banexemptList = chptr.banexemptList := keeps.alike
      intro _
      rw [Venue.isBanned, bans, exempts]
      exact banned

/-- `can_join` and `can_join_whynot` agree, and every reason given is one that counts, unless
nothing but +S or +D keeps the client out. -/
theorem canJoin_explained (build : Build) (now : Int) (sptr : Joiner) (chptr : Venue) (key : Option Text) :
    (((canJoin build now sptr chptr key).1.1 = none ↔ (canJoinWhynot now sptr chptr key).1 = []) ∧
      ∀ reason ∈ (canJoinWhynot now sptr chptr key).1, ∀ other, chptr.Keeps other reason →
        (canJoin build now sptr other key).1.1 ≠ none) ↔ ¬Unexplained build now sptr chptr key := by
  have enforced : ∀ reason ∈ (canJoinWhynot now sptr chptr key).1, ∀ other, chptr.Keeps other reason →
      (canJoin build now sptr other key).1.1 ≠ none := fun reason member other keeps => reason_enforced member keeps
  rw [and_iff_left enforced, canJoin_eq_none, canJoinWhynot_eq_nil]
  constructor
  · rintro agree ⟨stranger, isOpen, uninvited, unbanned, insecure⟩
    rw [stranger, uninvited, unbanned, insecure] at agree
    simp [isOpen] at agree
  · intro explained
    cases stranger : chptr.welcomes sptr with
    | true => simp
    | false =>
      simp only [Bool.false_eq_true, false_or, and_congr_left_iff]
      intro unbanned
      cases uninvited : chptr.isInvited sptr with
      | true => simp
      | false =>
        simp only [Bool.false_eq_true, or_false, and_iff_left_iff_imp]
        intro isOpen
        rw [← Bool.not_eq_true]
        exact fun insecure => explained ⟨stranger, isOpen, uninvited, unbanned, insecure⟩

private def plain : Joiner := ⟨BanCache.ann, [], false, false, false, false, false⟩

private def secure : Venue :=
  ⟨5, ⟨fun flag => flag = .ssl, 0, [], 0, 0⟩, 1, [], [], [], ⟨1000, 1, 1000, 1⟩⟩

/-- A client without SSL is kept out of a channel with +S, for no reason. -/
theorem ssl_unexplained : canJoin ⟨true, false, false⟩ 1002 plain secure none = ((some .ssl, none), ⟨1000, 1, 1000, 2⟩) ∧
    (canJoinWhynot 1002 plain secure none).1 = [] := by
  decide +kernel

end SolidIrcd.Channel
