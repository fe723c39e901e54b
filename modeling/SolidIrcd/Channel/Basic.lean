import SolidIrcd.Channel.Mask
import SolidIrcd.Lib.Decimal

/-! A channel as `struct Channel` keeps it, the members' flags, the clients a
server knows, and the three mask lists with the functions that change them. -/

namespace SolidIrcd.Channel

open Scan (Text)
open Decimal (print)

/-- The `MODE_` bits of `mode.mode` that some code reads. `MODE_LIMIT` is set and
cleared there too, but only `mode.limit` is ever looked at. -/
inductive Flag where
  | privateChannel | secret | moderated | noPrivMsgs | topicLimit | regOnly | inviteOnly | noCtrl
  | operOnly | modReg | noNick | rsl | ssl | listed | registered | joinRate
  deriving DecidableEq, Repr

/-- `struct SMode`. -/
structure Mode where
  flags : Flag → Bool
  limit : Int
  key : Text
  joinNum : Int
  joinTime : Int

/-- The mode `memset` leaves. -/
def Mode.clear : Mode := ⟨fun _ => false, 0, [], 0, 0⟩

def Mode.set (mode : Mode) (flag : Flag) (value : Bool) : Mode :=
  { mode with flags := fun other => if other = flag then value else mode.flags other }

/-- `chanMember` with the `CHFL_` bits. -/
structure Member where
  name : Text
  chanop : Bool
  halfop : Bool
  voice : Bool
  deopped : Bool
  deriving DecidableEq, Repr

/-- `struct Channel`. `invites` are the clients with a pending INVITE. -/
structure Chan where
  chname : Text
  channelts : Int
  mode : Mode
  members : List Member
  banlist : List Text
  banexemptList : List Text
  inviteList : List Text
  invites : List Text

/-- A client of the network: its nickname, and whether it is behind the link a
line comes from. -/
structure User where
  name : Text
  behindLink : Bool
  deriving DecidableEq, Repr

/-- The clients a server knows, and what `get_history` answers for a name that
nobody has. -/
structure World where
  clients : List User
  history : Text → Option User

/-- `find_chasing`. -/
def World.findChasing (world : World) (user : Text) : Option User :=
  match world.clients.find? fun client => mycmp client.name user with
  | some who => some who
  | none => world.history user

/-- `find_user_member`. -/
def findUserMember (members : List Member) (name : Text) : Option Member :=
  members.find? fun member => member.name = name

def Chan.isChanOp (chptr : Chan) (name : Text) : Bool :=
  (findUserMember chptr.members name).any Member.chanop

def Chan.isHalfop (chptr : Chan) (name : Text) : Bool :=
  (findUserMember chptr.members name).any Member.halfop

def Chan.isOnlyHalfop (chptr : Chan) (name : Text) : Bool :=
  (findUserMember chptr.members name).any fun cm => !cm.chanop && cm.halfop

/-- `ADD_PARA`, and the `strcat` with a space in front of all but the first. -/
def addPara (pbuf para : Text) : Text := if pbuf = [] then para else pbuf ++ ' ' :: para

/-- A join rate with a zero in it is printed as one zero. -/
def printJoinRate (rate : Int × Int) : Text :=
  if rate.1 = 0 ∨ rate.2 = 0 then ['0'] else print rate.1 ++ ':' :: print rate.2

/-- A row that only some builds have. -/
def optional (condition : Bool) (row : Char × α) : List (Char × α) := if condition then [row] else []

/-- The letters `channel_modes` writes for flags, in its order. -/
def letterTable (build : Build) : List (Char × Flag) :=
  List.flatten
    [[('s', .secret), ('p', .privateChannel), ('m', .moderated), ('t', .topicLimit), ('i', .inviteOnly),
        ('n', .noPrivMsgs), ('r', .registered), ('R', .regOnly), ('c', .noCtrl), ('O', .operOnly)],
      optional build.haveSsl ('S', .ssl),
      optional build.channelModeD ('D', .rsl),
      [('N', .noNick), ('M', .modReg)],
      optional build.chanmodeL ('L', .listed)]

/-- The modes with a parameter, with the parameter `channel_modes` prints. -/
def Mode.paras (mode : Mode) : List (Char × Text) :=
  (if mode.limit ≠ 0 then [('l', print mode.limit)] else []) ++
  (if mode.key ≠ [] then [('k', mode.key)] else []) ++
  (if mode.flags .joinRate then [('j', printJoinRate (mode.joinNum, mode.joinTime))] else [])

/-- The letters of the flags that are set. -/
def Mode.letters (mode : Mode) (rows : List (Char × Flag)) : Text :=
  (rows.filter fun row => mode.flags row.2).map Prod.fst

/-- `channel_modes`: the two buffers. Parameters are only shown to members, to
servers and to U:lined clients. -/
def channelModes (build : Build) (shown : Bool) (mode : Mode) : Text × Text :=
  ('+' :: mode.letters (letterTable build) ++ mode.paras.map Prod.fst,
    if shown then (mode.paras.map Prod.snd).foldl addPara [] else [])

/-- Which of the three lists a letter is about. -/
inductive MaskList where
  | ban | exempt | invite
  deriving DecidableEq, Repr

def MaskList.letter : MaskList → Char
  | .ban => 'b'
  | .exempt => 'e'
  | .invite => 'I'

/-- `MAXBANS`, `MAXEXEMPTLIST` and `MAXINVITELIST`. -/
def MaskList.most : MaskList → Nat
  | .ban => 100
  | .exempt => 45
  | .invite => 100

def Chan.masks (chptr : Chan) : MaskList → List Text
  | .ban => chptr.banlist
  | .exempt => chptr.banexemptList
  | .invite => chptr.inviteList

def Chan.setMasks (chptr : Chan) (masks : List Text) : MaskList → Chan
  | .ban => { chptr with banlist := masks }
  | .exempt => { chptr with banexemptList := masks }
  | .invite => { chptr with inviteList := masks }

/-- Why a mask is not added. -/
inductive Refusal where
  | full
  | redundant
  deriving DecidableEq, Repr

/-- The loop of `add_banid`, `add_exempt_id` and `add_invite_id`: a client of this
server may neither fill a list nor repeat what a mask in it matches, anybody
else only may not repeat a mask. -/
def refusal (most : Nat) (myClient : Bool) (mask : Text) : (cnt : Nat) → List Text → Option Refusal
  | _, [] => none
  | cnt, old :: rest =>
    if myClient then
      if cnt + 1 ≥ most then some .full
      else if Mask.matchMask old mask then some .redundant
      else refusal most myClient mask (cnt + 1) rest
    else if mycmp old mask then some .redundant
    else refusal most myClient mask cnt rest

/-- `add_banid`, `add_exempt_id` and `add_invite_id`; the new mask comes first. -/
def addId (list : MaskList) (myClient : Bool) (masks : List Text) (mask : Text) :
    Except Refusal (List Text) :=
  match refusal list.most myClient mask 0 masks with
  | some refused => .error refused
  | none => .ok (mask :: masks)

/-- `del_banid`, `del_exempt_id` and `del_invite_id`, which succeed in any case. -/
def delId (masks : List Text) (mask : Text) : List Text :=
  masks.eraseP fun old => mycmp mask old

@[simp] theorem masks_setMasks (chptr : Chan) (masks : List Text) (list : MaskList) :
    (chptr.setMasks masks list).masks list = masks := by
  cases list <;> rfl

theorem masks_setMasks_ne (other : list ≠ changed) :
    (Chan.setMasks chptr masks changed).masks list = chptr.masks list := by
  cases list <;> cases changed <;> first | rfl | exact absurd rfl other

theorem refusal_server (most : Nat) (mask : Text) (cnt : Nat) (masks : List Text) :
    refusal most false mask cnt masks = if masks.any (mycmp · mask) then some .redundant else none := by
  induction masks with
  | nil => rfl
  | cons old masks ih =>
    simp only [refusal, Bool.false_eq_true, if_false, List.any_cons, ih]
    by_cases same : mycmp old mask = true
    · simp [same]
    · simp [same]

theorem refusal_none {masks : List Text} (free : refusal most true mask cnt masks = none) (member : old ∈ masks) :
    Mask.matchMask old mask = false := by
  induction masks generalizing cnt with
  | nil => exact absurd member List.not_mem_nil
  | cons first masks ih =>
    simp only [refusal, if_true] at free
    split at free
    · cases free
    · split at free
      · cases free
      next apart =>
        obtain rfl | later := List.mem_cons.mp member
        · exact Bool.eq_false_iff.mpr apart
        · exact ih free later

theorem Mode.set_same (mode : Mode) (flag : Flag) : mode.set flag (mode.flags flag) = mode := by
  have unchanged : (mode.set flag (mode.flags flag)).flags = mode.flags := by
    funext other
    by_cases same : other = flag
    · simp [Mode.set, same]
    · simp [Mode.set, same]
  cases mode
  simp only [Mode.set] at unchanged ⊢
  simp only [unchanged]

theorem Mode.set_set (mode : Mode) (flag : Flag) (first second : Bool) :
    (mode.set flag first).set flag second = mode.set flag second := by
  simp only [Mode.set, Mode.mk.injEq, and_true]
  funext other
  split <;> rfl

@[simp] theorem Mode.flags_set (mode : Mode) (flag : Flag) (value : Bool) :
    (mode.set flag value).flags flag = value := by simp [Mode.set]

end SolidIrcd.Channel
