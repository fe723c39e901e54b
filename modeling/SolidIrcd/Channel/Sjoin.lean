import SolidIrcd.Channel.Burst
import SolidIrcd.Lib.Token
import SolidIrcd.Parse.Params

/-! `m_sjoin` of `channel.c` for the SJOIN of a server, and the lines of a burst
as the other end of the link reads them. -/

namespace SolidIrcd.Channel

open Scan (Text)
open Decimal (atoi atol)

/-- The flags of `SJ_MODEADD`. -/
def sjoinTable (build : Build) : List (Char × Flag) :=
  List.flatten
    [[('i', .inviteOnly), ('n', .noPrivMsgs), ('p', .privateChannel), ('s', .secret), ('m', .moderated),
        ('t', .topicLimit), ('r', .registered), ('R', .regOnly), ('M', .modReg), ('c', .noCtrl),
        ('O', .operOnly)],
      optional build.haveSsl ('S', .ssl),
      optional build.channelModeD ('D', .rsl),
      [('N', .noNick)],
      optional build.chanmodeL ('L', .listed)]

/-- A mode of SJOIN that takes the next parameter. -/
def readPara (mode : Mode) (para : Text) : Char → Option Mode
  | 'k' => some { mode with key := para.take keyLen }
  | 'j' =>
    some { mode.set .joinRate true with
      joinTime := if ':' ∈ para then atoi ((para.dropWhile (· != ':')).drop 1) else 0
      joinNum := atoi (para.takeWhile (· != ':')) }
  | 'l' => some { mode with limit := atoi para }
  | _ => none

/-- The loop over `parv[3]`; `args` are the parameters from `parv[4 + args]` on, and
there has to be one left when a mode has taken its own. -/
def readModes (build : Build) : (modes : Text) → Mode → (args : List Text) → Option (Mode × List Text)
  | [], mode, args => some (mode, args)
  | letter :: rest, mode, args =>
    match (sjoinTable build).lookup letter with
    | some flag => readModes build rest (mode.set flag true) args
    | none =>
      match args with
      | [] => readModes build rest mode []
      | para :: others =>
        match readPara mode para letter with
        | none => readModes build rest mode args
        | some mode => if others = [] then none else readModes build rest mode others

/-- `strcmp(first, second) > 0`. -/
def strcmpAbove : Text → Text → Bool
  | [], _ => false
  | _ :: _, [] => true
  | a :: first, b :: second => if a = b then strcmpAbove first second else decide (b < a)

/-- `oldmode` and `mode` for one key. -/
def mergeKey (oldkey key : Text) : Text :=
  if oldkey ≠ [] ∧ key ≠ [] ∧ strcmpAbove key oldkey then oldkey
  else if oldkey ≠ [] ∧ key = [] then oldkey
  else key

/-- Whether the new join rate stays although the channel has one. -/
def keepsJoinRate (oldmode mode : Mode) : Bool :=
  (mode.flags .joinRate && mode.joinNum = 0) ||
  (oldmode.joinNum ≠ 0 && mode.joinNum > oldmode.joinNum) ||
  (mode.joinNum = oldmode.joinNum && mode.joinTime < oldmode.joinTime)

/-- The modes of a channel with the same TS as ours: the wider ones win. -/
def mergeModes (oldmode mode : Mode) : Mode :=
  let ours := oldmode.flags .joinRate && !keepsJoinRate oldmode mode
  { flags := fun flag => mode.flags flag || oldmode.flags flag
    limit := if oldmode.limit > mode.limit then oldmode.limit else mode.limit
    key := mergeKey oldmode.key mode.key
    joinNum := if ours then oldmode.joinNum else mode.joinNum
    joinTime := if ours then oldmode.joinTime else mode.joinTime }

/-- `kill_ban_list`, and the loop that takes the status of every member. -/
def Chan.wipe (chptr : Chan) : Chan :=
  { chptr with
    banlist := [], banexemptList := [], inviteList := []
    members := chptr.members.map fun cm => { cm with chanop := false, halfop := false, voice := false } }

/-- How the TS of a line stands to ours: the same, or one of them zero, and both
sides keep their modes; theirs is older and ours go; ours is older. -/
inductive TsOrder where
  | keepBoth | keepNew | keepOurs
  deriving DecidableEq, Repr

def tsOrder (isnew : Bool) (newts oldts : Int) : TsOrder :=
  if isnew then .keepBoth
  else if newts = 0 ∨ oldts = 0 then .keepBoth
  else if newts = oldts then .keepBoth
  else if newts < oldts then .keepNew
  else .keepOurs

def mergeTs (isnew : Bool) (newts oldts : Int) : Int :=
  if isnew then newts
  else if newts = 0 ∨ oldts = 0 then 0
  else if newts < oldts then newts
  else oldts

/-- The channel with the TS and modes of the line worked in. -/
def Chan.merge (chptr : Chan) (isnew : Bool) (newts : Int) (mode : Mode) : Chan :=
  let channelts := mergeTs isnew newts chptr.channelts
  match tsOrder isnew newts chptr.channelts with
  | .keepOurs => { chptr with channelts := channelts }
  | .keepBoth => { chptr with channelts := channelts, mode := mergeModes chptr.mode mode }
  | .keepNew => { chptr.wipe with channelts := channelts, mode := mode }

def isStatus (c : Char) : Bool := c == '@' || c == '%' || c == '+'

/-- `*s == sign || s[1] == sign`. -/
def startsWith (sign : Char) (s : Text) : Bool := s.head? = some sign || (s.drop 1).head? = some sign

/-- The flags a word of the member list carries. -/
def wordFlags (keepnewmodes : Bool) (s : Text) (name : Text) : Member :=
  if keepnewmodes then ⟨name, startsWith '@' s, startsWith '%' s, startsWith '+' s, false⟩
  else ⟨name, false, false, false, startsWith '@' s⟩

/-- The body of the member loop: a client behind the link joins, unless it is on
the channel already. -/
def joinMember (world : World) (keepnewmodes : Bool) (chptr : Chan) (s : Text) : Chan :=
  match world.findChasing (s.dropWhile isStatus) with
  | none => chptr
  | some acptr =>
    if !acptr.behindLink then chptr
    else if chptr.members.any fun cm => cm.name = acptr.name then chptr
    else { chptr with members := wordFlags keepnewmodes s acptr.name :: chptr.members }

/-- Whether a word names a client behind the link. -/
def isPeople (world : World) (s : Text) : Bool :=
  (world.findChasing (s.dropWhile isStatus)).any User.behindLink

/-- A channel `get_channel` creates. -/
def Chan.create (chname : Text) (channelts : Int) : Chan where
  chname := chname
  channelts := channelts
  mode := .clear
  members := []
  banlist := []
  banexemptList := []
  inviteList := []
  invites := []

/-- `m_sjoin` from where the modes have been read. -/
def sjoinChannel (world : World) (created : Bool) (chptr : Chan) (newts : Int) (mode : Mode) (list : Text) :
    Option Chan :=
  let keepnewmodes := decide (tsOrder created newts chptr.channelts ≠ .keepOurs)
  let people := Scan.tokens ' ' list
  let joined := people.foldl (joinMember world keepnewmodes) (chptr.merge created newts mode)
  if created && !people.any (isPeople world) && joined.members.isEmpty then none else some joined

/-- `m_sjoin` from a server; the parameters are those behind the prefix, and
`channel` is what the channel table has under the name. -/
def mSjoin (build : Build) (world : World) (timeofday : Int) (channel : Option Chan) (parv : List Text) :
    Option Chan :=
  let parv := match parv with
    | first :: second :: rest =>
      if second.head?.any isDigit ∧ rest.length ≥ 3 then first :: rest else parv
    | parv => parv
  match parv with
  | first :: chname :: modes :: para :: args =>
    if chname.head? ≠ some '#' then channel
    else
      let created := channel.isNone
      let chptr := channel.getD (.create chname timeofday)
      match readModes build modes .clear (para :: args) with
      | none => some chptr
      | some (_, []) => some chptr
      | some (mode, list :: _) => sjoinChannel world created chptr (atol first) mode list
  | _ => channel

/-- The other end of a link. -/
structure Peer where
  name : Text
  uline : Bool
  deriving DecidableEq, Repr

/-- The server itself as the source of a line. -/
def Peer.source (peer : Peer) : Source where
  name := peer.name
  isServer := true
  uline := peer.uline
  myClient := false
  sadmin := false
  oper := false
  locop := false
  ursl := false
  umodez := false

/-- What a server is: its build, the clients it knows, its clock and its peer. -/
structure Node where
  build : Build
  world : World
  timeofday : Int
  peer : Peer

/-- One line of a burst at the other end. -/
def Node.receive (node : Node) (channel : Option Chan) (line : Text) : Option Chan :=
  let words := Parse.words line
  if words.command = "SJOIN".toList then
    mSjoin node.build node.world node.timeofday channel words.parv
  else if words.command = "MODE".toList then
    channel.map fun chptr =>
      (mMode node.build node.world ⟨node.peer.name, true⟩ node.peer.source chptr (words.parv.drop 1)).chptr
  else channel

end SolidIrcd.Channel
