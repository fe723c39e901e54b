import SolidIrcd.Channel.Names
import SolidIrcd.Channel.Sjoin
import SolidIrcd.Channel.Topic
import SolidIrcd.Channel.Touch
import SolidIrcd.Lib.Machine

/-! What the channel code copies into fields and buffers of a fixed size: the handlers of
`channel.c` that create channels, set topics and keys, and list channels. -/

namespace SolidIrcd.Channel.Fields

open Scan (Text tokens)
open Decimal (atoi)
open Topics (Topic topicLen)

/-- The destinations of a fixed size. -/
inductive Dest where
  | chname | topic | topicNick | key
  /-- `tempchname` of `m_topic`. -/
  | tempchname
  /-- `channame` of `m_list`. -/
  | channame
  /-- The two buffers of `send_list`. -/
  | tempbuff | modestuff
  deriving DecidableEq

/-- Their sizes, as they are declared. -/
def Dest.size : Dest → Nat
  | .chname => channelLen + 1
  | .topic => topicLen + 1
  | .topicNick => nickLen + 1
  | .key => keyLen + 1
  | .tempchname => channelLen + 2
  | .channame => channelLen + 2
  | .tempbuff => keyLen + 8 + 3 + 1 + 3 + 6
  | .modestuff => topicLen + 3 + keyLen + 8 + 3 + 1 + 6

/-- A string that is copied, without its terminator. -/
structure Copy where
  dest : Dest
  text : Text
  deriving DecidableEq

/-- It fits with its terminator. -/
def Copy.Fits (copy : Copy) : Prop := copy.text.length < copy.dest.size

instance (copy : Copy) : Decidable copy.Fits := Nat.decLt ..

/-- A channel with its topic. -/
structure Room where
  chan : Chan
  topic : Topic

/-- The channels of a server. -/
abbrev State := List Room

/-- `find_channel`. -/
def State.find (state : State) (name : Text) : Option Room := List.find? (fun room => mycmp name room.chan.chname) state

def State.put (state : State) (name : Text) (room : Room) : State :=
  List.map (fun old => if mycmp name old.chan.chname then room else old) state

def State.drop (state : State) (name : Text) : State := List.filter (fun room => !mycmp name room.chan.chname) state

/-- Somebody who asks, and whether `IsAdmin`; `IsSAdmin` is in the source. -/
structure Asker where
  source : Source
  admin : Bool

def Room.has (room : Room) (source : Source) : Bool := room.chan.members.any (·.name = source.name)

/-- `PubChannel` -/
def Room.pub (room : Room) : Bool := !room.chan.mode.flags .privateChannel && !room.chan.mode.flags .secret

/-- A name that is too long ends after `CHANNELLEN` characters. -/
def cut (chname : Text) : Text := if chname.length > channelLen then chname.take channelLen else chname

/-- The name that `get_channel` looks up: it is cut only for clients of this server. -/
def openName (myClient : Bool) (chname : Text) : Text := if myClient then cut chname else chname

/-- `get_channel`: the state, and what it copies. -/
def getChannel (myClient : Bool) (timeofday : Int) (create : Bool) (chname : Text) (state : State) :
    State × List Copy :=
  let chname := openName myClient chname
  if chname = [] ∨ (state.find chname).isSome then (state, [])
  else if create then (⟨.create chname timeofday, ⟨[], [], 0⟩⟩ :: state, [⟨.chname, chname⟩])
  else (state, [])

/-- `*name == '0' && !atoi(name)`. -/
def isZero (name : Text) : Bool := name.head? = some '0' && atoi name = 0

/-- A turn of the first loop of `m_join`, which rebuilds the list of channels. -/
def joinStep (myClient : Bool) (jbuf : List Text) (name : Text) : List Text :=
  if myClient && name.any Names.illegal then jbuf
  else if isZero (cut name) then [cut name]
  else if (cut name).head? ≠ some '#' then jbuf
  else jbuf ++ [cut name]

def joinNames (myClient : Bool) (parv : Text) : List Text := (tokens ',' parv).foldl (joinStep myClient) []

/-- The second loop of `m_join`; `reaches` says which names come as far as `get_channel`. -/
def joinLoop (myClient : Bool) (timeofday : Int) (reaches : Text → Bool) : List Text → State → State × List Copy
  | [], state => (state, [])
  | name :: names, state =>
    if isZero name || !reaches name then joinLoop myClient timeofday reaches names state
    else
      let (state, copies) := getChannel myClient timeofday true name state
      let (state, more) := joinLoop myClient timeofday reaches names state
      (state, copies ++ more)

/-- The keys that the loop of `m_sjoin` over `parv[3]` copies. -/
def sjoinKeys (build : Build) : (modes : Text) → (args : List Text) → List Text
  | [], _ => []
  | letter :: rest, args =>
    match (sjoinTable build).lookup letter with
    | some _ => sjoinKeys build rest args
    | none =>
      match args with
      | [] => sjoinKeys build rest []
      | para :: others =>
        if letter = 'k' then para.take keyLen :: if others = [] then [] else sjoinKeys build rest others
        else if letter = 'j' ∨ letter = 'l' then if others = [] then [] else sjoinKeys build rest others
        else sjoinKeys build rest args

/-- The TS that an old SJOIN has twice. -/
def shiftTs : List Text → List Text
  | first :: second :: rest => if second.head?.any isDigit ∧ rest.length ≥ 3 then first :: rest else first :: second :: rest
  | parv => parv

/-- The topic goes with the modes when the other server's TS wins. -/
def Room.afterTs (room : Room) (created : Bool) (newts : Int) : Topic :=
  if tsOrder created newts room.chan.channelts = .keepNew then { room.topic with text := [] } else room.topic

/-- The first test of `m_sjoin`. -/
def sjoinIgnored (sptr : Source) (parv : List Text) : Bool :=
  sptr.myClient || (sptr.isServer && decide (parv.length < 4)) || decide (parv.length < 2)

/-- `m_sjoin`: from a server, or of a client behind it. -/
def sjoin (build : Build) (world : World) (timeofday : Int) (sptr : Source) (parv : List Text) (state : State) :
    State × List Copy :=
  if sjoinIgnored sptr parv then (state, [])
  else
    match shiftTs parv with
    | [_, chname] => if chname.head? ≠ some '#' then (state, []) else getChannel false timeofday true chname state
    | first :: chname :: modes :: args =>
      if chname.head? ≠ some '#' then (state, [])
      else
        let (opened, copies) := getChannel false timeofday true chname state
        let keys := (sjoinKeys build modes args).map (Copy.mk .key)
        match opened.find chname with
        | none => (state, copies ++ keys)
        | some room =>
          match mSjoin build world timeofday ((state.find chname).map Room.chan) parv with
          | none => (opened.drop chname, copies ++ keys)
          | some chan =>
            (opened.put chname ⟨chan, room.afterTs (state.find chname).isNone (Decimal.atol first)⟩,
              copies ++ keys ++ [⟨.key, chan.mode.key⟩])
    | _ => (state, [])

/-- The end of `m_topic`. -/
def setTopic (name topic tnick : Text) (ts : Int) (room : Room) (state : State) : State × List Copy :=
  (state.put name { room with topic := ⟨topic.take topicLen, tnick, ts⟩ },
    [⟨.topic, topic.take topicLen⟩, ⟨.topicNick, tnick⟩])

/-- The topic, the nickname and the time that `m_topic` is to store for somebody of another
server. -/
def extendedInfo (sptr : Source) (timeofday : Int) : (topic : Text) → List Text → Text × Text × Int
  | tnick, ts :: rest => (rest.headD [], tnick, atoi ts)
  | topic, [] => (topic, sptr.name, timeofday)

/-- `m_topic`. -/
def mTopic (timeofday : Int) (asker : Asker) (parv : List Text) (state : State) : State × List Copy :=
  match parv with
  | [] => (state, [])
  | name :: paras =>
    match state.find name with
    | none => (state, [])
    | some room =>
      match paras with
      | [] =>
        if !room.has asker.source && !room.pub && asker.admin then (state, [⟨.tempchname, '%' :: room.chan.chname⟩])
        else (state, [])
      | topic :: more =>
        if asker.source.myClient then
          if !room.has asker.source then (state, [])
          else if room.chan.mode.flags .topicLimit && !room.chan.isChanOp asker.source.name then (state, [])
          else setTopic name topic asker.source.name timeofday room state
        else
          let (topic, tnick, ts) := extendedInfo asker.source timeofday topic more
          if !asker.source.uline && !room.topic.text.isEmpty && decide (room.topic.time ≥ ts) then (state, [])
          else setTopic name topic tnick ts room state

/-- What `set_mode` leaves in `mode.key` after each `k`. -/
def modeKeys (call : Call) : Pass → Text → List Text
  | _, [] => []
  | pass, letter :: modes =>
    let pass := setModeStep call pass letter
    if letter = 'k' then pass.chptr.mode.key :: modeKeys call pass modes else modeKeys call pass modes

/-- `m_mode` on a channel. -/
def mode (build : Build) (world : World) (cptr : Connection) (sptr : Source) (name : Text) (parv : List Text)
    (state : State) : State × List Copy :=
  match state.find name with
  | none => (state, [])
  | some room =>
    let after := state.put name { room with chan := (mMode build world cptr sptr room.chan parv).chptr }
    match stripTs cptr room.chan parv with
    | some (modes :: args) =>
      let call : Call := ⟨build, world, cptr.name, sptr, modeLevel sptr room.chan⟩
      (after, (modeKeys call (Pass.start call room.chan args) modes).map (Copy.mk .key))
    | _ => (after, [])

/-- `m_samode` on a channel. -/
def samode (build : Build) (world : World) (sptr : Source) (name : Text) (parv : List Text) (state : State) :
    State × List Copy :=
  match state.find name with
  | none => (state, [])
  | some room =>
    let after := state.put name { room with chan := (mSamode build world sptr room.chan parv).chptr }
    match parv with
    | modes :: args =>
      if !(sptr.oper || sptr.locop) || !sptr.sadmin then (after, [])
      else
        let call : Call := ⟨build, world, sptr.name, sptr, 2⟩
        (after, (modeKeys call (Pass.start call room.chan args) modes).map (Copy.mk .key))
    | [] => (after, [])

/-- `m_list` for the channels that are named without wildcards. -/
def listNames (asker : Asker) (parv : Text) (state : State) : List Copy :=
  (tokens ',' parv).flatMap fun name =>
    match state.find name with
    | none => []
    | some room =>
      if !room.pub && !room.has asker.source && asker.admin then [⟨.channame, '%' :: room.chan.chname⟩] else []

/-- `%-20s`. -/
def padded (width : Nat) (text : Text) : Text := text ++ List.replicate (width - text.length) ' '

/-- What `channel_modes` shows a client of the modes. -/
def Room.modes (build : Build) (cptr : Source) (room : Room) : Text × Text :=
  channelModes build (room.has cptr || cptr.isServer || cptr.uline) room.chan.mode

/-- `tempbuff`. -/
def Room.tempbuff (build : Build) (cptr : Source) (room : Room) : Text :=
  let (modebuf, parabuf) := room.modes build cptr
  let plain := ['['] ++ modebuf ++ [' '] ++ parabuf ++ [']']
  if room.pub then plain else ['\x02'] ++ plain ++ ['\x02']

/-- `modestuff`. -/
def Room.modestuff (build : Build) (cptr : Source) (room : Room) : Text :=
  padded 20 (room.tempbuff build cptr) ++ [' '] ++ room.topic.text

/-- `send_list`, for the channels that it shows. -/
def sendList (build : Build) (cptr : Asker) (shows : Room → Bool) (state : State) : List Copy :=
  if cptr.admin || cptr.source.sadmin then
    (state.filter shows).flatMap fun room =>
      [⟨.tempbuff, room.tempbuff build cptr.source⟩, ⟨.modestuff, room.modestuff build cptr.source⟩]
  else []

inductive Message where
  | join (sptr : Source) (parv : Text) (reaches : Text → Bool)
  /-- `m_part` and `m_kick`, which only look a channel up. -/
  | seek (sptr : Source) (name : Text)
  | sjoin (sptr : Source) (parv : List Text)
  | topic (sptr : Asker) (parv : List Text)
  | mode (cptr : Connection) (sptr : Source) (name : Text) (parv : List Text)
  | samode (sptr : Source) (name : Text) (parv : List Text)
  | list (sptr : Asker) (parv : Text)
  | sendList (cptr : Asker) (shows : Room → Bool)
  /-- Members come and go, and the TS changes. -/
  | roster (name : Text) (members : List Member) (channelts : Int)
  | gone (name : Text)

/-- A message, with the clients the server knows and its clock. -/
structure Event where
  world : World
  timeofday : Int
  message : Message

def roster (name : Text) (members : List Member) (channelts : Int) (state : State) : State :=
  match state.find name with
  | none => state
  | some room => state.put name { room with chan := { room.chan with members := members, channelts := channelts } }

/-- What a message does, and the strings it copies. -/
def State.handle (build : Build) (state : State) (event : Event) : State × List Copy :=
  match event.message with
  | .join sptr parv reaches =>
    joinLoop sptr.myClient event.timeofday reaches (joinNames sptr.myClient parv) state
  | .seek sptr name => getChannel sptr.myClient event.timeofday false name state
  | .sjoin sptr parv => Fields.sjoin build event.world event.timeofday sptr parv state
  | .topic sptr parv => mTopic event.timeofday sptr parv state
  | .mode cptr sptr name parv => Fields.mode build event.world cptr sptr name parv state
  | .samode sptr name parv => Fields.samode build event.world sptr name parv state
  | .list sptr parv => (state, listNames sptr parv state)
  | .sendList cptr shows => (state, Fields.sendList build cptr shows state)
  | .roster name members channelts => (Fields.roster name members channelts state, [])
  | .gone name => (state.drop name, [])

def machine (build : Build) : Machine State Event where
  perform state event := (state.handle build event).1
  possible := Machine.Any

end SolidIrcd.Channel.Fields
