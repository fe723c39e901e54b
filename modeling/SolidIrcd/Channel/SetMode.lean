import SolidIrcd.Channel.Basic

/-! `set_mode`, `m_mode` and `m_samode` of `channel.c`: one pass over the letters
of a mode string that changes the channel and writes the line to relay. -/

namespace SolidIrcd.Channel

open Scan (Text)
open Decimal (atoi atol print strtol)

def realModeBufLen : Nat := 512
def maxModeParamsUser : Nat := 6

/-- What the mode code asks about `sptr`. -/
structure Source where
  name : Text
  isServer : Bool
  uline : Bool
  myClient : Bool
  sadmin : Bool
  oper : Bool
  locop : Bool
  ursl : Bool
  umodez : Bool
  deriving DecidableEq, Repr

inductive Sign where
  | plus | minus
  deriving DecidableEq, Repr

def Sign.char : Sign → Char
  | .plus => '+'
  | .minus => '-'

def Sign.other : Sign → Sign
  | .plus => .minus
  | .minus => .plus

/-- The `SM_ERR_` bits. -/
inductive SmErr where
  | noPrivs | moreParms | notOper | ssl | rsl
  deriving DecidableEq, Repr

/-- The numerics and notices the mode commands send to their client. -/
inductive Reply where
  | noSuchNick (user : Text)
  | userNotInChannel (user : Text)
  | maskEntry (list : MaskList) (mask : Text)
  | endOfMasks (list : MaskList)
  | banListFull (list : MaskList) (mask : Text)
  | needMoreParams (change : Sign) (letter : Char)
  | onlyServersCanChange
  | unknownMode (letter : Char)
  | chanOPrivsNeeded
  | noPrivileges
  | sslNotice
  | rslNotice
  | channelModeIs (modebuf parabuf : Text)
  | creationTime (channelts : Int)
  | samodeNeedsMore
  deriving DecidableEq, Repr

/-- What stays fixed during one call. `cptr` is the name of the connection. -/
structure Call where
  build : Build
  world : World
  cptr : Text
  sptr : Source
  level : Nat

/-- The variables of `set_mode`. `args` are the parameters from `parv[args]` on;
`mbuf` and `pbuf` hold what has been written so far. -/
structure Pass where
  chptr : Chan
  change : Sign
  mbuf : Text
  pbuf : Text
  args : List Text
  nmodes : Nat
  nparams : Nat
  errors : List SmErr
  seenalready : List Char
  anylistsent : Bool
  replies : List Reply

/-- `check_level`: true when the level does not suffice. -/
def Call.checkLevel (call : Call) (rlevel : Nat) : Bool :=
  decide (call.level < rlevel) && !call.sptr.isServer

def Call.maxparams (call : Call) : Nat :=
  if call.sptr.isServer || call.sptr.uline then 512 else maxModeParamsUser

def Call.prelen (call : Call) (chptr : Chan) : Nat := call.cptr.length + chptr.chname.length + 27

/-- The test in front of most changes: no room for `need` more bytes. -/
def Call.overflows (call : Call) (pass : Pass) (need : Nat) : Bool :=
  call.prelen pass.chptr + pass.mbuf.length + pass.pbuf.length + need > realModeBufLen

def Pass.error (pass : Pass) (err : SmErr) : Pass := { pass with errors := err :: pass.errors }

def Pass.reply (pass : Pass) (replies : List Reply) : Pass :=
  { pass with replies := pass.replies ++ replies }

def Pass.see (pass : Pass) (letter : Char) : Pass :=
  { pass with seenalready := letter :: pass.seenalready }

/-- A change that has been made: the channel after it, and the letter for the
line to relay. -/
def Pass.make (pass : Pass) (chptr : Chan) (letter : Char) : Pass :=
  { pass with chptr := chptr, mbuf := pass.mbuf ++ [letter], nmodes := pass.nmodes + 1 }

/-- A change with a parameter. -/
def Pass.makeWith (pass : Pass) (chptr : Chan) (letter : Char) (para : Text) : Pass :=
  { pass.make chptr letter with pbuf := addPara pass.pbuf para }

/-- `parv[args]` is taken and counted. -/
def Pass.next (pass : Pass) (args : List Text) : Pass :=
  { pass with args := args, nparams := pass.nparams + 1 }

section

variable (pass : Pass)

@[simp] theorem next_chptr (args : List Text) : (pass.next args).chptr = pass.chptr := rfl
@[simp] theorem next_change (args : List Text) : (pass.next args).change = pass.change := rfl
@[simp] theorem next_mbuf (args : List Text) : (pass.next args).mbuf = pass.mbuf := rfl
@[simp] theorem next_pbuf (args : List Text) : (pass.next args).pbuf = pass.pbuf := rfl
@[simp] theorem next_args (args : List Text) : (pass.next args).args = args := rfl
@[simp] theorem next_nparams (args : List Text) : (pass.next args).nparams = pass.nparams + 1 := rfl
@[simp] theorem next_errors (args : List Text) : (pass.next args).errors = pass.errors := rfl
@[simp] theorem reply_chptr (replies : List Reply) : (pass.reply replies).chptr = pass.chptr := rfl
@[simp] theorem reply_change (replies : List Reply) : (pass.reply replies).change = pass.change := rfl
@[simp] theorem reply_errors (replies : List Reply) : (pass.reply replies).errors = pass.errors := rfl
@[simp] theorem makeWith_chptr (chptr : Chan) (letter : Char) (para : Text) :
    (pass.makeWith chptr letter para).chptr = chptr := rfl
@[simp] theorem makeWith_change (chptr : Chan) (letter : Char) (para : Text) :
    (pass.makeWith chptr letter para).change = pass.change := rfl
@[simp] theorem makeWith_mbuf (chptr : Chan) (letter : Char) (para : Text) :
    (pass.makeWith chptr letter para).mbuf = pass.mbuf ++ [letter] := rfl
@[simp] theorem makeWith_pbuf (chptr : Chan) (letter : Char) (para : Text) :
    (pass.makeWith chptr letter para).pbuf = addPara pass.pbuf para := rfl
@[simp] theorem makeWith_args (chptr : Chan) (letter : Char) (para : Text) :
    (pass.makeWith chptr letter para).args = pass.args := rfl
@[simp] theorem makeWith_nparams (chptr : Chan) (letter : Char) (para : Text) :
    (pass.makeWith chptr letter para).nparams = pass.nparams := rfl
@[simp] theorem makeWith_errors (chptr : Chan) (letter : Char) (para : Text) :
    (pass.makeWith chptr letter para).errors = pass.errors := rfl

end

def Chan.setFlag (chptr : Chan) (flag : Flag) (change : Sign) : Chan :=
  { chptr with mode := chptr.mode.set flag (change = .plus) }

/-- `case '+'` and `case '-'`: a sign nothing followed is turned around. -/
def signMode (sign : Sign) (pass : Pass) : Pass :=
  if pass.mbuf.getLast? = some sign.other.char then
    { pass with mbuf := pass.mbuf.dropLast ++ [sign.char], change := sign }
  else if pass.change = sign then pass
  else { pass with mbuf := pass.mbuf ++ [sign.char], change := sign }

/-- `case 'S'`. -/
def sslMode (call : Call) (pass : Pass) : Pass :=
  if !call.sptr.uline && (call.checkLevel 1 || !call.sptr.umodez) then pass.error .ssl
  else pass.make (pass.chptr.setFlag .ssl pass.change) 'S'

/-- `case 'D'`. -/
def rslMode (call : Call) (pass : Pass) : Pass :=
  if !call.sptr.uline && (call.checkLevel 2 && call.sptr.ursl && !call.sptr.oper) then pass.error .rsl
  else if call.sptr.myClient && call.sptr.ursl && !call.sptr.oper then pass.error .rsl
  else pass.make (pass.chptr.setFlag .rsl pass.change) 'D'

/-- `case 'O'`. -/
def operMode (call : Call) (pass : Pass) : Pass :=
  if !call.sptr.uline && (decide (call.level < 2) || !call.sptr.oper) then pass.error .notOper
  else if call.sptr.myClient && !call.sptr.oper then pass.error .notOper
  else pass.make (pass.chptr.setFlag .operOnly pass.change) 'O'

/-- The status a letter gives and takes. -/
inductive MemberStatus where
  | chanop | halfop | voice
  deriving DecidableEq, Repr

def MemberStatus.letter : MemberStatus → Char
  | .chanop => 'o'
  | .halfop => 'h'
  | .voice => 'v'

/-- The level each of the three cases asks for. -/
def MemberStatus.level : MemberStatus → Nat
  | .chanop => 2
  | .halfop => 2
  | .voice => 1

def Member.setStatus (cm : Member) (value : Bool) : MemberStatus → Member
  | .chanop => { cm with chanop := value }
  | .halfop => { cm with halfop := value }
  | .voice => { cm with voice := value }

def Chan.setMember (chptr : Chan) (name : Text) (value : Bool) (status : MemberStatus) : Chan :=
  { chptr with members := chptr.members.map fun cm => if cm.name = name then cm.setStatus value status else cm }

/-- A server's `+o` or `+h` sets the TS to zero; its `+v` does not. -/
def Chan.blast (chptr : Chan) (call : Call) (change : Sign) (status : MemberStatus) : Chan :=
  if call.sptr.isServer && change = .plus && status ≠ .voice then { chptr with channelts := 0 } else chptr

/-- `case 'o'`, `case 'v'` and `case 'h'`. -/
def memberMode (call : Call) (status : MemberStatus) (pass : Pass) : Pass :=
  if call.checkLevel status.level then pass.error .noPrivs
  else
    match pass.args with
    | [] => pass
    | user :: args =>
      let pass := pass.next args
      if pass.nparams > call.maxparams then pass
      else
        match call.world.findChasing user with
        | none => pass.reply [.noSuchNick user, .userNotInChannel user]
        | some who =>
          match findUserMember pass.chptr.members who.name with
          | none => pass.reply [.userNotInChannel user]
          | some cm =>
            if call.overflows pass (nickLen + 1) then pass
            else
              pass.makeWith
                ((pass.chptr.setMember cm.name (pass.change = .plus) status).blast call pass.change status)
                status.letter cm.name

/-- `case 'b'`, `case 'e'` and `case 'I'`. -/
def maskMode (call : Call) (list : MaskList) (pass : Pass) : Pass :=
  match pass.args with
  | [] =>
    if pass.anylistsent then pass
    else
      { pass.reply ((pass.chptr.masks list).map (.maskEntry list) ++ [.endOfMasks list]) with
        anylistsent := true }
  | mask :: args =>
    if call.checkLevel 1 then pass.error .noPrivs
    else
      let pass := pass.next args
      if pass.nparams > call.maxparams then pass
      else if mask.head? = some ':' ∨ mask = [] then pass
      else
        let nuhbuf := Mask.canonical mask
        if call.overflows pass (nuhbuf.length + 1) then pass
        else
          match pass.change with
          | .plus =>
            match addId list call.sptr.myClient (pass.chptr.masks list) nuhbuf with
            | .error .full => pass.reply [.banListFull list nuhbuf]
            | .error .redundant => pass
            | .ok masks => pass.makeWith (pass.chptr.setMasks masks list) list.letter nuhbuf
          | .minus =>
            pass.makeWith (pass.chptr.setMasks (delId (pass.chptr.masks list) nuhbuf) list)
              list.letter nuhbuf

/-- The join rate in a parameter of `+j`: the number of joins and the seconds. -/
def readJoinRate (para : Text) : Option (Int × Int) :=
  let num := strtol (para.takeWhile (· != ':'))
  let time := if ':' ∈ para then strtol ((para.dropWhile (· != ':')).drop 1) else (0, [])
  let jTime := Decimal.toInt time.1
  let jNum := Decimal.toInt num.1
  if time.2 ≠ [] ∨ jTime < 0 then none
  else if num.2 ≠ [] ∨ jNum < 0 then none
  else some (jNum, jTime)

/-- The range limit for a client of this server below level 2. -/
def limitJoinRate (rate : Int × Int) : Int × Int :=
  let jTime := min rate.2 60
  let jNum := max (min rate.1 60) 4
  let jNum := max jNum ((jTime - 1).tdiv 8 + 1)
  (jNum, max jTime (jNum.tdiv 2))

/-- A rate with a zero in it is no limit at all. -/
def zeroJoinRate (rate : Int × Int) : Int × Int := if rate.1 = 0 ∨ rate.2 = 0 then (0, 0) else rate

def Chan.setJoinRate (chptr : Chan) (rate : Int × Int) : Chan :=
  { chptr with mode := { chptr.mode.set .joinRate true with joinNum := rate.1, joinTime := rate.2 } }

def Chan.clearJoinRate (chptr : Chan) : Chan :=
  { chptr with mode := { chptr.mode.set .joinRate false with joinNum := 0, joinTime := 0 } }

/-- `case 'j'`. -/
def joinRateMode (call : Call) (pass : Pass) : Pass :=
  if call.checkLevel 1 then pass.error .noPrivs
  else
    match pass.change with
    | .minus =>
      if call.sptr.myClient && pass.seenalready.contains 'j' then pass
      else
        let pass := pass.see 'j'
        if call.overflows pass 1 then pass else pass.make pass.chptr.clearJoinRate 'j'
    | .plus =>
      match pass.args with
      | [] => pass.error .moreParms
      | para :: args =>
        let pass := pass.next args
        if pass.nparams > call.maxparams then pass
        else if call.sptr.myClient && pass.seenalready.contains 'j' then pass
        else
          let pass := pass.see 'j'
          match readJoinRate para with
          | none => pass
          | some read =>
            let limited := if call.sptr.myClient && decide (call.level < 2) then limitJoinRate read else read
            let rate := zeroJoinRate limited
            let tmp := printJoinRate rate
            if call.overflows pass tmp.length then pass
            else pass.makeWith (pass.chptr.setJoinRate rate) 'j' tmp

def Chan.setLimit (chptr : Chan) (limit : Int) : Chan :=
  { chptr with mode := { chptr.mode with limit := limit } }

/-- `case 'l'`. -/
def limitMode (call : Call) (pass : Pass) : Pass :=
  if call.checkLevel 1 then pass.error .noPrivs
  else
    match pass.change with
    | .minus =>
      if call.sptr.myClient && pass.seenalready.contains 'l' then pass
      else
        let pass := pass.see 'l'
        if call.overflows pass 1 then pass else pass.make (pass.chptr.setLimit 0) 'l'
    | .plus =>
      match pass.args with
      | [] => pass.error .moreParms
      | para :: args =>
        let pass := pass.next args
        if pass.nparams > call.maxparams then pass
        else if call.sptr.myClient && pass.seenalready.contains 'l' then pass
        else
          let pass := pass.see 'l'
          if call.overflows pass 16 then pass
          else
            let i := atoi para
            if i < 1 then pass else pass.makeWith (pass.chptr.setLimit i) 'l' (print i)

def Chan.setKey (chptr : Chan) (key : Text) : Chan :=
  { chptr with mode := { chptr.mode with key := key } }

/-- What `case 'k'` accepts as a key. -/
def keyOk (para : Text) : Bool :=
  para ≠ [] && para.head? ≠ some ':' && !para.contains ' ' && !para.contains '*' && !para.contains ','

/-- `case 'k'`. -/
def keyMode (call : Call) (pass : Pass) : Pass :=
  if call.checkLevel 1 then pass.error .noPrivs
  else
    match pass.args with
    | [] => pass
    | para :: args =>
      let pass := pass.next args
      if pass.nparams > call.maxparams then pass
      else if call.sptr.myClient && pass.seenalready.contains 'k' then pass
      else
        let pass := pass.see 'k'
        if !keyOk para then pass
        else if call.overflows pass (keyLen + 2) then pass
        else
          match pass.change with
          | .plus => pass.makeWith (pass.chptr.setKey (para.take keyLen)) 'k' (para.take keyLen)
          | .minus =>
            let sendkey := if pass.chptr.mode.key = [] then para else pass.chptr.mode.key
            pass.makeWith (pass.chptr.setKey []) 'k' sendkey

/-- `case 'r'`. -/
def registeredMode (call : Call) (pass : Pass) : Pass :=
  if call.sptr.myClient && pass.seenalready.contains 'r' then pass
  else
    let pass := pass.see 'r'
    if !call.sptr.isServer && !call.sptr.uline then pass.reply [.onlyServersCanChange]
    else if call.overflows pass 1 then pass
    else pass.make (pass.chptr.setFlag .registered pass.change) 'r'

/-- `case 'L'`, which every build has. -/
def listedMode (call : Call) (pass : Pass) : Pass :=
  if call.sptr.myClient && pass.seenalready.contains 'L' then pass
  else
    let pass := pass.see 'L'
    if call.sptr.myClient then pass.reply [.onlyServersCanChange]
    else if call.overflows pass 1 then pass
    else pass.make (pass.chptr.setFlag .listed pass.change) 'L'

/-- The table `flags` of `set_mode`. -/
def flagTable (build : Build) : List (Char × Flag) :=
  List.flatten
    [[('p', .privateChannel), ('s', .secret), ('m', .moderated), ('n', .noPrivMsgs), ('t', .topicLimit),
        ('R', .regOnly), ('i', .inviteOnly), ('c', .noCtrl), ('O', .operOnly), ('M', .modReg), ('N', .noNick)],
      optional build.channelModeD ('D', .rsl),
      optional build.haveSsl ('S', .ssl),
      optional build.chanmodeL ('L', .listed)]

/-- The `default` case. -/
def flagMode (call : Call) (letter : Char) (pass : Pass) : Pass :=
  if call.checkLevel 1 then pass.error .noPrivs
  else if call.overflows pass 1 then pass
  else
    match (flagTable call.build).lookup letter with
    | none => if call.sptr.myClient then pass.reply [.unknownMode letter] else pass
    | some flag =>
      if call.sptr.myClient && pass.seenalready.contains letter then pass
      else (pass.see letter).make (pass.chptr.setFlag flag pass.change) letter

/-- `case 'i'`, which falls through: `-i` drops the pending invitations first. -/
def inviteOnlyMode (call : Call) (pass : Pass) : Pass :=
  if call.checkLevel 2 then pass.error .noPrivs
  else
    let chptr := if pass.change = .minus then { pass.chptr with invites := [] } else pass.chptr
    flagMode call 'i' { pass with chptr := chptr }

/-- The labels of the `switch` over a letter. -/
inductive Case where
  | sign (sign : Sign)
  | ssl
  | rsl
  | operOnly
  | member (status : MemberStatus)
  | mask (list : MaskList)
  | joinRate
  | limit
  | key
  | registered
  | listed
  | inviteOnly
  | other
  deriving DecidableEq, Repr

/-- The labels in their order; `'S'` and `'D'` only have one in some builds. -/
def caseTable (build : Build) : List (Char × Case) :=
  List.flatten
    [[('+', .sign .plus), ('-', .sign .minus)],
      optional build.haveSsl ('S', .ssl),
      optional build.channelModeD ('D', .rsl),
      [('O', .operOnly), ('o', .member .chanop), ('v', .member .voice), ('h', .member .halfop),
        ('I', .mask .invite), ('e', .mask .exempt), ('b', .mask .ban), ('j', .joinRate), ('l', .limit),
        ('k', .key), ('r', .registered), ('L', .listed), ('i', .inviteOnly)]]

/-- The label a letter jumps to. -/
def caseOf (build : Build) (letter : Char) : Case := ((caseTable build).lookup letter).getD .other

/-- The letter behind a label. -/
def Case.letter : Case → Option Char
  | .sign change => some change.char
  | .ssl => some 'S'
  | .rsl => some 'D'
  | .operOnly => some 'O'
  | .member status => some status.letter
  | .mask list => some list.letter
  | .joinRate => some 'j'
  | .limit => some 'l'
  | .key => some 'k'
  | .registered => some 'r'
  | .listed => some 'L'
  | .inviteOnly => some 'i'
  | .other => none

/-- The `switch`. -/
def change (call : Call) (letter : Char) (pass : Pass) : Case → Pass
  | .sign sign => signMode sign pass
  | .ssl => sslMode call pass
  | .rsl => rslMode call pass
  | .operOnly => operMode call pass
  | .member status => memberMode call status pass
  | .mask list => maskMode call list pass
  | .joinRate => joinRateMode call pass
  | .limit => limitMode call pass
  | .key => keyMode call pass
  | .registered => registeredMode call pass
  | .listed => listedMode call pass
  | .inviteOnly => inviteOnlyMode call pass
  | .other => flagMode call letter pass

/-- Behind the `switch`: a client of this server is told of missing parameters
at once. -/
def askMore (call : Call) (letter : Char) (pass : Pass) : Pass :=
  if pass.errors.contains .moreParms && call.sptr.myClient then
    { pass.reply [.needMoreParams pass.change letter] with
      errors := pass.errors.filter (· ≠ .moreParms) }
  else pass

/-- One turn of `while (*modes)`. -/
def setModeStep (call : Call) (pass : Pass) (letter : Char) : Pass :=
  askMore call letter (change call letter pass (caseOf call.build letter))

/-- The variables before the first letter. -/
def Pass.start (call : Call) (chptr : Chan) (args : List Text) : Pass where
  chptr := chptr
  change := .plus
  mbuf := ['+']
  pbuf := []
  args := args
  nmodes := 0
  nparams := 0
  errors := []
  seenalready := []
  anylistsent := call.sptr.isServer
  replies := []

/-- A sign that nothing follows is cut off the end. -/
def trimSign (mbuf : Text) : Text :=
  if mbuf.getLast? = some '+' ∨ mbuf.getLast? = some '-' then mbuf.dropLast else mbuf

/-- The errors that were collected, reported once each to a client of this server. -/
def errorReplies (errors : List SmErr) : List Reply :=
  (if errors.contains .noPrivs then [.chanOPrivsNeeded] else []) ++
  (if errors.contains .notOper then [.noPrivileges] else []) ++
  (if errors.contains .ssl then [.sslNotice] else []) ++
  (if errors.contains .rsl then [.rslNotice] else [])

/-- The pass over all letters. -/
def setModeRun (call : Call) (chptr : Chan) (modes : Text) (args : List Text) : Pass :=
  modes.foldl (setModeStep call) (Pass.start call chptr args)

/-- What `set_mode` leaves: the channel, the two buffers, the number of changes
and what it told its client. -/
structure Changed where
  chptr : Chan
  modebuf : Text
  parabuf : Text
  nmodes : Nat
  replies : List Reply

/-- `set_mode` with at least one parameter. -/
def setMode (call : Call) (chptr : Chan) (modes : Text) (args : List Text) : Changed :=
  let pass := setModeRun call chptr modes args
  { chptr := pass.chptr, modebuf := trimSign pass.mbuf, parabuf := pass.pbuf, nmodes := pass.nmodes
    replies := pass.replies ++ if call.sptr.myClient then errorReplies pass.errors else [] }

/-- `:%s MODE %s %ld %s %s`. -/
def modeLine (name chname : Text) (channelts : Int) (modebuf parabuf : Text) : Text :=
  ':' :: name ++ " MODE ".toList ++ chname ++ ' ' :: print channelts ++ ' ' :: modebuf ++ ' ' :: parabuf

/-- What a MODE or SAMODE leaves: the channel, the line for the other servers and
the replies. -/
structure Handled where
  chptr : Chan
  relay : Option Text
  replies : List Reply

/-- The access level `m_mode` gives a client on a channel. -/
def modeLevel (sptr : Source) (chptr : Chan) : Nat :=
  if sptr.uline && !sptr.myClient then 4
  else if sptr.sadmin && !chptr.isChanOp sptr.name && !chptr.isHalfop sptr.name && !sptr.uline &&
      !sptr.myClient then 3
  else if chptr.isChanOp sptr.name || (sptr.isServer && chptr.channelts ≠ 0) then 2
  else if chptr.isOnlyHalfop sptr.name then 1
  else 0

/-- The connection a command comes in on; a client of this server is its own. -/
structure Connection where
  name : Text
  isServer : Bool
  deriving DecidableEq, Repr

/-- The TS a server puts in front of the modes: a line about a younger channel is
dropped. -/
def stripTs (cptr : Connection) (chptr : Chan) : List Text → Option (List Text)
  | [] => some []
  | first :: rest =>
    if cptr.isServer && first.head?.any isDigit then
      let modets := atol first
      if modets ≠ 0 ∧ modets > chptr.channelts then none else some rest
    else some (first :: rest)

/-- `m_mode` on an existing channel, with the parameters behind its name. -/
def mMode (build : Build) (world : World) (cptr : Connection) (sptr : Source) (chptr : Chan)
    (parv : List Text) : Handled :=
  match parv with
  | [] =>
    let shown := (findUserMember chptr.members sptr.name).isSome || sptr.isServer || sptr.uline
    let (modebuf, parabuf) := channelModes build shown chptr.mode
    ⟨chptr, none, [.channelModeIs modebuf parabuf, .creationTime chptr.channelts]⟩
  | _ :: _ =>
    match stripTs cptr chptr parv with
    | none => ⟨chptr, none, []⟩
    | some [] => ⟨chptr, none, []⟩
    | some (modes :: args) =>
      let call : Call := ⟨build, world, cptr.name, sptr, modeLevel sptr chptr⟩
      let changed := setMode call chptr modes args
      let relay := if changed.modebuf.length > 1 ∧ changed.nmodes ≠ 0 then
        some (modeLine sptr.name chptr.chname changed.chptr.channelts changed.modebuf changed.parabuf)
        else none
      ⟨changed.chptr, relay, changed.replies⟩

/-- `m_samode` of a client of this server on an existing channel: level 2 for a
services administrator who is an operator, if only a local one. -/
def mSamode (build : Build) (world : World) (sptr : Source) (chptr : Chan) (parv : List Text) : Handled :=
  if !(sptr.oper || sptr.locop) || !sptr.sadmin then ⟨chptr, none, [.noPrivileges]⟩
  else
    match parv with
    | [] => ⟨chptr, none, [.samodeNeedsMore]⟩
    | modes :: args =>
      let call : Call := ⟨build, world, sptr.name, sptr, 2⟩
      let changed := setMode call chptr modes args
      let relay := if changed.modebuf.length > 1 then
        some (modeLine sptr.name chptr.chname 0 changed.modebuf changed.parabuf) else none
      ⟨changed.chptr, relay, changed.replies⟩

theorem overflows_eq_false_iff (call : Call) (pass : Pass) (need : Nat) :
    call.overflows pass need = false ↔
      call.prelen pass.chptr + pass.mbuf.length + pass.pbuf.length + need ≤ realModeBufLen := by
  simp [Call.overflows]

theorem caseTable_letter (build : Build) : ∀ row ∈ caseTable build, row.2.letter = some row.1 := by
  obtain ⟨haveSsl, chanmodeL, channelModeD⟩ := build
  revert haveSsl chanmodeL channelModeD
  decide

/-- A label is only reached by its own letter. -/
theorem caseOf_letter (reached : caseOf build letter = which) (known : which ≠ .other) :
    which.letter = some letter := by
  unfold caseOf at reached
  cases found : (caseTable build).lookup letter with
  | none =>
    rw [found] at reached
    exact absurd reached.symm known
  | some target =>
    rw [found] at reached
    obtain rfl : target = which := reached
    obtain ⟨before, after, rows, -⟩ := List.lookup_eq_some_iff.mp found
    exact caseTable_letter build (letter, target) (by simp [rows])

theorem caseOf_sign (build : Build) (sign : Sign) : caseOf build sign.char = .sign sign := by
  cases sign <;> rfl

@[simp] theorem error_chptr (pass : Pass) (err : SmErr) : (pass.error err).chptr = pass.chptr := rfl
@[simp] theorem error_change (pass : Pass) (err : SmErr) : (pass.error err).change = pass.change := rfl
@[simp] theorem see_chptr (pass : Pass) (letter : Char) : (pass.see letter).chptr = pass.chptr := rfl
@[simp] theorem see_change (pass : Pass) (letter : Char) : (pass.see letter).change = pass.change := rfl

@[simp] theorem askMore_chptr (call : Call) (letter : Char) (pass : Pass) :
    (askMore call letter pass).chptr = pass.chptr := by
  unfold askMore
  split <;> rfl

@[simp] theorem askMore_change (call : Call) (letter : Char) (pass : Pass) :
    (askMore call letter pass).change = pass.change := by
  unfold askMore
  split <;> rfl

@[simp] theorem signMode_chptr (sign : Sign) (pass : Pass) : (signMode sign pass).chptr = pass.chptr := by
  unfold signMode
  split
  · rfl
  · split <;> rfl

@[simp] theorem signMode_change (sign : Sign) (pass : Pass) : (signMode sign pass).change = sign := by
  unfold signMode
  split
  · rfl
  · split
    next same => exact same
    next => rfl

end SolidIrcd.Channel
