import SolidIrcd.Who.RwhoOptions

/-! The option string of WHO: `build_searchopts` of `m_who.c`, and what the string asks for by
the help text. -/

namespace SolidIrcd.Who

open Scan (Text)
open Umode (UModes)
open UserBan (Address cidrToNetmask inetAddr)
open Rwho (wholeNumber)

/-- A user, or another client of the global list. -/
structure Client where
  cptr : Nat
  /-- `IsClient`. -/
  isClient : Bool
  name : Text
  username : Text
  info : Text
  host : Text
  realhost : Text
  hostip : Text
  ip : Address
  away : Option Text
  uplink : Nat
  /-- `user->server`. -/
  server : Text
  tsinfo : Int
  servicetype : Nat
  umode : UModes
  /-- `IsULine`. -/
  uline : Bool
  hopcount : Nat
  /-- The channels that `user->channel` links to. -/
  channels : List Nat
  deriving DecidableEq

/-- `CHFL_CHANOP` and `CHFL_VOICE`. -/
structure Flags where
  chanop : Bool
  voice : Bool
  deriving DecidableEq

structure Member where
  cptr : Client
  flags : Flags
  deriving DecidableEq

structure Channel where
  chptr : Nat
  chname : Text
  /-- `MODE_SECRET`. -/
  secret : Bool
  /-- `MODE_PRIVATE`. -/
  hidden : Bool
  members : List Member

/-- The rest of the server. -/
structure Env where
  now : Int
  build : Build
  findChannel : Text → Option Channel
  findServer : Text → Option Nat
  /-- The name of a server. -/
  serverName : Nat → Text
  /-- What a link of `user->channel` points to. -/
  channel : Nat → Channel
  hiddenServName : Text

/-- `wsopts`. A string that is not set is NULL, and a mask that is not set is zero. -/
structure SOpts where
  umodes : UModes := ∅
  nick : Option Text := none
  user : Option Text := none
  host : Option Text := none
  gcos : Option Text := none
  ip : Option Text := none
  cidr4Ip : Address := 0
  cidr4Mask : Address := 0
  ts : Int := 0
  tsValue : Nat := 0
  channel : Option Channel := none
  server : Option Nat := none
  channelflags : Flags := ⟨false, false⟩
  clientType : Nat := 0
  umodePlus : Bool := false
  nickPlus : Bool := false
  userPlus : Bool := false
  hostPlus : Bool := false
  gcosPlus : Bool := false
  ipPlus : Bool := false
  cidr4Plus : Bool := false
  chanPlus : Bool := false
  servPlus : Bool := false
  awayPlus : Bool := false
  checkAway : Bool := false
  checkUmode : Bool := false
  showChan : Bool := false
  searchChan : Bool := false
  ipShow : Bool := false
  clientTypePlus : Bool := false

/-- Why WHO does not search. -/
inductive Refusal where
  | help
  | whoSyntax
  | noPrivileges
  | noSuchChannel (name : Text)
  | noSuchServer (name : Text)
  deriving DecidableEq, Repr

/-- The variables of `build_searchopts`: the parameters are those from `args` on. -/
structure Parser where
  wsopts : SOpts
  change : Bool
  args : List Text

/-- `parv[args]`, and then the next one. -/
def Parser.take (parser : Parser) : Except Refusal (Text × List Text) :=
  match parser.args with
  | [] => .error .whoSyntax
  | arg :: args => .ok (arg, args)

/-- A flag for operators. -/
def privileged (oper : Bool) : Except Refusal Unit := if oper then .ok () else .error .noPrivileges

/-- The number of the flags t and T. -/
def Parser.number (parser : Parser) : Except Refusal (Int × List Text) := do
  let (arg, args) ← parser.take
  match (wholeNumber arg).filter (· ≠ 0) with
  | none => .error .whoSyntax
  | some rval => .ok (rval, args)

/-- `@` and `+` in front of a channel. -/
def channelFlags : Text → Flags × Text
  | '@' :: '+' :: cname => (⟨true, true⟩, cname)
  | '@' :: cname => (⟨true, false⟩, cname)
  | '+' :: cname => (⟨false, true⟩, cname)
  | cname => (⟨false, false⟩, cname)

/-- The network of the flag i. -/
def network (address cpos : Text) : Option (Address × Address) :=
  let ipval := inetAddr address
  let (value, err) := Decimal.strtol cpos
  let maskval := (value % 4294967296).toNat
  if ipval = 0xFFFFFFFF#32 ∨ err ≠ [] ∨ maskval < 1 ∨ 32 < maskval then none
  else some (cidrToNetmask maskval, ipval &&& cidrToNetmask maskval)

/-- The modes that users may ask for. -/
def searchable : UModes := {.o, .O, .a, .A}

/-- The modes that an argument of the flag m names. -/
def namedModes (build : Build) (arg : Text) : UModes := (arg.filterMap (Umode.lookupUmode build)).toFinset

/-- One flag of the list. -/
def Parser.flag (env : Env) (oper : Bool) (parser : Parser) (c : Char) : Except Refusal Parser := do
  let wsopts := parser.wsopts
  let change := parser.change
  match c with
  | '+' => .ok { parser with change := true }
  | '-' => .ok { parser with change := false }
  | 'a' => .ok { parser with wsopts := { wsopts with awayPlus := change, checkAway := true } }
  | 'C' => .ok { parser with wsopts := { wsopts with showChan := change } }
  | 'M' => .ok { parser with wsopts := { wsopts with searchChan := change } }
  | 'c' =>
    let (arg, args) ← parser.take
    if !change then .error .whoSyntax
    match env.findChannel (channelFlags arg).2 with
    | none => .error (.noSuchChannel arg)
    | some chptr =>
      .ok { parser with
        wsopts := { wsopts with channelflags := (channelFlags arg).1, channel := some chptr, chanPlus := change }, args }
  | 'g' =>
    let (arg, args) ← parser.take
    privileged oper
    .ok { parser with wsopts := { wsopts with gcos := some arg, gcosPlus := change }, args }
  | 'h' =>
    let (arg, args) ← parser.take
    .ok { parser with wsopts := { wsopts with host := some arg, hostPlus := change }, args }
  | 't' =>
    let (rval, args) ← parser.number
    privileged oper
    .ok { parser with wsopts := { wsopts with ts := rval, tsValue := if change then 2 else 1 }, args }
  | 'T' =>
    let (rval, args) ← parser.number
    privileged oper
    .ok { parser with wsopts := { wsopts with clientType := (rval % 4294967296).toNat, clientTypePlus := change }, args }
  | 'I' =>
    privileged oper
    .ok { parser with wsopts := { wsopts with ipShow := change } }
  | 'i' =>
    let (arg, args) ← parser.take
    privileged oper
    match Mask.splitFirst '/' arg with
    | some (address, cpos) =>
      match network address cpos with
      | none => .error .whoSyntax
      | some (mask, ip) =>
        .ok { parser with wsopts := { wsopts with cidr4Plus := change, cidr4Mask := mask, cidr4Ip := ip }, args }
    | none => .ok { parser with wsopts := { wsopts with ip := some arg, ipPlus := change }, args }
  | 'm' =>
    let (arg, args) ← parser.take
    let umodes := wsopts.umodes ∪ namedModes env.build arg
    -- only let users search for +/-oOaA
    let umodes := if oper then umodes else umodes ∩ searchable
    .ok { parser with
      wsopts := { wsopts with umodes, umodePlus := change, checkUmode := wsopts.checkUmode || decide (umodes ≠ ∅) }, args }
  | 'n' =>
    let (arg, args) ← parser.take
    .ok { parser with wsopts := { wsopts with nick := some arg, nickPlus := change }, args }
  | 's' =>
    let (arg, args) ← parser.take
    if !change then .error .whoSyntax
    match env.findServer arg with
    | none => .error (.noSuchServer arg)
    | some server => .ok { parser with wsopts := { wsopts with server := some server, servPlus := change }, args }
  | 'u' =>
    let (arg, args) ← parser.take
    .ok { parser with wsopts := { wsopts with user := some arg, userPlus := change }, args }
  | _ => .error .whoSyntax

def Parser.flags (env : Env) (oper : Bool) (parser : Parser) : Text → Except Refusal Parser
  | [] => .ok parser
  | c :: flags => do
    let parser ← parser.flag env oper c
    parser.flags env oper flags

/-- Something useful goes with the flags M and C. -/
def SOpts.useful (wsopts : SOpts) : Bool :=
  wsopts.checkAway || wsopts.gcosPlus || wsopts.hostPlus || wsopts.checkUmode || wsopts.servPlus || wsopts.nickPlus ||
    wsopts.userPlus || wsopts.tsValue != 0 || wsopts.clientTypePlus || wsopts.ipPlus

def isChannelName (text : Text) : Bool := text.head? == some '#' || text.head? == some '&'

def SOpts.setHost (wsopts : SOpts) (arg : Text) : SOpts := { wsopts with hostPlus := true, host := some arg }

def SOpts.setNick (wsopts : SOpts) (arg : Text) : SOpts := { wsopts with nickPlus := true, nick := some arg }

/-- A parameter with a dot in it is an address, and otherwise a nick. -/
def SOpts.hostOrNick (wsopts : SOpts) (arg : Text) : SOpts := if '.' ∈ arg then wsopts.setHost arg else wsopts.setNick arg

/-- M and C without anything useful take the next parameter. -/
def Parser.finish (parser : Parser) : Except Refusal SOpts :=
  let wsopts := parser.wsopts
  if wsopts.searchChan && !wsopts.useful then
    match parser.args with
    | [] => .error .whoSyntax
    | arg :: _ =>
      if wsopts.channel.isSome || wsopts.nick.isSome || isChannelName arg then .error .whoSyntax
      else if '.' ∈ arg then .ok (wsopts.setHost arg)
      else .error .whoSyntax
  else if wsopts.showChan && !(wsopts.useful || wsopts.chanPlus || decide (wsopts.cidr4Mask ≠ 0)) then
    match parser.args with
    | [] => .error .whoSyntax
    | arg :: _ => .ok (wsopts.hostOrNick arg)
  else .ok wsopts

/-- `build_searchopts`. -/
def buildSearchopts (env : Env) (oper : Bool) : List Text → Except Refusal SOpts
  | [] => .error .help
  | first :: args =>
    if first.head? = some '?' then .error .help
    else if first = ['0'] then
      let wsopts : SOpts := { hostPlus := true, host := some ['*'] }
      if args.head?.any (·.head? == some 'o') then
        .ok { wsopts with checkUmode := true, umodePlus := true, umodes := {.o} }
      else .ok wsopts
    else if first.head? ≠ some '+' ∧ first.head? ≠ some '-' then
      if isChannelName first then
        match env.findChannel first with
        | none => .error (.noSuchChannel first)
        | some chptr => .ok { channel := some chptr }
      else .ok (({} : SOpts).hostOrNick first)
    else do
      let parser ← Parser.flags env oper ⟨{}, true, args⟩ first
      parser.finish

end SolidIrcd.Who
