import SolidIrcd.Lib.Machine
import SolidIrcd.Whowas.Recall

/-! Two servers whose users take and change nicknames, leave and are killed: `m_nick`, `m_kill`, the prefix of a line
in `parse`, and `remove_unknown`. -/

namespace SolidIrcd.Kill

open Scan (Text)
open Whowas (ClientId Entry given lastHolder nicknameHistoryLength)

/-- What fits `name`. -/
abbrev Name := { text : Text // text.length ≤ nickLen }

/-- Whether a lookup takes two nicknames for one. -/
def Name.same (first second : Name) : Bool := mycmp first.val second.val

/-- A user of the hash table; `user` is who it is, on whichever server. -/
structure Client where
  user : ClientId
  name : Name
  tsinfo : Int
  username : Text
  host : Text
  myConnect : Bool
  deriving DecidableEq

/-- The nicknames that were given up are recorded without end; `getHistory` looks at the ring. -/
structure Server where
  clients : List Client
  log : List Entry
  timeofday : Int

/-- The lines of the link. Who is meant by a nickname stands in none of them. -/
inductive Line where
  | nick (user : ClientId) (nick : Name) (newts : Int) (username host : Text)
  | change (sender : Name) (user : ClientId) (nick : Name) (newts : Int)
  | quit (sender : Name) (user : ClientId)
  /-- From a user, or from the server. -/
  | kill (sender : Option (Name × ClientId)) (nick : Name) (victim : ClientId)
  deriving DecidableEq

/-- `KILLCHASETIMELIMIT`. -/
def killChaseTimeLimit : Int := 90

namespace Server

/-- `find_client`. -/
def findClient (server : Server) (nick : Name) : Option Client := server.clients.find? (·.name.same nick)

/-- `get_history`. -/
def getHistory (server : Server) (nick : Name) : Option Client :=
  (lastHolder (server.log.take nicknameHistoryLength) nick.val (server.timeofday - killChaseTimeLimit)).bind fun user =>
    server.clients.find? (·.user = user)

/-- `exit_client` and `remove_client_from_list`; the QUIT is sent elsewhere. -/
def exitClient (server : Server) (cptr : Client) : Server :=
  { server with
    clients := server.clients.filter (·.user ≠ cptr.user)
    log := (given cptr.user cptr.name.val server.timeofday false :: server.log).map (Entry.off cptr.user) }

/-- The end of `m_nick` for a user who has a name. -/
def rename (server : Server) (sptr : Client) (nick : Name) (tsinfo : Int) : Server :=
  { server with
    clients := server.clients.map fun cptr =>
      if cptr.user = sptr.user then { cptr with name := nick, tsinfo := tsinfo } else cptr
    log := given sptr.user sptr.name.val server.timeofday true :: server.log }

/-- The end of `m_nick` for a user of the other server. -/
def introduce (server : Server) (user : ClientId) (nick : Name) (newts : Int) (username host : Text) : Server :=
  { server with
    clients := ⟨user, nick, if newts = 0 then server.timeofday else newts, username, host, false⟩ :: server.clients }

/-- A NICK that introduces a user. -/
def mNick (server : Server) (user : ClientId) (nick : Name) (newts : Int) (username host : Text) : Server × List Line :=
  match server.findClient nick with
  | none => (server.introduce user nick newts username host, [])
  | some acptr =>
    if newts = 0 ∨ acptr.tsinfo = 0 ∨ newts = acptr.tsinfo then
      (server.exitClient acptr, [.kill none acptr.name acptr.user])
    else
      let sameuser := mycmp acptr.username username && mycmp acptr.host host
      if (sameuser ∧ newts < acptr.tsinfo) ∨ (¬ sameuser ∧ newts > acptr.tsinfo) then (server, [])
      else ((server.exitClient acptr).introduce user nick newts username host, [])

/-- The timestamp after a change. -/
def changedTs (server : Server) (sptr : Client) (nick : Name) (newts : Int) : Int :=
  if sptr.name.same nick then sptr.tsinfo else if newts = 0 then server.timeofday else newts

/-- A NICK change of a user of the other server. -/
def mNickChange (server : Server) (sptr : Client) (nick : Name) (newts : Int) : Server × List Line :=
  match server.findClient nick with
  | none => (server.rename sptr nick (server.changedTs sptr nick newts), [])
  | some acptr =>
    if acptr.user = sptr.user then
      if acptr.name = nick then (server, []) else (server.rename sptr nick (server.changedTs sptr nick newts), [])
    else if newts = 0 ∨ acptr.tsinfo = 0 ∨ newts = acptr.tsinfo then
      ((server.exitClient acptr).exitClient sptr,
        [.kill none sptr.name sptr.user, .kill none acptr.name acptr.user])
    else
      let sameuser := mycmp acptr.username sptr.username && mycmp acptr.host sptr.host
      if (sameuser ∧ newts < acptr.tsinfo) ∨ (¬ sameuser ∧ newts > acptr.tsinfo) then (server.exitClient sptr, [])
      else ((server.exitClient acptr).rename sptr nick (server.changedTs sptr nick newts), [])

/-- A KILL that comes from the link. -/
def mKill (server : Server) (nick : Name) : Server × List Line :=
  match server.findClient nick with
  | some acptr => (server.exitClient acptr, [])
  | none =>
    match server.getHistory nick with
    | none => (server, [])
    -- chasing: the KILL is changed, and goes back as well
    | some acptr => (server.exitClient acptr, [.kill none acptr.name acptr.user])

/-- A line with the prefix of a user: unknown, of the wrong direction, or done. -/
def fromUser (server : Server) (sender : Name) (user : ClientId) (act : Client → Server × List Line) :
    Server × List Line :=
  match server.findClient sender with
  | none => (server, [.kill none sender user])
  | some sptr => if sptr.myConnect then (server, []) else act sptr

/-- A line from the link, with what is sent back. -/
def receive (server : Server) : Line → Server × List Line
  | .nick user nick newts username host => server.mNick user nick newts username host
  | .change sender user nick newts => server.fromUser sender user fun sptr => server.mNickChange sptr nick newts
  | .quit sender user => server.fromUser sender user fun sptr => (server.exitClient sptr, [])
  | .kill none nick _ => server.mKill nick
  | .kill (some (sender, user)) nick _ => server.fromUser sender user fun _ => server.mKill nick

/-- A local user changes its nickname. -/
def changeNick (server : Server) (sptr : Client) (nick : Name) : Server × List Line :=
  let tsinfo := server.changedTs sptr nick 0
  (server.rename sptr nick tsinfo, [.change sptr.name sptr.user nick tsinfo])

/-- KILL by a local operator: that of another local user is a QUIT for the others. -/
def operKill (server : Server) (sptr : Client) (nick : Name) : Server × List Line :=
  match (server.findClient nick).or (server.getHistory nick) with
  | none => (server, [])
  | some acptr =>
    if acptr.myConnect then (server.exitClient acptr, [.quit acptr.name acptr.user])
    else (server.exitClient acptr, [.kill (some (sptr.name, sptr.user)) acptr.name acptr.user])

end Server

inductive Side where
  | left | right
  deriving DecidableEq

def Side.other : Side → Side
  | .left => .right
  | .right => .left

/-- Both servers, each with the lines it has yet to read. -/
structure World where
  servers : Side → Server
  inbox : Side → List Line

/-- A server has gone on and sent lines to the other. -/
def World.put (world : World) (side : Side) (result : Server × List Line) : World where
  servers := Function.update world.servers side result.1
  inbox := Function.update world.inbox side.other (world.inbox side.other ++ result.2)

/-- The next line is read. -/
def World.deliver (world : World) (side : Side) : World :=
  match world.inbox side with
  | [] => world
  | line :: rest =>
    ({ world with inbox := Function.update world.inbox side rest }).put side ((world.servers side).receive line)

inductive Action where
  | tick (side : Side) (seconds : Nat)
  /-- A local user registers. -/
  | connect (side : Side) (user : ClientId) (nick : Name) (username host : Text)
  | nick (side : Side) (sptr : Client) (nick : Name)
  | quit (side : Side) (sptr : Client)
  | kill (side : Side) (sptr : Client) (nick : Name)
  | deliver (side : Side)

def perform (world : World) : Action → World
  | .tick side seconds =>
    let server := world.servers side
    { world with
      servers := Function.update world.servers side { server with timeofday := server.timeofday + seconds } }
  | .connect side user nick username host =>
    let server := world.servers side
    world.put side
      ({ server with clients := ⟨user, nick, server.timeofday, username, host, true⟩ :: server.clients },
        [.nick user nick server.timeofday username host])
  | .nick side sptr nick => world.put side ((world.servers side).changeNick sptr nick)
  | .quit side sptr => world.put side ((world.servers side).exitClient sptr, [.quit sptr.name sptr.user])
  | .kill side sptr nick => world.put side ((world.servers side).operKill sptr nick)
  | .deliver side => world.deliver side

/-! Whom a nickname means -/

/-- The nicknames that stand in a line, and whom they mean. -/
def Line.named : Line → List (Name × ClientId)
  | .nick user name _ _ _ => [(name, user)]
  | .change sender user name _ => [(sender, user), (name, user)]
  | .quit sender user => [(sender, user)]
  | .kill sender name victim => (name, victim) :: sender.toList

def Server.named (server : Server) : List (Name × ClientId) := server.clients.map fun cptr => (cptr.name, cptr.user)

/-- A nickname means a user on one of the servers, or in a line that is on its way. -/
def World.Means (world : World) (nick : Name) (user : ClientId) : Prop :=
  ∃ side, (nick, user) ∈ (world.servers side).named ∨ ∃ line ∈ world.inbox side, (nick, user) ∈ line.named

variable (home : ClientId → Side)

/-- What a server lets its users do; a user who connects has never been there. -/
def possible (world : World) : Action → Prop
  | .tick _ _ => True
  | .connect side user nick _ _ =>
    home user = side ∧ (∀ name, ¬ world.Means name user) ∧ (world.servers side).findClient nick = none
  | .nick side sptr nick =>
    sptr ∈ (world.servers side).clients ∧ sptr.myConnect = true ∧
      ∀ acptr, (world.servers side).findClient nick = some acptr → acptr.user = sptr.user ∧ acptr.name ≠ nick
  | .quit side sptr => sptr ∈ (world.servers side).clients ∧ sptr.myConnect = true
  | .kill side sptr _ => sptr ∈ (world.servers side).clients ∧ sptr.myConnect = true
  | .deliver side => world.inbox side ≠ []

def link : Machine World Action := ⟨perform, possible home⟩

end SolidIrcd.Kill
