import Mathlib.Data.List.Basic
import SolidIrcd.Lib.Machine
import SolidIrcd.Lib.Scan

/-! How two servers find out that they know the same: each sends a burst of users, the other answers the PING at its
end, then comes the burst of topics, and with the next answer the end of the burst can be told. -/

namespace SolidIrcd.Netburst

open Scan (Text)
open Function (update)

/-- What goes over the link; `server` stands for PASS, CAPAB and SERVER, which are sent together, and `eob` has the
length of the sendQ. -/
inductive Line where
  | server
  | burst
  | user (line : Text)
  | topic (line : Text)
  | eob (sendq : Nat)
  | ping
  | pong
  | data (line : Text)
  deriving DecidableEq

/-- What is told of the burst. -/
def Line.told : Line → Bool
  | .burst | .user _ | .topic _ | .eob _ => true
  | _ => false

def Line.isEob : Line → Bool
  | .eob _ => true
  | _ => false

/-- The flags of the other server. What was sent in the bursts, the sendQ that was told, and how often it was told that
the servers have synched, is kept to speak of. -/
structure Conn where
  handshake : Bool
  server : Bool
  userBurst : Bool
  topicBurst : Bool
  pingSent : Bool
  sobSent : Bool
  eobRecv : Bool
  users : List Text
  topics : List Text
  sendq : Nat
  synched : Nat

/-- `do_server_estab`; `users` is all that comes between BURST and PING. -/
def doServerEstab (cptr : Conn) (users : List Text) : Conn × List Line :=
  ({ cptr with
      server := true, userBurst := true, topicBurst := true, pingSent := true, sobSent := true, users := users },
    .burst :: (users.map .user ++ [.ping]))

/-- `m_server` and `m_server_estab`, of a connection that is not refused. -/
def mServer (cptr : Conn) (users : List Text) : Conn × List Line :=
  if cptr.server then (cptr, [])
  else if cptr.handshake then doServerEstab cptr users
  else ((doServerEstab cptr users).1, .server :: (doServerEstab cptr users).2)

/-- `m_burst`, with the sendQ where it is the end of the burst. -/
def mBurst (cptr : Conn) (eob : Bool) : Conn × List Line :=
  if !cptr.server then (cptr, [])
  else if eob then
    let cptr := { cptr with eobRecv := false }
    if cptr.sobSent || cptr.userBurst || cptr.topicBurst then (cptr, [])
    else ({ cptr with synched := cptr.synched + 1 }, [])
  else ({ cptr with eobRecv := true }, [])

/-- `m_ping`, of a PING for this server. -/
def mPing (cptr : Conn) : Conn × List Line := (cptr, [.pong])

/-- `m_pong`; `topics` is what `send_topic_burst` has to send. -/
def mPong (cptr : Conn) (topics : List Text) : Conn × List Line :=
  let cptr := { cptr with pingSent := false }
  if cptr.server then
    if cptr.userBurst then
      ({ cptr with userBurst := false, pingSent := true, sobSent := true, topics := topics },
        topics.map .topic ++ [.ping])
    else if cptr.topicBurst then ({ cptr with topicBurst := false }, [.ping])
    else (cptr, [])
  else (cptr, [])

/-- The end of `send_queued`, when `left` is the length of the sendQ. -/
def sendQueued (cptr : Conn) (left : Nat) : Conn × List Line :=
  if cptr.sobSent && left < 20480 then
    if !(cptr.userBurst || cptr.topicBurst) then ({ cptr with sobSent := false, sendq := left }, [.eob left])
    else (cptr, [])
  else (cptr, [])

/-- `check_pings`, of a connection that has not been heard of for some time. -/
def checkPings (cptr : Conn) : Conn × List Line :=
  if !(cptr.pingSent || cptr.userBurst || cptr.topicBurst) then ({ cptr with pingSent := true }, [.ping])
  else (cptr, [])

/-- What is done with a line. -/
def receive (cptr : Conn) (users topics : List Text) : Line → Conn × List Line
  | .server => mServer cptr users
  | .burst => mBurst cptr false
  | .eob _ => mBurst cptr true
  | .ping => mPing cptr
  | .pong => mPong cptr topics
  | .user _ | .topic _ | .data _ => (cptr, [])

inductive Side where
  | connector
  | acceptor
  deriving DecidableEq

def Side.other : Side → Side
  | connector => acceptor
  | acceptor => connector

@[simp] theorem Side.other_other (side : Side) : side.other.other = side := by cases side <;> rfl

theorem Side.other_ne (side : Side) : side.other ≠ side := by cases side <;> simp [Side.other]

theorem Side.all {P : Side → Prop} (side : Side) (holds : P side) (others : P side.other) (side' : Side) :
    P side' := by
  cases side <;> cases side' <;> assumption

/-- The two ends; `inbox` is on the way to a side, in a sendQ or a socket, and `heard` what it has dealt with. -/
structure State where
  conn : Side → Conn
  inbox : Side → List Line
  heard : Side → List Line

/-- All that a side has sent. -/
def State.sent (state : State) (side : Side) : List Line := state.heard side.other ++ state.inbox side.other

/-- A side comes to be as it is, and sends something. -/
def State.put (state : State) (side : Side) (done : Conn × List Line) : State :=
  { state with
    conn := update state.conn side done.1
    inbox := update state.inbox side.other (state.inbox side.other ++ done.2) }

/-- A side takes a line from its inbox. -/
def State.take (state : State) (side : Side) (line : Line) (rest : List Line) : State :=
  { state with
    inbox := update state.inbox side rest
    heard := update state.heard side (state.heard side ++ [line]) }

def unknown (handshake : Bool) : Conn :=
  ⟨handshake, false, false, false, false, false, false, [], [], 0, 0⟩

/-- The one that connects has sent SERVER. -/
def start : State where
  conn := fun side => unknown (side = .connector)
  inbox := fun side => if side = .acceptor then [.server] else []
  heard := fun _ => []

inductive Action where
  | process (side : Side) (users topics : List Text)
  | sendQueued (side : Side) (left : Nat)
  | checkPings (side : Side)
  /-- A PING for the other server that comes from somewhere behind this one. -/
  | ask (side : Side)
  | say (side : Side) (line : Text)

def perform (state : State) : Action → State
  | .process side users topics =>
    match state.inbox side with
    | [] => state
    | line :: rest => (state.take side line rest).put side (receive (state.conn side) users topics line)
  | .sendQueued side left => state.put side (sendQueued (state.conn side) left)
  | .checkPings side => if (state.conn side).server then state.put side (checkPings (state.conn side)) else state
  | .ask side => if (state.conn side).server then state.put side (state.conn side, [.ping]) else state
  | .say side line => if (state.conn side).server then state.put side (state.conn side, [.data line]) else state

def machine : Machine State Action := ⟨perform, fun _ _ => True⟩

/-- Nothing is on the way, and there is nothing more to send. -/
def State.Quiet (state : State) : Prop :=
  ∀ side, state.inbox side = [] ∧ (sendQueued (state.conn side) 0).2 = []

/-- What a server has told of its burst, as it finds itself. -/
def Conn.told (cptr : Conn) : List Line :=
  if cptr.server then
    .burst :: (cptr.users.map .user ++ (if cptr.userBurst then [] else cptr.topics.map .topic) ++
      (if cptr.sobSent then [] else [.eob cptr.sendq]))
  else []

/-- All of a burst. -/
def Conn.whole (cptr : Conn) : List Line :=
  .burst :: (cptr.users.map .user ++ cptr.topics.map .topic ++ [.eob cptr.sendq])

/-- What one side knows of the other, and what it has sent and heard. -/
structure Good (cptr : Conn) (sent heard : List Line) : Prop where
  opens : sent = [] ∨ ∃ rest, sent = .server :: rest
  estab : .server ∈ heard → cptr.server = true
  before : cptr.server = false → sent = (if cptr.handshake then [.server] else []) ∧ cptr.sobSent = false ∧
    cptr.synched = 0
  names : cptr.server = true → .server ∈ sent
  told : sent.filter Line.told = cptr.told
  first : cptr.server = true → .ping ∈ sent ∧
    (sent.takeWhile (· ≠ .ping)).filter Line.told = .burst :: cptr.users.map .user
  users : cptr.userBurst = (cptr.server && heard.count .pong == 0)
  topics : cptr.topicBurst = (cptr.server && heard.count .pong ≤ 1)
  replies : sent.count .pong = heard.count .ping
  pings : 1 ≤ heard.count .pong → 2 ≤ sent.count .ping
  sob : cptr.sobSent = false → cptr.topicBurst = false
  synched : cptr.synched ≤ heard.countP Line.isEob
  done : 1 ≤ cptr.synched → cptr.sobSent = false
  eob : cptr.eobRecv = (decide (.burst ∈ heard) && heard.countP Line.isEob == 0)

section

variable {cptr : Conn} {sent heard : List Line}

/-- What comes after a PING does not change what came before it. -/
theorem takeWhile_append_of_mem (member : .ping ∈ sent) (out : List Line) :
    (sent ++ out).takeWhile (· ≠ .ping) = sent.takeWhile (· ≠ .ping) := by
  induction sent with
  | nil => exact absurd member List.not_mem_nil
  | cons line sent ih =>
    by_cases same : line = .ping
    · simp [same]
    · have rest := (List.mem_cons.mp member).resolve_left (Ne.symm same)
      rw [List.cons_append, List.takeWhile_cons_of_pos (by simpa using same),
        List.takeWhile_cons_of_pos (by simpa using same), ih rest]

/-- One more line is heard, or none, and lines are sent. -/
theorem Good.next (good : Good cptr sent heard) (server : cptr.server = true)
    (server' : cptr'.server = true) (same : cptr'.users = cptr.users)
    (told : cptr'.told = cptr.told ++ out.filter Line.told)
    (users : cptr'.userBurst = (heard.count .pong + more.count .pong == 0))
    (topics : cptr'.topicBurst = decide (heard.count .pong + more.count .pong ≤ 1))
    (replies : out.count .pong = more.count .ping)
    (pings : 1 ≤ more.count .pong → cptr.userBurst = true → 1 ≤ out.count .ping)
    (sob : cptr'.sobSent = false → cptr'.topicBurst = false)
    (synched : cptr'.synched ≤ heard.countP Line.isEob + more.countP Line.isEob)
    (done : 1 ≤ cptr'.synched → cptr'.sobSent = false)
    (eob : cptr'.eobRecv = ((decide (.burst ∈ heard) || decide (.burst ∈ more)) &&
      heard.countP Line.isEob + more.countP Line.isEob == 0)) :
    Good cptr' (sent ++ out) (heard ++ more) := by
  obtain ⟨ping, first⟩ := good.first server
  refine ⟨?_, fun _ => server', fun no => absurd server' (no ▸ nofun), ?_, ?_, fun _ => ⟨?_, ?_⟩, ?_, ?_, ?_, ?_, sob,
    ?_, done, ?_⟩
  · rcases good.opens with none | ⟨rest, shape⟩
    · exact absurd ping (none ▸ List.not_mem_nil)
    · exact .inr ⟨rest ++ out, by rw [shape, List.cons_append]⟩
  · exact fun _ => List.mem_append_left _ (good.names server)
  · rw [List.filter_append, good.told, told]
  · exact List.mem_append_left _ ping
  · rw [takeWhile_append_of_mem ping, first, same]
  · rw [users, server', Bool.true_and, List.count_append]
  · rw [topics, server', Bool.true_and, List.count_append]
  · rw [List.count_append, List.count_append, good.replies, replies]
  · intro answered
    have one : 1 ≤ sent.count .ping := List.one_le_count_iff.mpr ping
    rw [List.count_append] at answered ⊢
    by_cases already : 1 ≤ heard.count .pong
    · have two := good.pings already
      omega
    · have none : heard.count .pong = 0 := by omega
      have again := pings (by omega) (by rw [good.users, server, none]; rfl)
      omega
  · rw [List.countP_append]
    exact synched
  · rw [List.countP_append, eob]
    simp only [List.mem_append, Bool.decide_or]

/-- Nothing comes of a line, or of no line at all, but lines that say nothing of the burst. -/
theorem Good.passes (good : Good cptr sent heard) (server : cptr.server = true) (pingSent : Bool) (out more : List Line)
    (silent : out.filter Line.told = []) (replies : out.count .pong = more.count .ping)
    (plain : more.count .pong = 0 ∧ .burst ∉ more ∧ more.countP Line.isEob = 0) :
    Good { cptr with pingSent := pingSent } (sent ++ out) (heard ++ more) := by
  obtain ⟨pong, burst, eob⟩ := plain
  apply good.next server
  · exact server
  · rfl
  · simp [Conn.told, silent]
  · simp [good.users, server, pong]
  · simp [good.topics, server, pong]
  · exact replies
  · simp [pong]
  · exact good.sob
  · rw [eob]
    exact good.synched
  · exact good.done
  · simp [good.eob, burst, eob]

theorem Good.burst (good : Good cptr sent heard) (server : cptr.server = true)
    (fresh : heard.countP Line.isEob = 0) :
    Good (mBurst cptr false).1 (sent ++ (mBurst cptr false).2) (heard ++ [.burst]) := by
  have comes : mBurst cptr false = ({ cptr with eobRecv := true }, []) := by simp [mBurst, server]
  rw [comes]
  apply good.next server
  · exact server
  · rfl
  · simp [Conn.told]
  · simp [good.users, server]
  · simp [good.topics, server]
  · rfl
  · simp
  · exact good.sob
  · exact good.synched
  · exact good.done
  · simp [fresh, Line.isEob]

theorem Good.burst_end (good : Good cptr sent heard) (server : cptr.server = true) (sendq : Nat) :
    Good (mBurst cptr true).1 (sent ++ (mBurst cptr true).2) (heard ++ [.eob sendq]) := by
  by_cases busy : (cptr.sobSent || cptr.userBurst || cptr.topicBurst) = true
  · have comes : mBurst cptr true = ({ cptr with eobRecv := false }, []) := by simp [mBurst, server, busy]
    rw [comes]
    apply good.next server
    · exact server
    · rfl
    · simp [Conn.told]
    · simp [good.users, server]
    · simp [good.topics, server]
    · rfl
    · simp
    · exact good.sob
    · exact Nat.le_succ_of_le good.synched
    · exact good.done
    · simp [Line.isEob]
  · have comes : mBurst cptr true = ({ cptr with eobRecv := false, synched := cptr.synched + 1 }, []) := by
      simp [mBurst, server, busy]
    simp only [Bool.or_eq_true, not_or, Bool.not_eq_true] at busy
    rw [comes]
    apply good.next server
    · exact server
    · rfl
    · simp [Conn.told]
    · simp [good.users, server]
    · simp [good.topics, server]
    · rfl
    · simp
    · exact good.sob
    · exact Nat.succ_le_succ good.synched
    · exact fun _ => busy.1.1
    · simp [Line.isEob]

theorem filter_topics (topics : List Text) :
    (topics.map Line.topic ++ [Line.ping]).filter Line.told = topics.map Line.topic := by
  rw [List.filter_append, List.filter_eq_self.mpr]
  · exact List.append_nil _
  · intro line member
    obtain ⟨topic, _, rfl⟩ := List.mem_map.mp member
    rfl

theorem filter_users (users : List Text) : (users.map Line.user).filter Line.told = users.map Line.user := by
  apply List.filter_eq_self.mpr
  intro line member
  obtain ⟨user, _, rfl⟩ := List.mem_map.mp member
  rfl

/-- The first answer ends the burst of users, the second that of topics. -/
theorem Good.pong (good : Good cptr sent heard) (server : cptr.server = true) (topics : List Text) :
    Good (mPong cptr topics).1 (sent ++ (mPong cptr topics).2) (heard ++ [.pong]) := by
  have users := good.users
  have topic := good.topics
  rw [server, Bool.true_and] at users topic
  have eob : cptr.eobRecv = ((decide (.burst ∈ heard) || decide (.burst ∈ [Line.pong])) &&
      heard.countP Line.isEob + [Line.pong].countP Line.isEob == 0) := by
    simp [good.eob, Line.isEob]
  by_cases first : cptr.userBurst = true
  · have none : heard.count .pong = 0 := by simpa [first] using users.symm
    have still : cptr.sobSent = true := by
      by_contra sob
      have no := good.sob (Bool.not_eq_true _ ▸ sob)
      simp [none, no] at topic
    have comes : mPong cptr topics = ({ cptr with
        pingSent := true, userBurst := false, sobSent := true, topics := topics }, topics.map .topic ++ [.ping]) := by
      simp [mPong, server, first]
    rw [comes]
    apply good.next server
    · exact server
    · rfl
    · show _ = _ ++ (topics.map Line.topic ++ [Line.ping]).filter Line.told
      rw [filter_topics]
      simp [Conn.told, first, still, server]
    · simp
    · simp [none, topic]
    · simp only [List.count_append]
      simp [List.count_eq_zero]
    · simp [List.count_append]
    · simp
    · exact good.synched
    · exact fun synched => absurd (good.done synched) (by simp [still])
    · exact eob
  · have answered : heard.count .pong ≠ 0 := by simpa [first] using users.symm
    by_cases second : cptr.topicBurst = true
    · have one : heard.count .pong ≤ 1 := by simpa [second] using topic.symm
      have comes : mPong cptr topics = ({ cptr with pingSent := false, topicBurst := false }, [.ping]) := by
        simp [mPong, server, first, second]
      rw [comes]
      apply good.next server
      · exact server
      · rfl
      · simp [Conn.told, Line.told]
      · simp [first]
      · simpa using answered
      · simp
      · simp
      · simp
      · exact good.synched
      · exact good.done
      · exact eob
    · have two : ¬ heard.count .pong ≤ 1 := by simpa [second] using topic.symm
      have comes : mPong cptr topics = ({ cptr with pingSent := false }, []) := by
        simp [mPong, server, first, second]
      rw [comes]
      apply good.next server
      · exact server
      · rfl
      · simp [Conn.told]
      · simp [first]
      · simp [second, answered]
      · simp
      · simp [first]
      · exact good.sob
      · exact good.synched
      · exact good.done
      · exact eob

/-- With SERVER from the other side the link is there. -/
theorem Good.server (good : Good cptr sent []) (unknown : cptr.server = false) (users : List Text) :
    Good (mServer cptr users).1 (sent ++ (mServer cptr users).2) [.server] := by
  obtain ⟨before, _, synched⟩ := good.before unknown
  have comes : (mServer cptr users).1 = (doServerEstab cptr users).1 ∧
      sent ++ (mServer cptr users).2 = .server :: .burst :: (users.map .user ++ [.ping]) := by
    cases shakes : cptr.handshake <;> simp [mServer, unknown, shakes, before, doServerEstab]
  rw [comes.1, comes.2]
  have eob : cptr.eobRecv = false := by simpa using good.eob
  have stops : (users.map Line.user ++ [Line.ping]).takeWhile (· ≠ .ping) = users.map .user := by
    rw [List.takeWhile_append_of_pos]
    · simp
    · intro line member
      obtain ⟨user, _, rfl⟩ := List.mem_map.mp member
      rfl
  refine ⟨.inr ⟨_, rfl⟩, fun _ => rfl, nofun, fun _ => List.mem_cons_self, ?_, fun _ => ⟨by simp, ?_⟩, rfl, rfl, ?_, ?_,
    nofun, ?_, ?_, ?_⟩
  · have rest : (users.map Line.user ++ [Line.ping]).filter Line.told = users.map .user := by
      rw [List.filter_append, filter_users]
      exact List.append_nil _
    show Line.burst :: (users.map Line.user ++ [Line.ping]).filter Line.told =
      .burst :: (users.map Line.user ++ [] ++ [])
    rw [rest, List.append_nil, List.append_nil]
  · show (Line.server :: .burst :: ((users.map Line.user ++ [Line.ping]).takeWhile (· ≠ .ping))).filter Line.told = _
    rw [stops]
    show Line.burst :: (users.map Line.user).filter Line.told = _
    rw [filter_users]
    rfl
  · simp [List.count_append, List.count_eq_zero]
  · simp
  · simp [doServerEstab, synched]
  · simp [doServerEstab, synched]
  · simp [doServerEstab, eob]

/-- The end of a burst is told when both bursts have been answered. -/
theorem Good.queue (good : Good cptr sent heard) (left : Nat) :
    Good (sendQueued cptr left).1 (sent ++ (sendQueued cptr left).2) heard := by
  by_cases ready : (cptr.sobSent && decide (left < 20480) && !(cptr.userBurst || cptr.topicBurst)) = true
  · simp only [Bool.and_eq_true, Bool.not_eq_true', Bool.or_eq_false_iff, decide_eq_true_eq] at ready
    obtain ⟨⟨sob, short⟩, users, topics⟩ := ready
    have server : cptr.server = true := by
      cases unknown : cptr.server with
      | true => rfl
      | false => simp [(good.before unknown).2.1] at sob
    have comes : sendQueued cptr left = ({ cptr with sobSent := false, sendq := left }, [.eob left]) := by
      simp [sendQueued, sob, short, users, topics]
    rw [comes, ← List.append_nil heard]
    have user := good.users
    have topic := good.topics
    rw [server, Bool.true_and] at user topic
    apply good.next server
    · exact server
    · rfl
    · show _ = _ ++ [Line.eob left]
      simp [Conn.told, server, users, sob]
    · exact user
    · exact topic
    · rfl
    · simp
    · exact fun _ => topics
    · exact good.synched
    · exact fun _ => rfl
    · simp [good.eob]
  · have comes : sendQueued cptr left = (cptr, []) := by
      simp only [sendQueued]
      split_ifs <;> simp_all
    rw [comes, List.append_nil]
    exact good

theorem Good.receive (good : Good cptr sent heard) (server : cptr.server = true) (line : Line)
    (fresh : line = .burst → heard.countP Line.isEob = 0) (users topics : List Text) :
    Good (Netburst.receive cptr users topics line).1 (sent ++ (Netburst.receive cptr users topics line).2)
      (heard ++ [line]) := by
  cases line with
  | server =>
    have comes : mServer cptr users = (cptr, []) := by simp [mServer, server]
    simp only [Netburst.receive, comes]
    exact good.passes server cptr.pingSent [] [.server] rfl rfl (by simp [Line.isEob])
  | burst => exact good.burst server (fresh rfl)
  | eob sendq => exact good.burst_end server sendq
  | ping => exact good.passes server cptr.pingSent [.pong] [.ping] rfl rfl (by simp [Line.isEob])
  | pong => exact good.pong server topics
  | user line => exact good.passes server cptr.pingSent [] [.user line] rfl rfl (by simp [Line.isEob])
  | topic line => exact good.passes server cptr.pingSent [] [.topic line] rfl rfl (by simp [Line.isEob])
  | data line => exact good.passes server cptr.pingSent [] [.data line] rfl rfl (by simp [Line.isEob])

theorem countP_told (cptr : Conn) :
    cptr.told.countP Line.isEob = if cptr.server = true ∧ cptr.sobSent = false then 1 else 0 := by
  have users (lines : List Text) : (lines.map Line.user).countP Line.isEob = 0 := by
    simp [List.countP_eq_zero, Line.isEob]
  have topics (lines : List Text) : (lines.map Line.topic).countP Line.isEob = 0 := by
    simp [List.countP_eq_zero, Line.isEob]
  cases server : cptr.server <;> cases sob : cptr.sobSent <;> cases busy : cptr.userBurst <;>
    simp [Conn.told, server, sob, busy, List.countP_append, List.countP_cons, users, topics, Line.isEob]

theorem countP_isEob (lines : List Line) : (lines.filter Line.told).countP Line.isEob = lines.countP Line.isEob := by
  rw [List.countP_filter]
  apply List.countP_congr
  intro line _
  cases line <;> simp [Line.isEob, Line.told]

/-- Who has told that its burst has ended has had both answers. -/
theorem Good.ended (good : Good cptr sent heard) (told : 1 ≤ sent.countP Line.isEob) :
    cptr.server = true ∧ cptr.sobSent = false ∧ cptr.userBurst = false ∧ cptr.topicBurst = false := by
  rw [← countP_isEob, good.told, countP_told] at told
  split_ifs at told with ended
  · have topic := good.sob ended.2
    have users := good.users
    have topics := good.topics
    rw [topic, ended.1, Bool.true_and, eq_comm, decide_eq_false_iff_not] at topics
    refine ⟨ended.1, ended.2, ?_, topic⟩
    rw [users, ended.1, Bool.true_and, beq_eq_false_iff_ne]
    omega
  · omega

theorem Good.ends_once (good : Good cptr sent heard) : sent.countP Line.isEob ≤ 1 := by
  rw [← countP_isEob, good.told, countP_told]
  split_ifs <;> decide

end

/-- What holds after any run. -/
structure Sane (state : State) : Prop where
  good : ∀ side, Good (state.conn side) (state.sent side) (state.heard side)
  connects : ∀ side, (state.conn side).handshake = decide (side = .connector)
  synched : (∀ side, 1 ≤ (state.heard side).countP Line.isEob) → ∃ side, 1 ≤ (state.conn side).synched

section

variable {state : State} {side : Side}

theorem sent_put_self (state : State) (side : Side) (done : Conn × List Line) :
    (state.put side done).sent side = state.sent side ++ done.2 := by
  simp [State.sent, State.put]

theorem sent_put_other (state : State) (side : Side) (done : Conn × List Line) :
    (state.put side done).sent side.other = state.sent side.other := by
  simp [State.sent, State.put, (Side.other_ne side).symm]

theorem sent_take (full : state.inbox side = line :: rest) (side' : Side) :
    (state.take side line rest).sent side' = state.sent side' := by
  unfold State.sent State.take
  by_cases same : side'.other = side
  · subst same
    simp [full]
  · simp [same]

theorem sane_put {done : Conn × List Line}
    (good : Good done.1 (state.sent side ++ done.2) (state.heard side))
    (others : Good (state.conn side.other) (state.sent side.other) (state.heard side.other))
    (connects : ∀ side, (state.conn side).handshake = decide (side = .connector))
    (same : done.1.handshake = (state.conn side).handshake)
    (synched : (∀ side, 1 ≤ (state.heard side).countP Line.isEob) →
      1 ≤ done.1.synched ∨ 1 ≤ (state.conn side.other).synched) : Sane (state.put side done) := by
  have self : (state.put side done).conn side = done.1 := by simp [State.put]
  have other : (state.put side done).conn side.other = state.conn side.other := by simp [State.put, Side.other_ne]
  refine ⟨?_, ?_, ?_⟩
  · refine Side.all side ?_ ?_
    · rw [self, sent_put_self]
      exact good
    · rw [other, sent_put_other]
      exact others
  · refine Side.all side ?_ ?_
    · rw [self, same]
      exact connects side
    · rw [other]
      exact connects side.other
  · intro both
    rcases synched both with here | there
    · exact ⟨side, self ▸ here⟩
    · exact ⟨side.other, other ▸ there⟩

/-- A side does something of its own accord. -/
theorem Sane.put (sane : Sane state) {done : Conn × List Line}
    (good : Good done.1 (state.sent side ++ done.2) (state.heard side))
    (same : done.1.handshake = (state.conn side).handshake) (more : (state.conn side).synched ≤ done.1.synched) :
    Sane (state.put side done) := by
  refine sane_put good (sane.good side.other) sane.connects same fun both => ?_
  obtain ⟨side', told⟩ := sane.synched both
  by_cases here : side' = side
  · exact .inl ((here ▸ told).trans more)
  · have there : side' = side.other := by cases side <;> cases side' <;> first | rfl | exact absurd rfl here
    exact .inr (there ▸ told)

theorem receive_keeps (cptr : Conn) (users topics : List Text) (line : Line) :
    (receive cptr users topics line).1.handshake = cptr.handshake ∧
      cptr.synched ≤ (receive cptr users topics line).1.synched := by
  cases line <;> simp only [receive, mServer, mBurst, mPing, mPong, doServerEstab] <;> (try split_ifs) <;> simp

/-- The first line that comes is SERVER, and no other does before the link is there. -/
theorem Sane.head (sane : Sane state) (full : state.inbox side = line :: rest) :
    (state.conn side).server = true ∨ line = .server ∧ state.heard side = [] := by
  cases known : (state.conn side).server with
  | true => exact .inl rfl
  | false =>
    right
    have sent : state.sent side.other = state.heard side ++ line :: rest := by simp [State.sent, full]
    rcases (sane.good side.other).opens with none | ⟨others, shape⟩
    · simp [sent] at none
    · rw [sent] at shape
      cases nothing : state.heard side with
      | nil =>
        rw [nothing] at shape
        exact ⟨(List.cons.inj shape).1, rfl⟩
      | cons first heard =>
        rw [nothing] at shape
        have estab := (sane.good side).estab (nothing ▸ (List.cons.inj shape).1 ▸ List.mem_cons_self)
        rw [known] at estab
        contradiction

/-- BURST comes before all that is told of a burst. -/
theorem Sane.burst_first (sane : Sane state) (full : state.inbox side = .burst :: rest) :
    (state.heard side).countP Line.isEob = 0 := by
  have told := (sane.good side.other).told
  have sent : state.sent side.other = state.heard side ++ .burst :: rest := by simp [State.sent, full]
  rw [sent, List.filter_append] at told
  rw [← countP_isEob]
  cases heard : (state.heard side).filter Line.told with
  | nil => rfl
  | cons first others =>
    have again : .burst ∈ (state.conn side.other).told.tail := by
      rw [← told, heard]
      simp [Line.told]
    unfold Conn.told at again
    split_ifs at again <;> simp at again

theorem Sane.process (sane : Sane state) (side : Side) (users topics : List Text) :
    Sane (perform state (.process side users topics)) := by
  cases full : state.inbox side with
  | nil => simpa only [perform, full] using sane
  | cons line rest =>
    simp only [perform, full]
    have good : Good (receive (state.conn side) users topics line).1
        (state.sent side ++ (receive (state.conn side) users topics line).2) (state.heard side ++ [line]) := by
      rcases sane.head full with server | ⟨rfl, nothing⟩
      · exact (sane.good side).receive server line (fun same => sane.burst_first (same ▸ full)) users topics
      · have good := sane.good side
        cases server : (state.conn side).server with
        | true => exact good.receive server .server nofun users topics
        | false =>
          rw [nothing] at good ⊢
          exact good.server server users
    obtain ⟨same, more⟩ := receive_keeps (state.conn side) users topics line
    have here : (state.take side line rest).heard side = state.heard side ++ [line] := by simp [State.take]
    have there : (state.take side line rest).heard side.other = state.heard side.other := by
      simp [State.take, Side.other_ne]
    apply sane_put
    · rw [here, sent_take full]
      exact good
    · rw [there, sent_take full]
      exact sane.good side.other
    · exact sane.connects
    · exact same
    · intro both
      by_cases already : 1 ≤ (state.heard side).countP Line.isEob
      · obtain ⟨side', told⟩ := sane.synched (Side.all side already (there ▸ both side.other))
        by_cases same' : side' = side
        · exact .inl ((same' ▸ told).trans more)
        · have other : side' = side.other := by cases side <;> cases side' <;> first | rfl | exact absurd rfl same'
          exact .inr (other ▸ told)
      · -- The last of the two ends has just been heard; the other side had ours before.
        have now := both side
        rw [here, List.countP_append] at now
        have now' : 1 ≤ [line].countP Line.isEob := by omega
        have sent : 1 ≤ (state.sent side).countP Line.isEob := by
          rw [State.sent, List.countP_append]
          have heard := there ▸ both side.other
          omega
        obtain ⟨server, sob, user, topic⟩ := (sane.good side).ended sent
        left
        cases line with
        | eob sendq => simp [receive, mBurst, server, sob, user, topic]
        | server | burst | ping | pong | user _ | topic _ | data _ => simp [Line.isEob] at now'

theorem sane_start : Sane start := by
  have good : ∀ side, Good (start.conn side) (start.sent side) (start.heard side) := by
    intro side
    cases side
    · exact ⟨.inr ⟨[], rfl⟩, nofun, fun _ => ⟨rfl, rfl, rfl⟩, nofun, rfl, nofun, rfl, rfl, rfl, nofun, fun _ => rfl,
        Nat.le_refl 0, nofun, rfl⟩
    · exact ⟨.inl rfl, nofun, fun _ => ⟨rfl, rfl, rfl⟩, nofun, rfl, nofun, rfl, rfl, rfl, nofun, fun _ => rfl,
        Nat.le_refl 0, nofun, rfl⟩
  exact ⟨good, fun _ => rfl, fun both => absurd (both .connector) (by decide)⟩

theorem Sane.perform (sane : Sane state) (action : Action) : Sane (perform state action) := by
  cases action with
  | process side users topics => exact sane.process side users topics
  | sendQueued side left =>
    have keeps : (sendQueued (state.conn side) left).1.handshake = (state.conn side).handshake ∧
        (state.conn side).synched ≤ (sendQueued (state.conn side) left).1.synched := by
      unfold sendQueued
      split_ifs <;> exact ⟨rfl, Nat.le_refl _⟩
    exact sane.put ((sane.good side).queue left) keeps.1 keeps.2
  | checkPings side =>
    simp only [Netburst.perform]
    split_ifs with server
    · unfold checkPings
      split_ifs
      · refine sane.put ?_ rfl (Nat.le_refl _)
        have good := (sane.good side).passes server true [.ping] [] rfl rfl (by simp)
        rwa [List.append_nil] at good
      · refine sane.put ?_ rfl (Nat.le_refl _)
        rw [List.append_nil]
        exact sane.good side
    · exact sane
  | ask side =>
    simp only [Netburst.perform]
    split_ifs with server
    · refine sane.put ?_ rfl (Nat.le_refl _)
      have good := (sane.good side).passes server (state.conn side).pingSent [.ping] [] rfl rfl (by simp)
      rwa [List.append_nil] at good
    · exact sane
  | say side line =>
    simp only [Netburst.perform]
    split_ifs with server
    · refine sane.put ?_ rfl (Nat.le_refl _)
      have good := (sane.good side).passes server (state.conn side).pingSent [.data line] [] rfl rfl (by simp)
      rwa [List.append_nil] at good
    · exact sane

theorem sane_run (run : machine.Run Machine.Any start state) : Sane state :=
  run.invariant Sane (fun _ action _ _ sane => sane.perform action) sane_start

theorem heard_leads (state : State) (side : Side) : state.heard side <+: state.sent side.other := by
  simp [State.sent]

theorem Sane.told (sane : Sane state) (side : Side) :
    (state.heard side).filter Line.told <+: (state.conn side.other).told := by
  rw [← (sane.good side.other).told]
  exact (heard_leads state side).filter _

/-- When the burst of users counts as dealt with, it is. -/
theorem Sane.users (sane : Sane state) (server : (state.conn side).server = true)
    (answered : (state.conn side).userBurst = false) :
    .burst :: (state.conn side).users.map .user <+: (state.heard side.other).filter Line.told := by
  have good := sane.good side
  have users := good.users
  rw [answered, server, Bool.true_and, eq_comm, beq_eq_false_iff_ne] at users
  have pongs := (heard_leads state side).sublist.count_le .pong
  have replies := (sane.good side.other).replies
  have ping : .ping ∈ state.heard side.other := List.count_pos_iff.mp (by omega)
  have first := (good.first server).2
  rw [State.sent, takeWhile_append_of_mem ping] at first
  rw [← first]
  exact (List.takeWhile_prefix _).filter _

theorem Sane.whole (sane : Sane state) (ended : 1 ≤ (state.heard side).countP Line.isEob) :
    (state.heard side).filter Line.told = (state.conn side.other).whole := by
  have sent := (heard_leads state side).sublist.countP_le (p := Line.isEob)
  obtain ⟨server, sob, user, _⟩ := (sane.good side.other).ended (ended.trans sent)
  have told : (state.conn side.other).told = .burst :: ((state.conn side.other).users.map .user ++
      (state.conn side.other).topics.map .topic) ++ [.eob (state.conn side.other).sendq] := by
    simp [Conn.told, server, sob, user]
  rcases List.prefix_concat_iff.mp (told ▸ sane.told side) with all | part
  · exact all
  · have none := part.sublist.countP_le (p := Line.isEob)
    have zero : (Line.burst :: ((state.conn side.other).users.map .user ++
        (state.conn side.other).topics.map .topic)).countP Line.isEob = 0 := by
      simp [List.countP_eq_zero, Line.isEob]
    rw [countP_isEob] at none
    omega

/-- Each side is known to the other in the end. -/
theorem Sane.established (sane : Sane state) (quiet : state.Quiet) (side : Side) : (state.conn side).server = true := by
  have all (side : Side) : state.sent side = state.heard side.other := by simp [State.sent, (quiet side.other).1]
  have first : .server ∈ state.sent .connector := by
    have good := sane.good .connector
    cases known : (state.conn .connector).server with
    | true => exact good.names known
    | false => simp [(good.before known).1, sane.connects]
  have acceptor := (sane.good .acceptor).estab (all .connector ▸ first)
  have second := (sane.good .acceptor).names acceptor
  have connector := (sane.good .connector).estab (all .acceptor ▸ second)
  cases side
  · exact connector
  · exact acceptor

theorem Sane.quiet (sane : Sane state) (quiet : state.Quiet) :
    (∀ side, (state.conn side).server = true ∧ (state.conn side).userBurst = false ∧
      (state.conn side).topicBurst = false ∧ (state.conn side).sobSent = false ∧ (state.conn side).eobRecv = false ∧
      (state.heard side).filter Line.told = (state.conn side.other).whole) ∧
    ∃ side, 1 ≤ (state.conn side).synched := by
  have all (side : Side) : state.sent side = state.heard side.other := by simp [State.sent, (quiet side.other).1]
  have answers (side : Side) : (state.heard side).count .pong = (state.sent side).count .ping := by
    have replies := (sane.good side.other).replies
    rwa [all side.other, Side.other_other, ← all side] at replies
  have answered (side : Side) : 2 ≤ (state.heard side).count .pong := by
    have good := sane.good side
    have first := List.one_le_count_iff.mpr (good.first (sane.established quiet side)).1
    have second := good.pings (answers side ▸ first)
    exact answers side ▸ second
  have idle (side : Side) : (state.conn side).userBurst = false ∧ (state.conn side).topicBurst = false := by
    have twice := answered side
    rw [(sane.good side).users, (sane.good side).topics, sane.established quiet side, Bool.true_and, Bool.true_and]
    exact ⟨beq_eq_false_iff_ne.mpr (by omega), decide_eq_false (by omega)⟩
  have sob (side : Side) : (state.conn side).sobSent = false := by
    have nothing := (quiet side).2
    obtain ⟨user, topic⟩ := idle side
    cases still : (state.conn side).sobSent with
    | false => rfl
    | true => simp [sendQueued, still, user, topic] at nothing
  have ended (side : Side) : 1 ≤ (state.heard side).countP Line.isEob := by
    have told := (sane.good side.other).told
    rw [all, Side.other_other] at told
    rw [← countP_isEob, told, countP_told, if_pos ⟨sane.established quiet _, sob _⟩]
  refine ⟨fun side => ?_, sane.synched ended⟩
  refine ⟨sane.established quiet side, (idle side).1, (idle side).2, sob side, ?_, sane.whole (ended side)⟩
  rw [(sane.good side).eob, Bool.and_eq_false_iff]
  right
  have end' := ended side
  rw [beq_eq_false_iff_ne]
  omega

/-- Two servers that link, whatever else they send meanwhile and however it is delayed: each hears of the burst of the
other what was sent, in order and once, and all of it before its end; what counts as dealt with is; and when nothing is
left to send both know that both know all, and one of them has told it. -/
theorem netburst (run : machine.Run Machine.Any start state) :
    (∀ side, (state.heard side).filter Line.told <+: (state.conn side.other).told) ∧
    (∀ side, (state.conn side).server = true → (state.conn side).userBurst = false →
      .burst :: (state.conn side).users.map .user <+: (state.heard side.other).filter Line.told) ∧
    (∀ side sendq, .eob sendq ∈ state.heard side →
      (state.heard side).filter Line.told = (state.conn side.other).whole) ∧
    (∀ side, (state.conn side).synched ≤ 1) ∧
    (state.Quiet →
      (∀ side, (state.conn side).server = true ∧ (state.conn side).userBurst = false ∧
        (state.conn side).topicBurst = false ∧ (state.conn side).sobSent = false ∧
        (state.conn side).eobRecv = false ∧ (state.heard side).filter Line.told = (state.conn side.other).whole) ∧
      ∃ side, 1 ≤ (state.conn side).synched) := by
  have sane := sane_run run
  refine ⟨sane.told, fun side => sane.users, fun side sendq member => ?_, fun side => ?_, sane.quiet⟩
  · exact sane.whole (List.countP_pos_iff.mpr ⟨_, member, rfl⟩)
  · have once := (sane.good side.other).ends_once
    have heard := (heard_leads state side).sublist.countP_le (p := Line.isEob)
    have synched := (sane.good side).synched
    omega

end

theorem allows (state : State) (actions : List Action) : machine.Allows Machine.Any state actions := by
  induction actions generalizing state with
  | nil => trivial
  | cons action actions ih => exact ⟨trivial, trivial, ih _⟩

/-- Two servers link, and a PING for the acceptor goes over the link before the topics do. -/
def linking : List Action :=
  [.process .acceptor ["NICK ann".toList] [], .process .connector ["NICK bob".toList] [], .ask .connector] ++
    (List.replicate 16 [.process .connector [] ["TOPIC #b".toList], .process .acceptor [] ["TOPIC #a".toList],
      .sendQueued .connector 0, .sendQueued .acceptor 0]).flatten

def linked : State := linking.foldl machine.perform start

theorem linked_quiet : linked.Quiet := by
  intro side
  cases side <;> exact ⟨rfl, rfl⟩

theorem netburst_linked :
    (∀ side, (linked.heard side).filter Line.told <+: (linked.conn side.other).told) ∧
    (∀ side, (linked.conn side).server = true → (linked.conn side).userBurst = false →
      .burst :: (linked.conn side).users.map .user <+: (linked.heard side.other).filter Line.told) ∧
    (∀ side sendq, .eob sendq ∈ linked.heard side →
      (linked.heard side).filter Line.told = (linked.conn side.other).whole) ∧
    (∀ side, (linked.conn side).synched ≤ 1) ∧
    (∀ side, (linked.conn side).server = true ∧ (linked.conn side).userBurst = false ∧
      (linked.conn side).topicBurst = false ∧ (linked.conn side).sobSent = false ∧
      (linked.conn side).eobRecv = false ∧ (linked.heard side).filter Line.told = (linked.conn side.other).whole) ∧
    ∃ side, 1 ≤ (linked.conn side).synched := by
  obtain ⟨told, users, whole, once, quiet⟩ := netburst (.of_list linking (.refl start) (allows start linking))
  exact ⟨told, users, whole, once, quiet linked_quiet⟩

end SolidIrcd.Netburst
