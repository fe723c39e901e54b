import SolidIrcd.Lib.Machine
import SolidIrcd.Lib.Meter
import SolidIrcd.Parse.Penalty
import SolidIrcd.Recv.ClientQueue

/-! How many lines of a client are parsed in an interval: `since` runs ahead of the time with every command, and the
queue waits when it is ten seconds ahead. -/

namespace SolidIrcd.Recv

open Scan (Text textAt strncpy nul)
open Parse (Env lineCharge penalty two_le_penalty)

/-- A line that `parse` got, and whether it was charged. -/
structure Parsed where
  time : Nat
  line : Text
  behind : Option Nat
  isAnOper : Bool
  noMsgThrottle : Bool

/-- What became of the client in the handler; some handlers add to `since` themselves. -/
structure Handled where
  since : Nat
  isPerson : Bool
  isAnOper : Bool
  noMsgThrottle : Bool
  exits : Bool

/-- A client that is no server. `parsed` only records, the newest line first. -/
structure Session where
  recvQ : SBuf
  nonl : Bool
  since : Nat
  receiveM : Nat
  buffer : Text
  isPerson : Bool
  isAnOper : Bool
  noMsgThrottle : Bool
  exited : Bool
  parsed : List Parsed

namespace Session

/-- What `parse` reads of the client. -/
def sender (session : Session) : Parse.Client where
  isDead := false
  status := if session.isPerson then .client else .unknown
  isPerson := session.isPerson

/-- `client_dopacket`, with what `parse` adds to `since`. -/
def clientDopacket (env : Env) (now : Nat) (handled : Handled) (session : Session) (line : Text) : Session :=
  let buffer := strncpy session.buffer (line.takeWhile (· != nul)) bufSize
  let receiveM := session.receiveM + 1
  let text := textAt buffer 0
  let behind := lineCharge env session.sender text
  { session with
    buffer := buffer
    receiveM := receiveM
    since := session.since + behind.elim 0 (penalty session.noMsgThrottle session.isAnOper receiveM) + handled.since
    isPerson := handled.isPerson
    isAnOper := handled.isAnOper
    noMsgThrottle := handled.noMsgThrottle
    exited := handled.exits
    parsed := ⟨now, text, behind, session.isAnOper, session.noMsgThrottle⟩ :: session.parsed }

/-- The loop of `do_client_queue`. -/
def doClientQueue (server : Server) (env : Env) (now : Nat) (handlers : Nat → Handled) (session : Session) : Session :=
  if session.recvQ.length ≠ 0 ∧ session.nonl = false ∧ session.since < now + 10 then
    match _read : sbufGetmsg session.recvQ server.rcvbufmax with
    | (none, recvQ) =>
      if recvQ.length < 510 then { session with recvQ := recvQ, nonl := true }
      else { session with recvQ := sbufDelete recvQ recvQ.length }
    | (some line, recvQ) =>
      let next := clientDopacket env now (handlers session.parsed.length) { session with recvQ := recvQ } line
      if next.exited then next else doClientQueue server env now handlers next
  else session
termination_by session.recvQ.length
decreasing_by
  have spec := sbufGetmsg_eq session.recvQ server.rcvbufmax
  rw [_read] at spec
  exact (getmsg_some (Prod.ext spec.1.symm spec.2.symm)).2.1

/-- What `recv` changes in any case. -/
def woken (session : Session) (now : Nat) : Session :=
  { session with since := max session.since now, nonl := false }

/-- `read_packet`: a person with too much queued is not read from. -/
def readPacket (server : Server) (env : Env) (now : Nat) (bytes : Text) (handlers : Nat → Handled) (session : Session) :
    Session :=
  let session :=
    if session.isPerson ∧ maxClientRecvq < session.recvQ.length then session
    else { session.woken now with recvQ := sbufPut session.recvQ bytes }
  if session.isPerson ∧ !session.isAnOper ∧ clientFlood < session.recvQ.length then { session with exited := true }
  else session.doClientQueue server env now handlers

/-- `do_recvqs` for this client. -/
def doRecvqs (server : Server) (env : Env) (now : Nat) (handlers : Nat → Handled) (session : Session) : Session :=
  if session.recvQ.length ≠ 0 ∧ session.nonl = false then session.doClientQueue server env now handlers else session

end Session

structure Connection where
  timeofday : Nat
  session : Session

inductive Turn where
  | tick (seconds : Nat)
  | read (bytes : Text) (handlers : Nat → Handled)
  /-- There was nothing to read after all. -/
  | blocked
  | recvqs (handlers : Nat → Handled)

variable (server : Server) (env : Env)

def Connection.perform (connection : Connection) : Turn → Connection
  | .tick seconds => { connection with timeofday := connection.timeofday + seconds }
  | .read bytes handlers =>
    { connection with session := connection.session.readPacket server env connection.timeofday bytes handlers }
  | .blocked => { connection with session := connection.session.woken connection.timeofday }
  | .recvqs handlers =>
    { connection with session := connection.session.doRecvqs server env connection.timeofday handlers }

/-- A client that is still there; a read brings what the buffer has room for. -/
def Connection.possible (connection : Connection) : Turn → Prop
  | .tick _ => True
  | .read bytes _ =>
    connection.session.exited = false ∧ bytes ≠ [] ∧
      bytes.length ≤ (if connection.session.isPerson then maxClientRecvq else server.rcvbufmax)
  | .blocked | .recvqs _ => connection.session.exited = false

def traffic : Machine Connection Turn := ⟨Connection.perform server env, Connection.possible server⟩

/-- The queue is never run without a read after `since` has passed. -/
def Timely (connection : Connection) : Turn → Prop
  | .read _ _ =>
    connection.session.isPerson = true ∧ maxClientRecvq < connection.session.recvQ.length →
      connection.timeofday ≤ connection.session.since
  | .recvqs _ =>
    connection.session.recvQ.length ≠ 0 ∧ connection.session.nonl = false →
      connection.timeofday ≤ connection.session.since
  | _ => True

/-- A command of a client that is neither exempt nor an operator. -/
def Parsed.charged (line : Parsed) : Bool := line.behind.isSome && !line.isAnOper && !line.noMsgThrottle

def Parsed.during (first length : Nat) (line : Parsed) : Bool := decide (first ≤ line.time ∧ line.time ≤ first + length)

/-- The lines, with `since` as the clock. -/
def Session.Metered (session : Session) : Prop :=
  Meter 10 2 session.since (session.parsed.map fun line => (line.time, line.charged))

variable {server : Server} {env : Env} {session : Session}

/-- One line more. -/
theorem Session.Metered.clientDopacket (metered : session.Metered) (handled : Handled) (line : Text)
    (timely : now ≤ session.since) (soon : session.since < now + 10) :
    (session.clientDopacket env now handled line).Metered ∧
      now ≤ (session.clientDopacket env now handled line).since := by
  constructor
  · unfold Session.Metered Session.clientDopacket
    simp only [List.map_cons]
    generalize lineCharge env session.sender _ = behind
    cases known : Parsed.charged ⟨now, _, behind, session.isAnOper, session.noMsgThrottle⟩ with
    | false => exact (metered.free now).advance (by omega)
    | true =>
      simp only [Parsed.charged, Bool.and_eq_true, Bool.not_eq_true'] at known
      obtain ⟨⟨some, user⟩, throttled⟩ := known
      obtain ⟨bytes, rfl⟩ := Option.isSome_iff_exists.mp some
      have paid := two_le_penalty (session.receiveM + 1) bytes
      apply metered.charge timely soon
      simp only [user, throttled, Option.elim_some]
      omega
  · simp only [Session.clientDopacket]
    omega

theorem Session.Metered.doClientQueue (metered : session.Metered) (handlers : Nat → Handled)
    (timely : now ≤ session.since) : (session.doClientQueue server env now handlers).Metered := by
  fun_induction Session.doClientQueue server env now handlers session with
  | case1 => exact metered
  | case2 => exact metered
  | case3 session wait line recvQ read next exits =>
    have rest : Session.Metered { session with recvQ := recvQ } := metered
    exact (rest.clientDopacket _ line timely wait.2.2).1
  | case4 session wait line recvQ read next stays ih =>
    have rest : Session.Metered { session with recvQ := recvQ } := metered
    obtain ⟨one, later⟩ := rest.clientDopacket (handlers session.parsed.length) line timely wait.2.2
    exact ih one later
  | case5 => exact metered

theorem Session.Metered.woken (metered : session.Metered) (now : Nat) : (session.woken now).Metered :=
  metered.advance (Nat.le_max_left _ _)

theorem Session.Metered.readPacket (metered : session.Metered) (bytes : Text) (handlers : Nat → Handled)
    (timely : session.isPerson = true ∧ maxClientRecvq < session.recvQ.length → now ≤ session.since) :
    (session.readPacket server env now bytes handlers).Metered := by
  have fed : Session.Metered { session.woken now with recvQ := sbufPut session.recvQ bytes } := metered.woken now
  unfold Session.readPacket
  dsimp only
  by_cases full : session.isPerson = true ∧ maxClientRecvq < session.recvQ.length
  · rw [if_pos full]
    split
    · exact metered
    · exact metered.doClientQueue handlers (timely full)
  · rw [if_neg full]
    split
    · exact fed
    · exact fed.doClientQueue handlers (Nat.le_max_right _ _)

theorem Connection.metered_perform {connection : Connection} (metered : connection.session.Metered) (turn : Turn)
    (timely : Timely connection turn) : (connection.perform server env turn).session.Metered := by
  cases turn with
  | tick seconds => exact metered
  | read bytes handlers => exact metered.readPacket bytes handlers timely
  | blocked => exact metered.woken connection.timeofday
  | recvqs handlers =>
    simp only [Connection.perform, Session.doRecvqs]
    split
    · rename_i waiting
      exact metered.doClientQueue handlers (timely waiting)
    · exact metered

/-- Whatever a client sends, and whenever it is read, no interval sees more of its commands than this. -/
theorem commands_bounded {start final : Connection} (fresh : start.session.parsed = [])
    (run : (traffic server env).Run Timely start final) (first length : Nat) :
    final.session.parsed.countP (fun line => line.charged && line.during first length) ≤ (10 + length) / 2 + 1 := by
  have empty : start.session.Metered := by
    unfold Session.Metered
    rw [fresh]
    exact .start _
  have metered : final.session.Metered :=
    run.invariant (·.session.Metered) (fun _ turn _ timely metered => Connection.metered_perform metered turn timely) empty
  have counted := metered.bound (by decide) first length
  rw [List.countP_map] at counted
  exact counted

private def size : Server := ⟨8192, Nat.le_refl _⟩

private def connected (isAnOper : Bool) : Connection :=
  ⟨0, ⟨[], false, 0, 0, List.replicate bufSize nul, true, isAnOper, false, false, []⟩⟩

private def stays (isAnOper : Bool) (_ : Nat) : Handled := ⟨0, true, isAnOper, false, false⟩

private def many (count : Nat) (line : String) : Text := (List.replicate count (line.toList ++ ['\n'])).flatten

private def writing : List Turn := [.read (many 7 "NICK") (stays false)]

theorem commands_bounded_writing :
    (writing.foldl (traffic size Parse.alone).perform (connected false)).session.parsed.countP
      (fun line => line.charged && line.during 0 0) ≤ (10 + 0) / 2 + 1 :=
  commands_bounded rfl
    (.of_list writing (.refl _) ⟨⟨rfl, by decide, by decide⟩, fun full => absurd full.2 (by decide), trivial⟩) 0 0

/-! The lines that are not charged for, and a queue that is run too late -/

private def operating : List Turn := [.read (many 12 "NICK") (stays true)]

private def guessing : List Turn := [.read (many 7 "X") (stays false)]

private def waiting : List Turn := [.read (many 40 "NICK") (stays false), .tick 100, .recvqs (stays false)]

/-- Every line of a client that is not exempt. -/
def Parsed.limited (first length : Nat) (line : Parsed) : Bool := !line.noMsgThrottle && line.during first length

/-- More lines are parsed in one second from an operator, with a command that does not exist, and from a queue that
was left alone for a while. -/
theorem lines_unbounded :
    (¬ ∀ (server : Server) (start final : Connection), start.session.parsed = [] →
        (traffic server Parse.alone).Run Timely start final → (∀ line ∈ final.session.parsed, line.behind.isSome) →
        ∀ first length, final.session.parsed.countP (·.limited first length) ≤ (10 + length) / 2 + 1) ∧
      (¬ ∀ (server : Server) (start final : Connection), start.session.parsed = [] →
        (traffic server Parse.alone).Run Timely start final → (∀ line ∈ final.session.parsed, line.isAnOper = false) →
        ∀ first length, final.session.parsed.countP (·.limited first length) ≤ (10 + length) / 2 + 1) ∧
      ¬ ∀ (server : Server) (start final : Connection), start.session.parsed = [] →
        (traffic server Parse.alone).Run Machine.Any start final → (∀ line ∈ final.session.parsed, line.charged) →
        ∀ first length, final.session.parsed.countP (·.limited first length) ≤ (10 + length) / 2 + 1 := by
  refine ⟨fun bounded => ?_, fun bounded => ?_, fun bounded => ?_⟩
  · have allowed : (traffic size Parse.alone).Allows Timely (connected true) operating :=
      ⟨⟨rfl, by decide, by decide⟩, fun full => absurd full.2 (by decide), trivial⟩
    have commands : ∀ line ∈ (operating.foldl (traffic size Parse.alone).perform (connected true)).session.parsed,
        line.behind.isSome := List.all_eq_true.mp (by decide +kernel)
    have few := bounded size _ _ rfl (.of_list operating (.refl _) allowed) commands 0 0
    revert few
    decide +kernel
  · have allowed : (traffic size Parse.alone).Allows Timely (connected false) guessing :=
      ⟨⟨rfl, by decide, by decide⟩, fun full => absurd full.2 (by decide), trivial⟩
    have users : ((guessing.foldl (traffic size Parse.alone).perform (connected false)).session.parsed.all
        (!·.isAnOper)) = true := by decide +kernel
    have few := bounded size _ _ rfl (.of_list guessing (.refl _) allowed)
      (fun line member => by simpa using List.all_eq_true.mp users line member) 0 0
    revert few
    decide +kernel
  · have allowed : (traffic size Parse.alone).Allows Machine.Any (connected false) waiting :=
      ⟨⟨rfl, by decide, by decide +kernel⟩, trivial, trivial, trivial, (by decide +kernel : _ = false), trivial, trivial⟩
    have charged : ∀ line ∈ (waiting.foldl (traffic size Parse.alone).perform (connected false)).session.parsed,
        line.charged = true := List.all_eq_true.mp (by decide +kernel)
    have few := bounded size _ _ rfl (.of_list waiting (.refl _) allowed) charged 100 0
    revert few
    decide +kernel

end SolidIrcd.Recv
