import SolidIrcd.Common
import SolidIrcd.Lib.Link

/-! `m_nick.c`, `m_server.c`, `s_user.c`: two servers that each have a user of
one nickname, and what becomes of it when each reads the other's NICK. -/

namespace SolidIrcd.Nick

open Scan (Text)

/-- The fields of a client and of its `anUser` that the collision code reads or
sends. `server` is where the user is connected, which tells the two users apart. -/
structure Client where
  tsinfo : Int
  username : Text
  sockhost : Text
  realhost : Text
  maskhost : Text
  host : Text
  server : Text
  myConnect : Bool
  anOper : Bool
  umodeH : Bool
  umodev : Bool
  deriving DecidableEq, Repr

/-- What one server has under the nickname, the servers it knows and its clock. -/
structure Server where
  slot : Option Client
  servers : List Text
  timeofday : Int
  deriving DecidableEq, Repr

/-- The lines about this nickname that travel on the link; `umodev` is the `v` of
the umodes in a NICK. -/
inductive Message where
  | nick (newts : Int) (umodev : Bool) (username host server : Text)
  | svhost (host : Text)
  | kill
  deriving DecidableEq, Repr

/-- `set_hostmask`; every branch for an operator copies `Staff_Address`, and
`made` is what `make_hostmask` would store. -/
def setHostmask (staffAddress made : Text) (sptr : Client) : Client :=
  if sptr.anOper && !sptr.umodeH then { sptr with host := staffAddress.take hostLen }
  else if !sptr.umodev then { sptr with host := sptr.realhost.take hostLen }
  else if sptr.maskhost = [] then { sptr with host := made, maskhost := made }
  else { sptr with host := sptr.maskhost.take hostLen }

/-- How a server comes to introduce its user: in the burst of a new link, or when
`register_user` completes, with the `user->host` of that moment. -/
inductive Introduction where
  | burst
  | signon (host : Text)
  deriving DecidableEq, Repr

/-- The host that stands in the NICK. -/
def Introduction.hostSent (acptr : Client) : Introduction → Text
  | .burst => if acptr.myConnect then acptr.sockhost else acptr.realhost
  | .signon host => host

/-- The NICK of an introduction. -/
def Introduction.nickSent (acptr : Client) (introduction : Introduction) : Message :=
  .nick acptr.tsinfo acptr.umodev acptr.username (introduction.hostSent acptr) acptr.server

/-- `sendnick_TS` sends an SVHOST after the NICK for a `+v` user; `set_hostmask`,
at the end of `register_user`, sends one for every user of its own. -/
def Introduction.hostLines (acptr : Client) : Introduction → List Message
  | .burst => if acptr.umodev then [.svhost acptr.host] else []
  | .signon _ => if acptr.myConnect then [.svhost acptr.host] else []

/-- All the lines of an introduction. -/
def Introduction.lines (acptr : Client) (introduction : Introduction) : List Message :=
  introduction.nickSent acptr :: introduction.hostLines acptr

/-- The test whether the two users may be one: `sameuser`. -/
def sameUser (acptr : Client) (username host : Text) : Bool :=
  mycmp acptr.username username && mycmp acptr.host host

/-- `find_server`. -/
def Server.knows (server : Server) (name : Text) : Bool := server.servers.any (mycmp name)

/-- `do_user` for a client of another server. -/
def doUser (tsinfo : Int) (umodev : Bool) (username host server : Text) : Client where
  tsinfo := tsinfo
  username := username.take userLen
  sockhost := []
  realhost := host.take hostLen
  maskhost := []
  host := host.take hostLen
  server := server
  myConnect := false
  anOper := false
  umodeH := false
  umodev := umodev

/-- The tail of `m_nick`: the new client enters the hash table. -/
def introduce (server : Server) (newts : Int) (umodev : Bool) (username host uplink : Text) : Server :=
  if server.knows uplink then
    let tsinfo := if newts = 0 then server.timeofday else newts
    { server with slot := some (doUser tsinfo umodev username host uplink) }
  else server

/-- `m_nick` for a NICK that introduces a user, with the KILL it sends back on the
link. The KILL for a user who loses to an older or newer one goes everywhere but
there. -/
def mNick (server : Server) (newts : Int) (umodev : Bool) (username host uplink : Text) :
    Server × List Message :=
  match server.slot with
  | none => (introduce server newts umodev username host uplink, [])
  | some acptr =>
    if newts = 0 ∨ acptr.tsinfo = 0 ∨ newts = acptr.tsinfo then
      ({ server with slot := none }, [.kill])
    else if (sameUser acptr username host ∧ newts < acptr.tsinfo) ∨
        (¬ sameUser acptr username host ∧ newts > acptr.tsinfo) then
      (server, [])
    else
      (introduce { server with slot := none } newts umodev username host uplink, [])

/-- `m_svhost`. -/
def mSvhost (server : Server) (host : Text) : Server :=
  { server with slot := server.slot.map fun acptr => { acptr with umodev := true, host := host.take hostLen } }

/-- `m_kill` of the nickname by a server. -/
def mKill (server : Server) : Server := { server with slot := none }

/-- One line from the link. -/
def receive (server : Server) : Message → Server × List Message
  | .nick newts umodev username host uplink => mNick server newts umodev username host uplink
  | .svhost host => (mSvhost server host, [])
  | .kill => (mKill server, [])

/-- The user a server has under the nickname, by where that user is. -/
def Server.holder (server : Server) : Option Text := server.slot.map Client.server

/-- Two servers, each with its own user of the nickname and an introduction of it
to the other. They know each other's servers: SERVER lines come before any NICK. -/
structure Collision where
  left : Client
  right : Client
  fromLeft : Introduction
  fromRight : Introduction
  leftServers : List Text
  rightServers : List Text
  leftClock : Int
  rightClock : Int
  apart : left.server ≠ right.server
  leftKnows : leftServers.any (mycmp right.server) = true
  rightKnows : rightServers.any (mycmp left.server) = true

/-- Both users registered, both introductions on their way. -/
def Collision.start (collision : Collision) : Link.Wire Server Message where
  left := ⟨some collision.left, collision.leftServers, collision.leftClock⟩
  right := ⟨some collision.right, collision.rightServers, collision.rightClock⟩
  toLeft := collision.fromRight.lines collision.right
  toRight := collision.fromLeft.lines collision.left

/-- Whatever the interleaving, once everything sent has been read both servers
have the same user under the nickname, or none. -/
def Collision.Agrees (collision : Collision) : Prop :=
  ∀ final, Link.Run receive collision.start final → final.Quiet → final.left.holder = final.right.holder

/-- The timestamps on which `m_nick` kills both users. -/
def Clash (own other : Client) : Prop := other.tsinfo = 0 ∨ own.tsinfo = 0 ∨ other.tsinfo = own.tsinfo

instance (own other : Client) : Decidable (Clash own other) :=
  inferInstanceAs (Decidable (_ ∨ _ ∨ _))

/-- A server keeps its own user: an older one for the same person is dropped, a
newer one for somebody else is. -/
def Keeps (own other : Client) (host : Text) : Prop :=
  (sameUser own other.username host = true ∧ other.tsinfo < own.tsinfo) ∨
    (¬ sameUser own other.username host = true ∧ other.tsinfo > own.tsinfo)

instance (own other : Client) (host : Text) : Decidable (Keeps own other host) :=
  inferInstanceAs (Decidable ((_ ∧ _) ∨ (_ ∧ _)))

/-- What a server with `own` has after a NICK for `other` that carries `host`. -/
def outcome (own other : Client) (host : Text) : Option Text :=
  if Clash own other then none else if Keeps own other host then some own.server else some other.server

theorem Clash.symm (clash : Clash own other) : Clash other own := by
  obtain zero | zero | same := clash
  · exact .inr (.inl zero)
  · exact .inl zero
  · exact .inr (.inr same.symm)

/-- What can still follow a NICK: visible hosts, and a KILL where both go. -/
def Trailing (own other : Client) (inbox : List Message) : Prop :=
  ∀ message ∈ inbox, (∃ host, message = .svhost host) ∨ (message = .kill ∧ Clash own other)

/-- One end of the link: it waits for the NICK with its own user in place, or it
has settled. -/
def Side (own other : Client) (introduction : Introduction) (server : Server) (inbox : List Message) : Prop :=
  server.knows other.server = true ∧
    ((server.slot = some own ∧
        ∃ rest, inbox = introduction.nickSent other :: rest ∧ Trailing own other rest) ∨
      (server.holder = outcome own other (introduction.hostSent other) ∧ Trailing own other inbox))

theorem introduce_holder (known : Server.knows server uplink = true) :
    (introduce server newts umodev username host uplink).holder = some uplink := by
  simp [introduce, known, Server.holder, doUser]

@[simp] theorem introduce_servers :
    (introduce server newts umodev username host uplink).servers = server.servers := by
  unfold introduce
  split <;> rfl

@[simp] theorem receive_servers (server : Server) (message : Message) :
    (receive server message).1.servers = server.servers := by
  cases message with
  | nick newts umodev username host uplink =>
    simp only [receive, mNick]
    split
    · exact introduce_servers
    · split
      · rfl
      · split
        · rfl
        · exact introduce_servers
  | svhost host => rfl
  | kill => rfl

theorem receive_clash (holds : Server.slot server = some own) (clash : Clash own other) :
    receive server (Introduction.nickSent other introduction) = ({ server with slot := none }, [.kill]) := by
  simp only [receive, Introduction.nickSent, mNick, holds]
  exact if_pos clash

theorem receive_keeps (holds : Server.slot server = some own) (calm : ¬ Clash own other)
    (keeps : Keeps own other (Introduction.hostSent other introduction)) :
    receive server (introduction.nickSent other) = (server, []) := by
  simp only [receive, Introduction.nickSent, mNick, holds]
  exact (if_neg calm).trans (if_pos keeps)

theorem receive_yields (holds : Server.slot server = some own) (calm : ¬ Clash own other)
    (yields : ¬ Keeps own other (Introduction.hostSent other introduction)) :
    receive server (introduction.nickSent other) =
      (introduce { server with slot := none } other.tsinfo other.umodev other.username
        (introduction.hostSent other) other.server, []) := by
  simp only [receive, Introduction.nickSent, mNick, holds]
  exact (if_neg calm).trans (if_neg yields)

/-- The collision itself, at one server. -/
theorem receive_occupied (introduction : Introduction) (holds : Server.slot server = some own)
    (known : server.knows other.server = true) :
    (receive server (introduction.nickSent other)).1.holder =
        outcome own other (introduction.hostSent other) ∧
      (receive server (introduction.nickSent other)).2 = if Clash own other then [.kill] else [] := by
  by_cases clash : Clash own other
  · rw [receive_clash holds clash, outcome, if_pos clash, if_pos clash]
    exact ⟨rfl, rfl⟩
  · rw [outcome, if_neg clash, if_neg clash]
    by_cases keeps : Keeps own other (introduction.hostSent other)
    · rw [receive_keeps holds clash keeps, if_pos keeps]
      exact ⟨by simp [Server.holder, holds], rfl⟩
    · rw [receive_yields holds clash keeps, if_neg keeps]
      have known' : Server.knows { server with slot := none } other.server = true := known
      exact ⟨introduce_holder known', rfl⟩

/-- A server that has read the NICK is not moved by what trails it. -/
theorem receive_trailing (settled : Server.holder server = outcome own other host)
    (trails : (∃ host, message = .svhost host) ∨ (message = .kill ∧ Clash own other)) :
    (receive server message).1.holder = outcome own other host ∧ (receive server message).2 = [] := by
  obtain ⟨visible, rfl⟩ | ⟨rfl, clash⟩ := trails
  · refine ⟨?_, rfl⟩
    rw [← settled]
    simp [receive, mSvhost, Server.holder, Function.comp_def]
  · refine ⟨?_, rfl⟩
    simp [receive, mKill, Server.holder, outcome, clash]

/-- One step at one end keeps its invariant, and it answers a KILL at most, where
both users go. -/
theorem Side.take (side : Side own other introduction server (message :: rest)) :
    Side own other introduction (receive server message).1 rest ∧
      ((receive server message).2 = [] ∨ (receive server message).2 = [.kill] ∧ Clash own other) := by
  obtain ⟨known, ⟨holds, trail, queued, trailing⟩ | ⟨settled, trailing⟩⟩ := side
  · obtain ⟨rfl, rfl⟩ := List.cons.inj queued
    obtain ⟨settled, answer⟩ := receive_occupied introduction holds known
    refine ⟨⟨by simpa [Server.knows] using known, .inr ⟨settled, trailing⟩⟩, ?_⟩
    by_cases clash : Clash own other
    · exact .inr ⟨by simpa [clash] using answer, clash⟩
    · exact .inl (by simpa [clash] using answer)
  · obtain ⟨kept, silent⟩ := receive_trailing settled (trailing message (by simp))
    exact ⟨⟨by simpa [Server.knows] using known,
      .inr ⟨kept, fun message member => trailing message (by simp [member])⟩⟩, .inl silent⟩

theorem Trailing.append (trailing : Trailing own other inbox)
    (answer : answers = [] ∨ answers = [Message.kill] ∧ Clash own other) :
    Trailing own other (inbox ++ answers) := by
  obtain rfl | ⟨rfl, clash⟩ := answer
  · simpa using trailing
  · intro message member
    obtain queued | added := List.mem_append.mp member
    · exact trailing message queued
    · exact .inr ⟨by simpa using added, clash⟩

/-- The answers of the other end only lengthen the trail. -/
theorem Side.append (side : Side own other introduction server inbox)
    (answer : answers = [] ∨ answers = [Message.kill] ∧ Clash other own) :
    Side own other introduction server (inbox ++ answers) := by
  have answer' : answers = [] ∨ answers = [Message.kill] ∧ Clash own other :=
    answer.imp_right fun ⟨kill, clash⟩ => ⟨kill, clash.symm⟩
  obtain ⟨known, ⟨holds, rest, rfl, trailing⟩ | ⟨settled, trailing⟩⟩ := side
  · exact ⟨known, .inl ⟨holds, rest ++ answers, rfl, trailing.append answer'⟩⟩
  · exact ⟨known, .inr ⟨settled, trailing.append answer'⟩⟩

theorem side_start (own other : Client) (introduction : Introduction)
    (known : servers.any (mycmp other.server) = true) :
    Side own other introduction ⟨some own, servers, clock⟩ (introduction.lines other) := by
  refine ⟨known, .inl ⟨rfl, introduction.hostLines other, rfl, ?_⟩⟩
  intro message member
  cases introduction with
  | burst =>
    simp only [Introduction.hostLines] at member
    split at member <;> simp at member
    exact .inl ⟨other.host, member⟩
  | signon host =>
    simp only [Introduction.hostLines] at member
    split at member <;> simp at member
    exact .inl ⟨other.host, member⟩

/-- What every run of a collision keeps. -/
theorem run_sides (collision : Collision) (run : Link.Run receive collision.start final) :
    Side collision.left collision.right collision.fromRight final.left final.toLeft ∧
      Side collision.right collision.left collision.fromLeft final.right final.toRight := by
  apply Link.Run.preserves_sides _ _ _ _ run
  · exact ⟨side_start _ _ _ collision.leftKnows, side_start _ _ _ collision.rightKnows⟩
  · intro state message rest side
    obtain ⟨next, answer⟩ := side.take
    exact ⟨next, fun other inbox mirror => mirror.append answer⟩
  · intro state message rest side
    obtain ⟨next, answer⟩ := side.take
    exact ⟨next, fun other inbox mirror => mirror.append answer⟩

/-- At rest each end has settled. -/
theorem run_quiet (collision : Collision) (run : Link.Run receive collision.start final)
    (quiet : final.Quiet) :
    final.left.holder =
        outcome collision.left collision.right (collision.fromRight.hostSent collision.right) ∧
      final.right.holder =
        outcome collision.right collision.left (collision.fromLeft.hostSent collision.left) := by
  obtain ⟨⟨-, left⟩, ⟨-, right⟩⟩ := run_sides collision run
  rw [quiet.1] at left
  rw [quiet.2] at right
  constructor
  · obtain ⟨-, rest, queued, -⟩ | ⟨settled, -⟩ := left
    · cases queued
    · exact settled
  · obtain ⟨-, rest, queued, -⟩ | ⟨settled, -⟩ := right
    · cases queued
    · exact settled

/-- A NICK outweighs the KILL it may be answered with. -/
def weight : Message → Nat
  | .nick .. => 2
  | .svhost _ | .kill => 1

theorem receive_lighter (server : Server) (message : Message) :
    Link.load weight (receive server message).2 < weight message := by
  cases message with
  | nick newts umodev username host uplink =>
    simp only [receive, mNick]
    split
    · simp [Link.load, weight]
    · split
      · simp [Link.load, weight]
      · split <;> simp [Link.load, weight]
  | svhost host => simp [receive, Link.load, weight]
  | kill => simp [receive, Link.load, weight]

theorem agrees_iff_outcome (collision : Collision) :
    collision.Agrees ↔
      outcome collision.left collision.right (collision.fromRight.hostSent collision.right) =
        outcome collision.right collision.left (collision.fromLeft.hostSent collision.left) := by
  constructor
  · intro agrees
    obtain ⟨final, run, quiet⟩ := Link.exists_quiet weight receive_lighter collision.start
    obtain ⟨left, right⟩ := run_quiet collision run quiet
    rw [← left, ← right]
    exact agrees final run quiet
  · intro same final run quiet
    obtain ⟨left, right⟩ := run_quiet collision run quiet
    rw [left, right, same]

theorem keeps_older (older : own.tsinfo < other.tsinfo) :
    Keeps own other host ↔ sameUser own other.username host = false := by
  simp [Keeps, older, Int.lt_asymm older]

theorem keeps_newer (newer : other.tsinfo < own.tsinfo) :
    Keeps own other host ↔ sameUser own other.username host = true := by
  simp [Keeps, newer, Int.lt_asymm newer]

/-- The two outcomes are one exactly when both users go, or the two ends agree on
whether the users are the same person. -/
theorem outcome_eq_iff (apart : own.server ≠ other.server) :
    outcome own other host = outcome other own mirror ↔
      Clash own other ∨ sameUser own other.username host = sameUser other own.username mirror := by
  by_cases clash : Clash own other
  · simp [outcome, clash, clash.symm]
  · have clash' : ¬ Clash other own := fun back => clash back.symm
    have differ : own.tsinfo < other.tsinfo ∨ other.tsinfo < own.tsinfo := by
      simp only [Clash] at clash
      omega
    have opposite : outcome own other host = outcome other own mirror ↔
        (Keeps own other host ↔ ¬ Keeps other own mirror) := by
      simp only [outcome, clash, clash', if_false]
      by_cases left : Keeps own other host <;> by_cases right : Keeps other own mirror <;>
        simp [left, right, apart, apart.symm]
    rw [opposite]
    simp only [clash, false_or]
    obtain older | newer := differ
    · rw [keeps_older older, keeps_newer older, Bool.not_eq_true]
      cases sameUser own other.username host <;> simp
    · rw [keeps_newer newer, keeps_older newer, Bool.not_eq_false]
      cases sameUser own other.username host <;> simp

/-- Nick collision agreement. The servers agree exactly when a timestamp is zero
or the two are equal, the user names differ, or each end finds its own user's
visible host in the other's NICK exactly when the other end does. -/
theorem agrees_iff (collision : Collision) :
    collision.Agrees ↔
      collision.left.tsinfo = 0 ∨ collision.right.tsinfo = 0 ∨
        collision.left.tsinfo = collision.right.tsinfo ∨
        mycmp collision.left.username collision.right.username = false ∨
        mycmp collision.left.host (collision.fromRight.hostSent collision.right) =
          mycmp collision.right.host (collision.fromLeft.hostSent collision.left) := by
  rw [agrees_iff_outcome, outcome_eq_iff collision.apart]
  simp only [Clash, sameUser, mycmp_comm collision.right.username]
  cases mycmp collision.left.username collision.right.username with
  | false => simp
  | true => simp only [Bool.true_and, reduceCtorEq, false_or]; tauto

/-- A person connected to both servers, with a masked host on the left one and not
on the right one. -/
def maskedTwin : Collision where
  left := setHostmask "staff".toList "mask.net".toList
    { tsinfo := 100, username := "u".toList, sockhost := "h.net".toList, realhost := "h.net".toList
      maskhost := [], host := "h.net".toList, server := "a".toList, myConnect := true, anOper := false
      umodeH := false, umodev := true }
  right := setHostmask "staff".toList "mask.net".toList
    { tsinfo := 200, username := "u".toList, sockhost := "h.net".toList, realhost := "h.net".toList
      maskhost := [], host := "h.net".toList, server := "b".toList, myConnect := true, anOper := false
      umodeH := false, umodev := false }
  fromLeft := .burst
  fromRight := .burst
  leftServers := ["b".toList]
  rightServers := ["a".toList]
  leftClock := 300
  rightClock := 300
  apart := by decide
  leftKnows := by decide
  rightKnows := by decide

/-- Each server keeps its own user. -/
theorem maskedTwin_disagrees : ¬ maskedTwin.Agrees := by
  intro agrees
  have outcomes := (agrees_iff_outcome maskedTwin).mp agrees
  revert outcomes
  decide

end SolidIrcd.Nick
