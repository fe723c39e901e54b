import Mathlib.Data.List.Count
import Mathlib.Logic.Function.Basic
import SolidIrcd.Channel.MaskMatch
import SolidIrcd.Lib.Machine

/-! The table of local descriptors with its highest index, and the messages that go to all of it:
`sendto_all_butone` and `sendto_all_servmask`. -/

namespace SolidIrcd.Send.Servmask

open Scan (Text)

/-- What an entry of `local` says of a connection. -/
structure Conn where
  name : Text
  status : Status
  deriving DecidableEq, Repr

/-- `local`, `highest_fd` and `server_list`, which holds the descriptors of the linked servers. -/
structure State where
  locals : Nat → Option Conn
  highestFd : Nat
  serverList : List Nat

def start : State := ⟨fun _ => none, 0, []⟩

/-- The search downwards for a descriptor that is in use. -/
def lowered (locals : Nat → Option Conn) : Nat → Nat
  | 0 => 0
  | fd + 1 => if (locals (fd + 1)).isSome then fd + 1 else lowered locals fd

inductive Action where
  /-- `add_listener`. -/
  | listen (fd : Nat)
  /-- `add_connection`. -/
  | accept (fd : Nat)
  /-- `connect_server`. -/
  | connect (fd : Nat) (name : Text)
  /-- `start_auth`: the query to the client's ident server has a descriptor of its own. -/
  | startAuth (authfd : Nat)
  /-- `authsenderr` and the end of `read_authports`. -/
  | authDone (fd authfd : Nat)
  /-- `register_user`. -/
  | register (fd : Nat) (name : Text)
  /-- `do_server_estab`. -/
  | establish (fd : Nat) (name : Text)
  /-- `close_connection`, behind `exit_one_client`. -/
  | close (fd : Nat)

def enter (state : State) (fd : Nat) (conn : Conn) : State :=
  { state with locals := Function.update state.locals fd (some conn), highestFd := max state.highestFd fd }

def perform (state : State) : Action → State
  | .listen fd => { state with highestFd := max state.highestFd fd }
  | .accept fd => enter state fd ⟨[], .unknown⟩
  | .connect fd name => enter state fd ⟨name, .connecting⟩
  | .startAuth authfd => { state with highestFd := max state.highestFd authfd }
  | .authDone _ authfd =>
    if authfd = state.highestFd then { state with highestFd := lowered state.locals state.highestFd } else state
  | .register fd name => { state with locals := Function.update state.locals fd (some ⟨name, .client⟩) }
  | .establish fd name =>
    { state with
      locals := Function.update state.locals fd (some ⟨name, .server⟩)
      serverList := fd :: state.serverList }
  | .close fd =>
    let locals := Function.update state.locals fd none
    { locals := locals
      highestFd := lowered locals state.highestFd
      serverList := state.serverList.filter (· ≠ fd) }

/-- The system gives out descriptors that are not in use; a client or a server stays what it is. -/
def possible (state : State) : Action → Prop
  | .listen fd | .accept fd | .connect fd _ | .startAuth fd => state.locals fd = none
  | .authDone fd authfd => state.locals fd ≠ none ∧ state.locals authfd = none
  | .register fd _ | .establish fd _ => ∃ conn, state.locals fd = some conn ∧ conn.status.isRegistered = false
  | .close fd => state.locals fd ≠ none

def machine : Machine State Action := ⟨perform, possible⟩

/-- What `send_message` is called with: the text for servers, for the users of this server, or for one connection
with its prefix. -/
inductive Buffer where
  | fdlist | sendbuf | prefixed
  deriving DecidableEq, Repr

abbrev Sent := List (Nat × Buffer)

/-- `sendto_all_butone`. -/
def State.sendtoAllButone (state : State) (one : Nat) : Sent :=
  (List.range (state.highestFd + 1)).foldl (fun sent i =>
    match state.locals i with
    | none => sent
    | some cptr => if cptr.status ≠ .me ∧ one ≠ i then sent ++ [(i, .prefixed)] else sent) []

/-- `sendto_all_servmask`; `from` is reached by the connection `one`. -/
def State.sendtoAllServmask (state : State) (me : Text) (one : Nat) (mask : Text) : Sent :=
  let sent := state.serverList.foldl (fun sent fd =>
    match state.locals fd with
    | none => sent
    | some cptr => if fd ≠ one ∧ Mask.matchMask mask cptr.name = true then sent ++ [(fd, .fdlist)] else sent) []
  if Mask.matchMask mask me then
    (List.range state.highestFd).foldl (fun sent i =>
      match state.locals i with
      | none => sent
      | some cptr => if cptr.status = .client then sent ++ [(i, .sendbuf)] else sent) sent
  else sent

/-- Users of this server are to get a notice for it, and linked servers the one for them. -/
def State.due (state : State) (me : Text) (one : Nat) (mask : Text) (fd : Nat) : Buffer → Nat
  | .sendbuf =>
    if (state.locals fd).any (·.status = .client) ∧ Mask.matchMask mask me = true then 1 else 0
  | .fdlist =>
    if (state.locals fd).any (fun cptr => cptr.status = .server ∧ Mask.matchMask mask cptr.name = true) ∧ fd ≠ one then 1
    else 0
  | .prefixed => 0

/-- Everyone gets what is due, once, and nobody else anything. -/
def State.Reaches (state : State) (me : Text) (one : Nat) (mask : Text) : Prop :=
  ∀ fd buffer, (state.sendtoAllServmask me one mask).count (fd, buffer) = state.due me one mask fd buffer

/-- What every action keeps. -/
structure State.Sound (state : State) : Prop where
  covered : ∀ fd, state.locals fd ≠ none → fd ≤ state.highestFd
  once : state.serverList.Nodup
  servers : ∀ fd, fd ∈ state.serverList ↔ ∃ conn, state.locals fd = some conn ∧ conn.status = .server

theorem le_lowered (locals : Nat → Option Conn) (occupied : locals fd ≠ none) (below : fd ≤ highest) :
    fd ≤ lowered locals highest := by
  induction highest with
  | zero => exact below
  | succ highest ih =>
    unfold lowered
    by_cases here : (locals (highest + 1)).isSome
    · rw [if_pos here]
      exact below
    · rw [if_neg here]
      apply ih
      have other : fd ≠ highest + 1 := by
        intro same
        subst same
        exact here (Option.isSome_iff_ne_none.mpr occupied)
      omega

variable {state : State}

theorem Sound.start : start.Sound where
  covered := fun _ occupied => absurd rfl occupied
  once := List.nodup_nil
  servers := by simp [Servmask.start]

theorem State.Sound.raise (sound : state.Sound) (fd : Nat) :
    { state with highestFd := max state.highestFd fd }.Sound where
  covered := fun other occupied => (sound.covered other occupied).trans (Nat.le_max_left _ _)
  once := sound.once
  servers := sound.servers

/-- A connection that is no server comes to a free descriptor. -/
theorem State.Sound.enter (sound : state.Sound) (free : state.locals fd = none) (other : conn.status ≠ .server) :
    (enter state fd conn).Sound where
  covered := by
    intro other occupied
    by_cases same : other = fd
    · subst same
      exact Nat.le_max_right _ _
    · have before : state.locals other ≠ none := by simpa [Servmask.enter, same] using occupied
      exact (sound.covered other before).trans (Nat.le_max_left _ _)
  once := sound.once
  servers := by
    intro link
    by_cases same : link = fd
    · subst same
      simp [Servmask.enter, sound.servers, free, other]
    · simp [Servmask.enter, sound.servers, same]

/-- A connection that was neither is a user or a server now. -/
theorem State.Sound.accepted (sound : state.Sound) (here : state.locals fd = some conn)
    (fresh : conn.status.isRegistered = false) :
    fd ∉ state.serverList ∧ fd ≤ state.highestFd := by
  constructor
  · intro member
    obtain ⟨found, same, status⟩ := (sound.servers fd).mp member
    rw [here] at same
    cases same
    rw [status] at fresh
    cases fresh
  · exact sound.covered fd (by simp [here])

theorem State.Sound.perform (sound : state.Sound) (can : possible state action) : (perform state action).Sound := by
  cases action with
  | listen fd => exact sound.raise fd
  | startAuth fd => exact sound.raise fd
  | accept fd => exact sound.enter can (by decide)
  | connect fd name => exact sound.enter can (fun other => nomatch other)
  | authDone fd authfd =>
    simp only [Servmask.perform]
    split
    · refine ⟨?_, sound.once, sound.servers⟩
      intro other occupied
      exact le_lowered _ occupied (sound.covered other occupied)
    · exact sound
  | register fd name =>
    obtain ⟨conn, here, fresh⟩ := can
    obtain ⟨absent, below⟩ := sound.accepted here fresh
    refine ⟨?_, sound.once, ?_⟩
    · intro other occupied
      by_cases same : other = fd
      · exact same ▸ below
      · exact sound.covered other (by simpa [Servmask.perform, same] using occupied)
    · intro link
      by_cases same : link = fd
      · subst same
        simpa [Servmask.perform] using absent
      · simp [Servmask.perform, sound.servers, same]
  | establish fd name =>
    obtain ⟨conn, here, fresh⟩ := can
    obtain ⟨absent, below⟩ := sound.accepted here fresh
    refine ⟨?_, List.nodup_cons.mpr ⟨absent, sound.once⟩, ?_⟩
    · intro other occupied
      by_cases same : other = fd
      · exact same ▸ below
      · exact sound.covered other (by simpa [Servmask.perform, same] using occupied)
    · intro link
      by_cases same : link = fd
      · simp [Servmask.perform, same]
      · simp [Servmask.perform, sound.servers, same]
  | close fd =>
    refine ⟨?_, sound.once.filter _, ?_⟩
    · intro other occupied
      have before : state.locals other ≠ none := by
        intro gone
        apply occupied
        by_cases same : other = fd
        · simp [Servmask.perform, same]
        · simpa [Servmask.perform, same] using gone
      exact le_lowered _ occupied (sound.covered other before)
    · intro link
      by_cases same : link = fd
      · simp [Servmask.perform, same]
      · simp [Servmask.perform, sound.servers, same]

theorem State.Sound.run (run : machine.Run Machine.Any start state) : state.Sound :=
  run.invariant State.Sound (fun _ _ can _ sound => sound.perform can) Sound.start

section

variable (test : Nat → Conn → Prop) [∀ fd cptr, Decidable (test fd cptr)]

/-- Every entry that passes the test is sent to once, in the order of the list. -/
theorem foldl_sent (locals : Nat → Option Conn) (buffer : Buffer) (fds : List Nat) (sent : Sent) :
    fds.foldl (fun sent fd =>
      match locals fd with
      | none => sent
      | some cptr => if test fd cptr then sent ++ [(fd, buffer)] else sent) sent =
      sent ++ (fds.filter fun fd => (locals fd).any (test fd ·)).map (·, buffer) := by
  induction fds generalizing sent with
  | nil => simp
  | cons fd fds ih =>
    rw [List.foldl_cons, ih]
    cases here : locals fd with
    | none => simp [here]
    | some cptr =>
      by_cases passes : test fd cptr
      · simp [here, passes]
      · simp [here, passes]

theorem count_foldl_sent (locals : Nat → Option Conn) (buffer other : Buffer) {fds : List Nat} (once : fds.Nodup)
    (sent : Sent) (fd : Nat) :
    (fds.foldl (fun sent fd =>
      match locals fd with
      | none => sent
      | some cptr => if test fd cptr then sent ++ [(fd, buffer)] else sent) sent).count (fd, other) =
      sent.count (fd, other) + if other = buffer ∧ fd ∈ fds ∧ (locals fd).any (test fd ·) = true then 1 else 0 := by
  rw [foldl_sent test, List.count_append]
  congr 1
  by_cases same : other = buffer
  · subst same
    rw [List.count_map_of_injective _ (·, other) (fun _ _ equal => (Prod.mk.inj equal).1),
      List.Nodup.count (once.filter _)]
    simp
  · have absent : (fd, other) ∉ (fds.filter fun fd => (locals fd).any (test fd ·)).map (·, buffer) := by
      intro member
      obtain ⟨_, _, equal⟩ := List.mem_map.mp member
      exact same (Prod.mk.inj equal).2.symm
    rw [List.count_eq_zero.mpr absent, if_neg fun all => same all.1]

end

/-- The loop up to the highest descriptor reaches every connection. -/
theorem count_sendtoAllButone (sound : state.Sound) (one fd : Nat) :
    (state.sendtoAllButone one).count (fd, .prefixed) =
      if (state.locals fd).any (·.status ≠ .me) ∧ one ≠ fd then 1 else 0 := by
  unfold State.sendtoAllButone
  rw [count_foldl_sent (fun fd cptr => cptr.status ≠ .me ∧ one ≠ fd) state.locals .prefixed .prefixed List.nodup_range,
    List.count_nil, Nat.zero_add]
  congr 1
  have below : (state.locals fd).isSome → fd ≤ state.highestFd := fun some =>
    sound.covered fd (Option.isSome_iff_ne_none.mp some)
  cases here : state.locals fd with
  | none => simp
  | some cptr => simpa [Nat.lt_succ_iff, here] using fun _ _ => below (by simp [here])

/-- The loop over the linked servers. -/
theorem count_links (sound : state.Sound) (me : Text) (one : Nat) (mask : Text) (fd : Nat) (buffer : Buffer) :
    (state.serverList.foldl (fun sent fd =>
      match state.locals fd with
      | none => sent
      | some cptr => if fd ≠ one ∧ Mask.matchMask mask cptr.name = true then sent ++ [(fd, .fdlist)] else sent)
      []).count (fd, buffer) = if buffer = .fdlist then state.due me one mask fd .fdlist else 0 := by
  rw [count_foldl_sent (fun fd cptr => fd ≠ one ∧ Mask.matchMask mask cptr.name = true) state.locals .fdlist buffer
    sound.once [] fd, List.count_nil, Nat.zero_add]
  by_cases same : buffer = .fdlist
  · have member := sound.servers fd
    cases here : state.locals fd with
    | none => simp [State.due, here]
    | some cptr =>
      have server : fd ∈ state.serverList ↔ cptr.status = .server := by simpa [here] using member
      simp only [same, true_and, server, State.due, here, Option.any_some, decide_eq_true_eq, if_true]
      congr 1
      exact propext ⟨fun ⟨status, other, name⟩ => ⟨⟨status, name⟩, other⟩, fun ⟨⟨status, name⟩, other⟩ =>
        ⟨status, other, name⟩⟩
  · rw [if_neg fun all => same all.1, if_neg same]

/-- The loop over the users ends in front of the highest descriptor. -/
theorem count_sendtoAllServmask (sound : state.Sound) (me : Text) (one : Nat) (mask : Text) (fd : Nat) (buffer : Buffer) :
    (state.sendtoAllServmask me one mask).count (fd, buffer) =
      if buffer = .sendbuf ∧ fd = state.highestFd then 0 else state.due me one mask fd buffer := by
  have users := count_foldl_sent (fun _ cptr => cptr.status = .client) state.locals .sendbuf buffer
    (List.nodup_range (n := state.highestFd))
  simp only [State.sendtoAllServmask]
  by_cases matched : Mask.matchMask mask me = true
  · rw [if_pos matched, users, count_links sound me]
    cases buffer with
    | prefixed => simp [State.due]
    | fdlist => simp
    | sendbuf =>
      cases here : state.locals fd with
      | none => simp [State.due, here]
      | some cptr =>
        have below : fd ≤ state.highestFd := sound.covered fd (by simp [here])
        by_cases last : fd = state.highestFd
        · simp [last]
        · have inside : fd < state.highestFd := Nat.lt_of_le_of_ne below last
          simp [State.due, here, matched, last, inside]
  · rw [if_neg matched, count_links sound me]
    cases buffer <;> simp [State.due, matched]

/-- `sendto_all_butone` reaches everybody; a notice reaches everybody unless it is for this server and a user has the
highest descriptor. -/
theorem servmask_reaches (run : machine.Run Machine.Any start state) (me : Text) (one : Nat) (mask : Text) :
    (∀ fd, (state.sendtoAllButone one).count (fd, .prefixed) =
      if (state.locals fd).any (·.status ≠ .me) ∧ one ≠ fd then 1 else 0) ∧
    (state.Reaches me one mask ↔
      ¬ (Mask.matchMask mask me = true ∧ (state.locals state.highestFd).any (·.status = .client) = true)) := by
  have sound := State.Sound.run run
  refine ⟨count_sendtoAllButone sound one, ?_⟩
  constructor
  · rintro reaches ⟨matched, user⟩
    have last := reaches state.highestFd .sendbuf
    rw [count_sendtoAllServmask sound, if_pos ⟨rfl, rfl⟩] at last
    simp [State.due, matched, user] at last
  · intro apart fd buffer
    rw [count_sendtoAllServmask sound]
    split
    next last =>
      obtain ⟨rfl, rfl⟩ := last
      have none : ¬ ((state.locals state.highestFd).any (·.status = .client) = true ∧ Mask.matchMask mask me = true) :=
        fun both => apart both.symm
      simp only [State.due]
      rw [if_neg none]
    next => rfl

/-- Two users connect, and then a client whose ident server is asked. -/
def askingRun : List Action :=
  [.accept 4, .register 4 "ann".toList, .accept 7, .register 7 "bob".toList, .accept 8, .startAuth 9]

theorem asking_run : machine.Run Machine.Any start (askingRun.foldl perform start) :=
  Machine.Run.of_list askingRun (.refl start)
    ⟨rfl, trivial, ⟨_, rfl, rfl⟩, trivial, rfl, trivial, ⟨_, rfl, rfl⟩, trivial, rfl, trivial, rfl, trivial, trivial⟩

theorem servmask_reaches_asking : (askingRun.foldl perform start).Reaches "irc".toList 4 "irc".toList :=
  (servmask_reaches asking_run "irc".toList 4 "irc".toList).2.mpr fun both => absurd both.2 (by decide)

/-- Without that client the second user has the highest descriptor. -/
theorem last_user_missed :
    machine.Run Machine.Any start ((askingRun.take 4).foldl perform start) ∧
      ¬ ((askingRun.take 4).foldl perform start).Reaches "irc".toList 4 "irc".toList := by
  have run : machine.Run Machine.Any start ((askingRun.take 4).foldl perform start) :=
    Machine.Run.of_list (askingRun.take 4) (.refl start)
      ⟨rfl, trivial, ⟨_, rfl, rfl⟩, trivial, rfl, trivial, ⟨_, rfl, rfl⟩, trivial, trivial⟩
  refine ⟨run, ?_⟩
  intro reaches
  have matched : Mask.matchMask "irc".toList "irc".toList = true := Mask.matchMask_of_mycmp (mycmp_refl _) (by decide)
  have missed : State.due ((askingRun.take 4).foldl perform start) "irc".toList 4 "irc".toList 7 .sendbuf = 0 :=
    (reaches 7 .sendbuf).symm.trans (count_sendtoAllServmask (State.Sound.run run) _ _ _ 7 .sendbuf)
  have owed : State.due ((askingRun.take 4).foldl perform start) "irc".toList 4 "irc".toList 7 .sendbuf = 1 :=
    if_pos ⟨by decide, matched⟩
  rw [owed] at missed
  cases missed

end SolidIrcd.Send.Servmask
