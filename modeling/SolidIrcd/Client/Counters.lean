import SolidIrcd.Client.Split
import SolidIrcd.Lib.Census
import SolidIrcd.User.VisibleHost

/-! The counters of users, servers and connections, next to the list of clients they count. -/

namespace SolidIrcd.Lusers

open Scan (Text)
open Umode (User UModes OFlag Signon mUmode mSvsmode mOper)
open VisibleHost (askedUmodes)

abbrev ClientId := Nat

/-- `STAT_MASTER` and `STAT_LOG` are never set. -/
inductive Status where
  | connecting | handshake | me | unknown | server | client
  deriving DecidableEq, Repr

/-- `struct Client`, as far as it is counted; `user.mine` is `MyConnect`. -/
structure Client where
  cptr : ClientId
  uplink : ClientId
  status : Status
  user : User
  deriving DecidableEq

/-- The members of `Count`; `locals` is `Count.local`. -/
inductive Counter where
  | total | locals | unknown | server | myserver | invisi | oper
  deriving DecidableEq, Repr

abbrev Counts := Counter → Int

/-- `client`, newest first, the next free pointer, and `Count`. -/
structure State where
  clients : List Client
  next : ClientId
  count : Counts

def Client.mine (client : Client) : Bool := client.user.mine

def Client.invisible (client : Client) : Bool := .i ∈ client.user.umode

def one (condition : Bool) : Int := if condition then 1 else 0

/-- What the recount of `send_lusers` adds for a client. -/
def Client.tally (client : Client) : Counts
  | .server => one (client.status = .server ∨ client.status = .me)
  | .myserver => one (client.status = .server ∧ client.mine)
  | .total => one (client.status = .client)
  | .locals => one (client.status = .client ∧ client.mine)
  | .invisi => one (client.status = .client ∧ client.invisible)
  | .oper => one (client.status = .client ∧ client.user.isAnOper)
  | .unknown => one (client.status ≠ .server ∧ client.status ≠ .me ∧ client.status ≠ .client)

def recount (clients : List Client) : Counts := fun counter => Census.total (fun client => client.tally counter) clients

/-- A forced `LUSERS` corrects what is off. -/
def State.lusers (state : State) : State := { state with count := recount state.clients }

/-- A counter goes up, or down. -/
def Counts.bump (count : Counts) (counter : Counter) (step : Int) : Counts :=
  fun other => if other = counter then count other + step else count other

def State.find (state : State) (cptr : ClientId) : Option Client := state.clients.find? fun client => client.cptr = cptr

/-- A client in the place of the one with its pointer. -/
def State.store (state : State) (client : Client) : State :=
  { state with clients := Census.replace Client.cptr client state.clients }

/-- `add_client_to_list` of a new client. -/
def State.add (state : State) (uplink : ClientId) (status : Status) (user : User) : State :=
  { state with clients := ⟨state.next, uplink, status, user⟩ :: state.clients, next := state.next + 1 }

def State.bump (state : State) (counter : Counter) (step : Int) : State :=
  { state with count := state.count.bump counter step }

def State.bumpIf (state : State) (condition : Bool) (counter : Counter) (step : Int) : State :=
  if condition then state.bump counter step else state

/-- `remove_client_from_list`. -/
def State.remove (state : State) (client : Client) : State :=
  let state := state.bumpIf (client.status = .server) .server (-1)
  let state := state.bumpIf (client.status = .client) .total (-1)
  let state := state.bumpIf (client.status = .client ∧ client.user.isAnOper) .oper (-1)
  let state := state.bumpIf (client.status = .client ∧ client.invisible) .invisi (-1)
  { state with clients := state.clients.filter fun other => other.cptr ≠ client.cptr }

/-- A user record before there is a user. -/
def blank (mine : Bool) : User :=
  { mine := mine, umode := ∅, oflag := ∅, masked := false, forceFlood := false, ssl := false }

/-- The client as the recursion of a split sees it. -/
def Client.toSquit (client : Client) : Squit.Client :=
  { cptr := client.cptr
    uplink := client.uplink
    link := client.cptr
    status :=
      match client.status with
      | .me => .me
      | .server => .server
      | .client => .person
      | _ => .other
    name := [] }

/-- The order in which `exit_one_server` takes clients out of the list. -/
def exitOrder (clients : List Client) (cptr : Client) (calls : Nat) : Option (List ClientId) :=
  (Squit.exitOneServer ⟨cptr.cptr, [], 0, [], [], 0, []⟩ calls cptr.toSquit ⟨clients.map Client.toSquit, []⟩).map
    fun final => (Squit.gone final.log).map Squit.Client.cptr

def State.removeAll (state : State) (order : List ClientId) : State :=
  order.foldl (fun state cptr => match state.find cptr with | none => state | some client => state.remove client) state

/-- The modes behind the letters of a `MODE`, as the counters see them. -/
def countedUmodes (build : Build) (user : User) (letters : Text) : UModes :=
  if user.mine then askedUmodes build user letters
  else (letters.foldl (Umode.umodeChar build false) (.add, user.umode)).2

/-- The updates of `Count.oper` and `Count.invisi` in `m_umode`. -/
def State.recountUmode (state : State) (setflags umode : UModes) : State :=
  let wasOper : Bool := .o ∈ setflags ∨ .O ∈ setflags
  let isOper : Bool := .o ∈ umode ∨ .O ∈ umode
  let state := state.bumpIf (!wasOper && isOper) .oper 1
  let state := state.bumpIf (wasOper && !isOper) .oper (-1)
  let state := state.bumpIf (.i ∉ setflags ∧ .i ∈ umode) .invisi 1
  state.bumpIf (.i ∈ setflags ∧ .i ∉ umode) .invisi (-1)

/-- How many letters of an introduction count an operator. -/
def operLetters (parv4 : Text) : Nat := (parv4.drop 1).countP fun letter => letter = 'o' ∨ letter = 'O'

inductive Action where
  /-- `add_connection`. -/
  | connect
  | connectServer
  | completed (cptr : ClientId)
  /-- `do_server_estab`. -/
  | establish (cptr : ClientId)
  /-- `SERVER` from a server, about one behind it. -/
  | introduceServer (uplink : ClientId)
  /-- The end of `register_user` of a connection. -/
  | register (cptr : ClientId) (signon : Signon)
  /-- `NICK` from a server. -/
  | introduce (uplink : ClientId) (parc : Nat) (parv4 : Text)
  | mode (cptr : ClientId) (letters : Text)
  | svsmode (cptr : ClientId) (letters : Text)
  /-- `OPER`; the flags are those of the oper block whose password was given. -/
  | oper (cptr : ClientId) (flags : Finset OFlag)
  /-- `exit_client` of a user or a connection. -/
  | exit (cptr : ClientId)
  /-- `exit_client` of a server. -/
  | exitServer (cptr : ClientId) (calls : Nat)

def State.update (state : State) (cptr : ClientId) (change : Client → State) : State :=
  match state.find cptr with
  | none => state
  | some client => change client

def perform (build : Build) (letUmodez : Bool) (state : State) : Action → State
  | .connect => (state.add 0 .unknown (blank true)).bump .unknown 1
  | .connectServer => state.add 0 .connecting (blank true)
  | .completed cptr => state.update cptr fun client => state.store { client with status := .handshake }
  | .establish cptr =>
    state.update cptr fun client =>
      (((state.store { client with status := .server }).bump .unknown (-1)).bump .server 1).bump .myserver 1
  | .introduceServer uplink => (state.add uplink .server (blank false)).bump .server 1
  | .register cptr signon =>
    state.update cptr fun client =>
      let user := User.ofSignon build signon
      let state := ((state.bump .unknown (-1)).bump .locals 1).bump .total 1
      (state.bumpIf (.i ∈ user.umode) .invisi 1).store { client with status := .client, user := user }
  | .introduce uplink parc parv4 =>
    let state := state.bump .oper (operLetters parv4)
    if parc = 11 then
      let user := User.ofNick build parv4
      ((state.bump .total 1).bumpIf (.i ∈ user.umode) .invisi 1).add uplink .client user
    else state.add uplink .unknown { blank false with umode := Umode.nickUmodes build parv4 }
  | .mode cptr letters =>
    state.update cptr fun client =>
      (state.recountUmode (client.user.umode ∩ (Umode.userModes build).toFinset)
        (countedUmodes build client.user letters)).store { client with user := mUmode build letUmodez client.user letters }
  | .svsmode cptr letters =>
    state.update cptr fun client => state.store { client with user := mSvsmode build client.user letters }
  | .oper cptr flags =>
    state.update cptr fun client =>
      if client.mine ∧ client.user.isAnOper then state
      else (state.bump .oper 1).store { client with user := mOper client.user flags }
  | .exit cptr =>
    state.update cptr fun client =>
      let state := state.bumpIf (client.mine ∧ client.status = .unknown) .unknown (-1)
      (state.bumpIf (client.mine ∧ client.status = .client) .locals (-1)).remove client
  | .exitServer cptr calls =>
    state.update cptr fun client =>
      let state := state.bumpIf client.mine .myserver (-1)
      match exitOrder state.clients client calls with
      | none => state
      | some order => state.removeAll order

/-- The client is there with one of the statuses. -/
def State.Has (state : State) (cptr : ClientId) (status : Status → Bool) : Prop :=
  ∃ client, state.find cptr = some client ∧ status client.status = true

/-- When an action can happen. -/
def State.Possible (state : State) : Action → Prop
  | .connect | .connectServer => True
  | .completed cptr => state.Has cptr (· = .connecting)
  | .establish cptr => ∃ client, state.find cptr = some client ∧ client.mine = true ∧
      (client.status = .unknown ∨ client.status = .handshake)
  | .introduceServer uplink => state.Has uplink (· = .server)
  | .register cptr _ => ∃ client, state.find cptr = some client ∧ client.mine = true ∧ client.status = .unknown
  | .introduce uplink parc _ => state.Has uplink (fun status => status = .server ∨ status = .me) ∧ 11 ≤ parc
  | .mode cptr _ | .svsmode cptr _ | .oper cptr _ => state.Has cptr (· = .client)
  | .exit cptr => state.Has cptr fun status => status ≠ .server ∧ status ≠ .me
  | .exitServer cptr calls =>
    ∃ client, state.find cptr = some client ∧ client.status = .server ∧
      (exitOrder state.clients client calls).isSome = true

def machine (build : Build) (letUmodez : Bool) : Machine State Action := ⟨perform build letUmodez, State.Possible⟩

/-- The server alone. -/
def booted : State :=
  { clients := [⟨0, 0, .me, blank true⟩]
    next := 1
    count := fun counter => if counter = .server then 1 else 0 }

/-- Only what is counted as it comes: no connection to a server is opened, an introduction has all its parameters
and one letter of an operator at most, services leave `i` and the last letter of an operator alone, and `OPER` comes
from a user that is no operator, or from one of this server. -/
def State.Counted (build : Build) (state : State) : Action → Prop
  | .connectServer => False
  | .introduce _ parc parv4 => parc = 11 ∧ operLetters parv4 ≤ 1
  | .svsmode cptr letters =>
    ∀ client, state.find cptr = some client →
      (Umode.svsmodeAsks build letters .i).getD client.invisible = client.invisible ∧
        ((Umode.svsmodeAsks build letters .o).getD (.o ∈ client.user.umode) ||
          (Umode.svsmodeAsks build letters .O).getD (.O ∈ client.user.umode)) = client.user.isAnOper
  | .oper cptr _ => ∀ client, state.find cptr = some client → client.mine = true ∨ client.user.isAnOper = false
  | _ => True

/-- The list is in order, and the counters differ by `owed` from what a recount gives. -/
structure State.Good (owed : Counts) (state : State) : Prop where
  positive : 0 < state.next
  nodup : (state.clients.map Client.cptr).Nodup
  fresh : ∀ client ∈ state.clients, client.cptr < state.next
  below : ∀ client ∈ state.clients, client.status ≠ .me → client.uplink < client.cptr
  root : ∀ client ∈ state.clients, client.cptr = 0 → client.status = .me
  own : ∀ client ∈ state.clients, client.mine = true → client.uplink = 0
  linked : ∀ client ∈ state.clients, client.status ≠ .connecting ∧ client.status ≠ .handshake
  unknown : ∀ client ∈ state.clients, client.status = .unknown → client.mine = true
  exact : ∀ counter, state.count counter = recount state.clients counter + owed counter

section

variable {state final : State} {client : Client} {owed : Counts}

@[simp] theorem bumpIf_clients (state : State) (condition : Bool) (counter : Counter) (step : Int) :
    (state.bumpIf condition counter step).clients = state.clients := by
  unfold State.bumpIf
  split <;> rfl

@[simp] theorem bumpIf_next (state : State) (condition : Bool) (counter : Counter) (step : Int) :
    (state.bumpIf condition counter step).next = state.next := by
  unfold State.bumpIf
  split <;> rfl

/-- A counter after a conditional change. -/
@[simp] theorem bumpIf_count (state : State) (condition : Bool) (counter other : Counter) (step : Int) :
    (state.bumpIf condition counter step).count other =
      state.count other + if other = counter then step * one condition else 0 := by
  unfold State.bumpIf State.bump Counts.bump one
  cases condition <;> by_cases same : other = counter <;> simp [same]

@[simp] theorem bump_count (state : State) (counter other : Counter) (step : Int) :
    (state.bump counter step).count other = state.count other + if other = counter then step else 0 := by
  unfold State.bump Counts.bump
  by_cases same : other = counter <;> simp [same]

theorem find_some (found : state.find cptr = some client) : client ∈ state.clients ∧ client.cptr = cptr :=
  ⟨List.mem_of_find?_eq_some found, by simpa using List.find?_some found⟩

/-- A client changes, and the counters by the difference. -/
theorem State.Good.stored (good : state.Good owed) (member : client ∈ state.clients) (new : Client)
    (same : new.cptr = client.cptr ∧ new.uplink = client.uplink ∧ new.mine = client.mine)
    (status : new.status = .client ∨ new.status = .server) (notMe : client.status ≠ .me)
    (clients : final.clients = Census.replace Client.cptr new state.clients) (next : final.next = state.next)
    (count : ∀ counter, final.count counter = state.count counter - client.tally counter + new.tally counter) :
    final.Good owed := by
  obtain ⟨cptr, uplink, mine⟩ := same
  have either (other : Client) (present : other ∈ final.clients) : other = new ∨ other ∈ state.clients := by
    rw [clients] at present
    exact (Census.mem_replace present).imp_right And.left
  constructor
  · exact next ▸ good.positive
  · rw [clients, Census.keys_replace]
    exact good.nodup
  · intro other present
    rw [next]
    rcases either other present with rfl | old
    · exact cptr ▸ good.fresh client member
    · exact good.fresh other old
  · intro other present notMe'
    rcases either other present with rfl | old
    · rw [uplink, cptr]
      exact good.below client member notMe
    · exact good.below other old notMe'
  · intro other present zero
    rcases either other present with rfl | old
    · exact absurd (good.root client member (cptr ▸ zero)) notMe
    · exact good.root other old zero
  · intro other present own
    rcases either other present with rfl | old
    · rw [uplink]
      exact good.own client member (mine ▸ own)
    · exact good.own other old own
  · intro other present
    rcases either other present with rfl | old
    · rcases status with isStatus | isStatus <;> simp [isStatus]
    · exact good.linked other old
  · intro other present unknown
    rcases either other present with rfl | old
    · rcases status with isStatus | isStatus <;> simp [isStatus] at unknown
    · exact good.unknown other old unknown
  · intro counter
    have replaced : recount final.clients counter =
        recount state.clients counter - client.tally counter + new.tally counter := by
      rw [clients]
      exact Census.total_replace good.nodup member cptr.symm
    rw [count, good.exact, replaced]
    omega

/-- A client comes, and the counters go up by it. -/
theorem State.Good.added (good : state.Good owed) (new : Client) (cptr : new.cptr = state.next)
    (below : new.uplink < state.next) (own : new.mine = true → new.uplink = 0)
    (status : new.status = .client ∨ new.status = .server ∨ (new.status = .unknown ∧ new.mine = true))
    (clients : final.clients = new :: state.clients) (next : final.next = state.next + 1)
    (count : ∀ counter, final.count counter = state.count counter + new.tally counter) : final.Good owed := by
  have either (other : Client) (present : other ∈ final.clients) : other = new ∨ other ∈ state.clients := by
    rw [clients] at present
    exact List.mem_cons.mp present
  constructor
  · rw [next]
    exact Nat.succ_pos _
  · rw [clients, List.map_cons, List.nodup_cons]
    refine ⟨fun old => ?_, good.nodup⟩
    obtain ⟨other, present, same⟩ := List.mem_map.mp old
    exact absurd (same.trans cptr) (Nat.ne_of_lt (good.fresh other present))
  · intro other present
    rw [next]
    rcases either other present with rfl | old
    · exact cptr ▸ Nat.lt_succ_self _
    · exact Nat.lt_succ_of_lt (good.fresh other old)
  · intro other present notMe
    rcases either other present with rfl | old
    · rwa [cptr]
    · exact good.below other old notMe
  · intro other present zero
    rcases either other present with rfl | old
    · exact absurd (cptr.symm.trans zero) (Nat.ne_of_gt good.positive)
    · exact good.root other old zero
  · intro other present mine
    rcases either other present with rfl | old
    · exact own mine
    · exact good.own other old mine
  · intro other present
    rcases either other present with rfl | old
    · rcases status with isStatus | isStatus | ⟨isStatus, _⟩ <;> simp [isStatus]
    · exact good.linked other old
  · intro other present unknown
    rcases either other present with rfl | old
    · rcases status with isStatus | isStatus | ⟨_, mine⟩
      · simp [isStatus] at unknown
      · simp [isStatus] at unknown
      · exact mine
    · exact good.unknown other old unknown
  · intro counter
    rw [count, good.exact, clients]
    simp only [recount, Census.total]
    omega

/-- A client goes; what the counters do not lose with it is owed. -/
theorem State.Good.removed (good : state.Good owed) (member : client ∈ state.clients)
    (clients : final.clients = state.clients.filter fun other => other.cptr ≠ client.cptr)
    (next : final.next = state.next) (left : Counts)
    (count : ∀ counter, final.count counter = state.count counter - client.tally counter - owed counter + left counter) :
    final.Good left := by
  have old (other : Client) (present : other ∈ final.clients) : other ∈ state.clients := by
    rw [clients] at present
    exact List.mem_of_mem_filter present
  constructor
  · exact next ▸ good.positive
  · rw [clients]
    exact good.nodup.sublist (List.filter_sublist.map _)
  · exact fun other present => next ▸ good.fresh other (old other present)
  · exact fun other present => good.below other (old other present)
  · exact fun other present => good.root other (old other present)
  · exact fun other present => good.own other (old other present)
  · exact fun other present => good.linked other (old other present)
  · exact fun other present => good.unknown other (old other present)
  · intro counter
    have without : recount final.clients counter = recount state.clients counter - client.tally counter := by
      rw [clients]
      exact Census.total_remove good.nodup member
    rw [count, good.exact, without]
    omega

/-- Only a server of this server leaves something to `exit_client`. -/
theorem remove_count (state : State) (client : Client) (counter : Counter)
    (status : client.status ≠ .me) : (state.remove client).count counter =
      state.count counter - client.tally counter +
        (if counter = .myserver then one (client.status = .server ∧ client.mine)
        else if counter = .locals then one (client.status = .client ∧ client.mine)
        else if counter = .unknown then one (client.status ≠ .server ∧ client.status ≠ .client) else 0) := by
  simp only [State.remove, bumpIf_count]
  cases counter with
  | server => simp [Client.tally, status]; omega
  | myserver => simp [Client.tally]
  | total => simp [Client.tally]; omega
  | locals => simp [Client.tally]
  | invisi => simp [Client.tally]; omega
  | oper => simp [Client.tally]; omega
  | unknown => simp [Client.tally, status]

/-- The three modes that count are in the table. -/
theorem counted_userModes (build : Build) :
    .o ∈ (Umode.userModes build).toFinset ∧ .O ∈ (Umode.userModes build).toFinset ∧
      .i ∈ (Umode.userModes build).toFinset := by
  simp [Umode.userModes]

/-- What `m_umode` counts is what it leaves. -/
theorem mUmode_counted (build : Build) (letUmodez : Bool) (user : User) (letters : Text) :
    (mUmode build letUmodez user letters).mine = user.mine ∧
      ∀ flag, flag = .o ∨ flag = .O ∨ flag = .i →
        (flag ∈ (mUmode build letUmodez user letters).umode ↔ flag ∈ countedUmodes build user letters) := by
  unfold countedUmodes
  cases mine : user.mine with
  | false => simp [mUmode, mine]
  | true =>
    obtain ⟨umode, oflag, settled, asked⟩ := VisibleHost.mUmode_eq_settle build letUmodez mine letters
    rw [settled, if_pos rfl]
    refine ⟨mine, fun flag counts => ?_⟩
    have plain : flag ∉ Umode.operUmodes ∪ {.k, .s} ∧ flag.needs = none ∧ flag ≠ .F ∧ flag ≠ .W ∧ flag ≠ .z := by
      rcases counts with rfl | rfl | rfl <;> decide
    obtain ⟨free, none, notF, notW, notZ⟩ := plain
    rw [Umode.mem_settle_plain _ ⟨free, none, notF, notW⟩]
    exact asked flag notZ

/-- The counters go up by what is gained, and down by what is lost. -/
theorem recountUmode_count (state : State) (setflags umode : UModes) (counter : Counter) :
    (state.recountUmode setflags umode).count counter =
      state.count counter +
        (if counter = .oper then one (.o ∈ umode ∨ .O ∈ umode) - one (.o ∈ setflags ∨ .O ∈ setflags)
        else if counter = .invisi then one (.i ∈ umode) - one (.i ∈ setflags) else 0) := by
  simp only [State.recountUmode, bumpIf_count]
  cases counter with
  | oper =>
    generalize decide (.o ∈ setflags ∨ .O ∈ setflags) = was
    generalize decide (.o ∈ umode ∨ .O ∈ umode) = is
    cases was <;> cases is <;> simp [one]
  | invisi =>
    by_cases was : .i ∈ setflags <;> by_cases is : .i ∈ umode <;> simp [one, was, is]
  | _ => simp

/-- The counters follow the modes of a user. -/
theorem State.Good.moded (good : state.Good owed) (build : Build) (letUmodez : Bool) (member : client ∈ state.clients)
    (status : client.status = .client) (letters : Text) :
    ((state.recountUmode (client.user.umode ∩ (Umode.userModes build).toFinset)
      (countedUmodes build client.user letters)).store
        { client with user := mUmode build letUmodez client.user letters }).Good owed := by
  obtain ⟨mine, modes⟩ := mUmode_counted build letUmodez client.user letters
  obtain ⟨knownO, knownL, knownI⟩ := counted_userModes build
  have known (flag : Umode.UMode) (there : flag ∈ (Umode.userModes build).toFinset) :
      flag ∈ client.user.umode ∩ (Umode.userModes build).toFinset ↔ flag ∈ client.user.umode := by
    rw [Finset.mem_inter, and_iff_left there]
  refine good.stored member { client with user := mUmode build letUmodez client.user letters } ⟨rfl, rfl, mine⟩
    (.inl status) (by simp [status]) (by simp [State.store, State.recountUmode])
      (by simp [State.store, State.recountUmode]) ?_
  intro counter
  change (state.recountUmode _ _).count counter = _
  rw [recountUmode_count]
  simp only [known .o knownO, known .O knownL, known .i knownI, ← modes .o (by simp), ← modes .O (by simp),
    ← modes .i (by simp)]
  cases counter with
  | oper => simp only [Client.tally, status, User.isAnOper]; simp; omega
  | invisi => simp only [Client.tally, status, Client.invisible]; simp; omega
  | locals => simp [Client.tally, Client.mine, status, mine]
  | total => simp [Client.tally, status]
  | unknown => simp [Client.tally, status]
  | server => simp [Client.tally, status]
  | myserver => simp [Client.tally, status]

/-- A user record changes, and its counters with it. -/
theorem State.Good.user (good : state.Good owed) (member : client ∈ state.clients) (status : client.status = .client)
    (user : User) (mine : user.mine = client.mine) (clients : final.clients =
      Census.replace Client.cptr { client with user := user } state.clients) (next : final.next = state.next)
    (count : ∀ counter, final.count counter = state.count counter - client.tally counter +
      Client.tally { client with user := user } counter) : final.Good owed :=
  good.stored member { client with user := user } ⟨rfl, rfl, mine⟩ (.inl status) (by simp [status]) clients next count

theorem mSvsmode_counted (build : Build) (user : User) (letters : Text) :
    (mSvsmode build user letters).mine = user.mine ∧
      (mSvsmode build user letters).isAnOper = ((Umode.svsmodeAsks build letters .o).getD (.o ∈ user.umode) ||
        (Umode.svsmodeAsks build letters .O).getD (.O ∈ user.umode)) := by
  refine ⟨Umode.mine_svsmodeChars build (.add, user) letters, ?_⟩
  rw [← Umode.mem_mSvsmode, ← Umode.mem_mSvsmode, User.isAnOper, Bool.decide_or]

/-- `OPER` makes an operator and leaves `i` alone. -/
theorem mOper_counted (user : User) (flags : Finset OFlag) (fresh : user.isAnOper = false) :
    (mOper user flags).mine = user.mine ∧ (mOper user flags).isAnOper = true ∧
      (.i ∈ (mOper user flags).umode ↔ .i ∈ user.umode) := by
  simp only [User.isAnOper, decide_eq_false_iff_not, not_or] at fresh
  obtain ⟨notGlobal, notLocal⟩ := fresh
  have level : (.o : Umode.UMode) ∈ (if Umode.isGlobal flags then ({.o} : UModes) else {.O}) ∨
      (.O : Umode.UMode) ∈ (if Umode.isGlobal flags then ({.o} : UModes) else {.O}) := by
    split
    · exact .inl (Finset.mem_singleton_self _)
    · exact .inr (Finset.mem_singleton_self _)
  have silent : (.i : Umode.UMode) ∉ (if Umode.isGlobal flags then ({.o} : UModes) else {.O}) := by
    split <;> decide
  have extra : (.i : Umode.UMode) ∉ (if .sadmin ∈ flags then ({.a, .A, .o} : UModes)
      else if .admin ∈ flags then {.A, .o} else if Umode.isGlobal flags then {.o} else {.O}) := by
    split_ifs <;> decide
  unfold mOper
  split
  · simp [User.isAnOper]
  · rw [if_neg (by simp [User.isAnOper, notGlobal, notLocal])]
    refine ⟨rfl, ?_, ?_⟩
    · simp only [User.isAnOper, Finset.mem_union, decide_eq_true_eq]
      rcases level with same | same
      · exact .inl (.inl (.inl (.inr same)))
      · exact .inr (.inl (.inl (.inr same)))
    · simp only [Finset.mem_union, silent, extra, or_false]
      simp

theorem mem_given (condition : Bool) (given mode : Umode.UMode) :
    mode ∈ Umode.given condition given ↔ condition = true ∧ mode = given := by
  unfold Umode.given
  split <;> simp [*]

/-- Nobody registers as an operator. -/
theorem ofSignon_counted (build : Build) (signon : Signon) : (User.ofSignon build signon).isAnOper = false := by
  simp [User.isAnOper, User.ofSignon, Umode.signonUmodes, Umode.selfUmodes, mem_given]

theorem mem_nickUmodes (build : Build) (parv4 : Text) (host : flag ∈ VisibleHost.hostUmodes)
    (sent : flag ∈ Umode.sendUmodes) :
    flag ∈ Umode.nickUmodes build parv4 ↔ flag.letter ∈ parv4.drop 1 := by
  simp only [Umode.nickUmodes, List.mem_toFinset, List.mem_filter, List.mem_filterMap, sent, decide_true, and_true]
  constructor
  · rintro ⟨letter, member, found⟩
    exact (Umode.lookupUmode_letter found).symm ▸ member
  · intro member
    exact ⟨flag.letter, member, VisibleHost.lookupUmode_hostUmodes build host⟩

/-- An introduction makes an operator when one of its letters counts. -/
theorem ofNick_counted (build : Build) (parv4 : Text) :
    (User.ofNick build parv4).isAnOper = decide (0 < operLetters parv4) := by
  have global : .o ∈ Umode.nickUmodes build parv4 ↔ 'o' ∈ parv4.drop 1 := mem_nickUmodes build parv4 (by decide) (by decide)
  have localOp : .O ∈ Umode.nickUmodes build parv4 ↔ 'O' ∈ parv4.drop 1 := mem_nickUmodes build parv4 (by decide) (by decide)
  simp only [User.isAnOper, User.ofNick, global, localOp, operLetters, List.countP_pos_iff, decide_eq_decide]
  constructor
  · rintro (member | member)
    · exact ⟨'o', member, by decide⟩
    · exact ⟨'O', member, by decide⟩
  · rintro ⟨letter, member, oper⟩
    rcases of_decide_eq_true oper with rfl | rfl
    · exact .inl member
    · exact .inr member

def nothing : Counts := fun _ => 0

/-- What is owed for a server until it is out of the list. -/
def owedFor (top : Client) (order : List ClientId) : Counts := fun counter =>
  if counter = .myserver ∧ top.cptr ∈ order then - one top.mine else 0

/-- Nothing is owed for a client. -/
def Client.Free (client : Client) : Prop := client.mine = false ∧ (client.status = .server ∨ client.status = .client)

/-- The whole of a split is taken out. -/
theorem State.Good.removedAll (good : state.Good (owedFor top order)) (server : top.status = .server) (once : order.Nodup)
    (present : ∀ cptr ∈ order, ∃ client ∈ state.clients, client.cptr = cptr ∧
      (client = top ∨ (client.cptr ≠ top.cptr ∧ client.Free))) : (state.removeAll order).Good nothing := by
  induction order generalizing state with
  | nil =>
    have free : owedFor top [] = nothing := funext fun counter => if_neg fun owed => List.not_mem_nil owed.2
    exact free ▸ good
  | cons cptr order ih =>
    obtain ⟨absent, once⟩ := List.nodup_cons.mp once
    obtain ⟨client, member, named, kind⟩ := present cptr List.mem_cons_self
    have found : state.find cptr = some client := by
      cases looked : state.find cptr with
      | none =>
        have missing := List.find?_eq_none.mp looked client member
        exact absurd named (by simpa using missing)
      | some other =>
        obtain ⟨member', named'⟩ := find_some looked
        rw [List.inj_on_of_nodup_map good.nodup member' member (named'.trans named.symm)]
    rw [State.removeAll, List.foldl_cons, found]
    change ((state.remove client).removeAll order).Good nothing
    apply ih
    · refine good.removed member (by simp [State.remove]) (by simp [State.remove]) (owedFor top order) ?_
      intro counter
      rcases kind with rfl | ⟨other, notMine, status⟩
      · rw [remove_count state client counter (by simp [server])]
        cases counter <;> simp [owedFor, named, server, absent, one]
      · have notMe : client.status ≠ .me := by rcases status with same | same <;> simp [same]
        have stays : owedFor top (cptr :: order) = owedFor top order := by
          funext counter
          simp only [owedFor, List.mem_cons, ← named, or_iff_right (Ne.symm other)]
        rw [remove_count state client counter notMe, stays]
        rcases status with same | same <;> cases counter <;> simp [notMine, same, one]
    · exact once
    · intro next later
      obtain ⟨client', member', named', kind'⟩ := present next (List.mem_cons_of_mem _ later)
      refine ⟨client', ?_, named', kind'⟩
      have differs : client'.cptr ≠ client.cptr := by
        rintro same
        exact absent (named ▸ same ▸ named' ▸ later)
      simp [State.remove, member', differs]

theorem toSquit_status (client : Client) : (client.toSquit.status = .server ↔ client.status = .server) ∧
    (client.toSquit.status = .person ↔ client.status = .client) := by
  cases status : client.status <;> simp [Client.toSquit, status]

/-- Uplinks lead to older servers. -/
theorem State.Good.forest (good : state.Good owed) : Squit.Forest (state.clients.map Client.toSquit) := by
  apply Squit.Forest.of_numbers
  · rw [List.map_map]
    exact good.nodup
  · intro cptr seen status
    obtain ⟨client, member, rfl⟩ := List.mem_map.mp seen
    rw [(toSquit_status client).1, (toSquit_status client).2] at status
    refine good.below client member ?_
    rcases status with same | same <;> simp [same]

/-- What is behind a server came in over a link. -/
theorem State.Good.behind (good : state.Good owed) (top : Client)
    (behind : Squit.Behind (state.clients.map Client.toSquit) top.toSquit child) (member : top ∈ state.clients) :
    ∃ client ∈ state.clients, client.toSquit = child ∧
      (client = top ∨ (client.cptr ≠ top.cptr ∧ client.Free)) := by
  rcases Relation.ReflTransGen.cases_tail behind with same | ⟨middle, _, below⟩
  · exact ⟨top, member, same.symm, .inl rfl⟩
  · obtain ⟨seen, seen', server, status, uplink⟩ := below
    obtain ⟨above, there, rfl⟩ := List.mem_map.mp seen
    obtain ⟨client, here, rfl⟩ := List.mem_map.mp seen'
    refine ⟨client, here, rfl, ?_⟩
    by_cases same : client.cptr = top.cptr
    · exact .inl (List.inj_on_of_nodup_map good.nodup here member same)
    · refine .inr ⟨same, ?_, ?_⟩
      · apply Bool.eq_false_iff.mpr
        intro mine
        have zero : above.cptr = 0 := uplink.symm.trans (good.own client here mine)
        rw [(toSquit_status above).1, good.root above there zero] at server
        exact absurd server (by decide)
      · rw [(toSquit_status client).1, (toSquit_status client).2] at status
        exact status.symm

/-- A server goes with all that is behind it. -/
theorem State.Good.split (good : state.Good nothing) (member : client ∈ state.clients) (server : client.status = .server)
    (returned : exitOrder state.clients client calls = some order) :
    ((state.bumpIf client.mine .myserver (-1)).removeAll order).Good nothing := by
  obtain ⟨final, exits, rfl⟩ := Option.map_eq_some_iff.mp returned
  have inside : client.toSquit ∈ state.clients.map Client.toSquit := List.mem_map_of_mem member
  obtain ⟨once, behind⟩ := good.forest.exit_behind inside ((toSquit_status client).1.mpr server) exits
  have self : client.cptr ∈ (Squit.gone final.log).map Squit.Client.cptr :=
    List.mem_map.mpr ⟨client.toSquit, (behind _).mpr .refl, rfl⟩
  have owing : (state.bumpIf client.mine .myserver (-1)).Good
      (owedFor client ((Squit.gone final.log).map Squit.Client.cptr)) := {
    positive := by simpa using good.positive
    nodup := by simpa using good.nodup
    fresh := by simpa using good.fresh
    below := by simpa using good.below
    root := by simpa using good.root
    own := by simpa using good.own
    linked := by simpa using good.linked
    unknown := by simpa using good.unknown
    exact := by
      intro counter
      rw [bumpIf_count, bumpIf_clients, good.exact]
      by_cases same : counter = .myserver <;> simp [owedFor, nothing, self, same] }
  refine owing.removedAll server ?_ ?_
  · refine List.Nodup.map_on ?_ once
    intro first listed second listed' same
    obtain ⟨one, there, rfl, _⟩ := good.behind client ((behind _).mp listed) member
    obtain ⟨two, there', rfl, _⟩ := good.behind client ((behind _).mp listed') member
    rw [List.inj_on_of_nodup_map good.nodup there there' same]
  · intro cptr listed
    obtain ⟨child, there, rfl⟩ := List.mem_map.mp listed
    obtain ⟨found, here, rfl, kind⟩ := good.behind client ((behind _).mp there) member
    exact ⟨found, by simpa using here, rfl, kind⟩

theorem booted_good : booted.Good nothing where
  positive := Nat.one_pos
  nodup := List.nodup_singleton _
  fresh := by simp [booted]
  below := by simp [booted]
  root := by simp [booted]
  own := by simp [booted]
  linked := by simp [booted]
  unknown := by simp [booted]
  exact := by
    intro counter
    cases counter <;> simp [booted, recount, Census.total, Client.tally, nothing, one]

/-- Every action that is counted as it happens keeps the counters exact. -/
theorem perform_good (build : Build) (letUmodez : Bool) (good : state.Good nothing) (action : Action)
    (possible : state.Possible action) (counted : state.Counted build action) :
    (perform build letUmodez state action).Good nothing := by
  cases action with
  | connect =>
    refine good.added ⟨state.next, 0, .unknown, blank true⟩ rfl good.positive (fun _ => rfl)
      (.inr (.inr ⟨rfl, rfl⟩)) rfl rfl ?_
    intro counter
    rw [perform, bump_count]
    cases counter <;> simp [State.add, Client.tally, one]
  | connectServer => exact counted.elim
  | completed cptr =>
    obtain ⟨client, found, status⟩ := possible
    exact absurd (of_decide_eq_true status) (good.linked client (find_some found).1).1
  | establish cptr =>
    obtain ⟨client, found, mine, status⟩ := possible
    obtain ⟨member, _⟩ := find_some found
    have unknown : client.status = .unknown := status.resolve_right (good.linked client member).2
    rw [perform, State.update, found]
    refine good.stored member { client with status := .server } ⟨rfl, rfl, rfl⟩ (.inr rfl) (by simp [unknown]) rfl rfl ?_
    intro counter
    rw [bump_count, bump_count, bump_count]
    have owned : Client.mine { client with status := .server } = true := mine
    cases counter with
    | unknown => simp [State.store, Client.tally, unknown, one]; omega
    | _ => simp [State.store, Client.tally, unknown, one, mine, owned]
  | introduceServer uplink =>
    obtain ⟨server, found, _⟩ := possible
    obtain ⟨member, rfl⟩ := find_some found
    refine good.added ⟨state.next, server.cptr, .server, blank false⟩ rfl (good.fresh server member)
      (fun mine => absurd mine (by simp [Client.mine, blank])) (.inr (.inl rfl)) rfl rfl ?_
    intro counter
    rw [perform, bump_count]
    cases counter <;> simp [State.add, Client.tally, Client.mine, blank, one]
  | register cptr signon =>
    obtain ⟨client, found, mine, unknown⟩ := possible
    obtain ⟨member, _⟩ := find_some found
    rw [perform, State.update, found]
    refine good.stored member { client with status := .client, user := User.ofSignon build signon } ⟨rfl, rfl, mine.symm⟩
      (.inl rfl) (by simp [unknown]) (by simp [State.store, State.bump]) (by simp [State.store, State.bump]) ?_
    intro counter
    have notOper := ofSignon_counted build signon
    have owned : (User.ofSignon build signon).mine = true := rfl
    simp only [State.store, bumpIf_count, bump_count]
    cases counter with
    | unknown => simp [Client.tally, unknown, one]; omega
    | _ => simp [Client.tally, Client.mine, Client.invisible, unknown, one, notOper, owned]
  | introduce uplink parc parv4 =>
    obtain ⟨all, single⟩ := counted
    obtain ⟨⟨server, found, _⟩, _⟩ := possible
    obtain ⟨member, rfl⟩ := find_some found
    have remote : (User.ofNick build parv4).mine = false := rfl
    have oper := ofNick_counted build parv4
    rw [perform, if_pos all]
    refine good.added ⟨state.next, server.cptr, .client, User.ofNick build parv4⟩ (by simp)
      (good.fresh server member) (fun mine => absurd mine (by simp [Client.mine, remote])) (.inl rfl) ?_ ?_ ?_
    · simp [State.add, State.bump]
    · simp [State.add, State.bump]
    · intro counter
      simp only [State.add, bumpIf_count, bump_count]
      have letters : (operLetters parv4 : Int) = one (decide (0 < operLetters parv4)) := by
        rcases Nat.le_one_iff_eq_zero_or_eq_one.mp single with same | same <;> simp [same, one]
      cases counter <;> simp [Client.tally, Client.mine, Client.invisible, remote, oper, letters, one]
  | mode cptr letters =>
    obtain ⟨client, found, status⟩ := possible
    have status : client.status = .client := of_decide_eq_true status
    have member := (find_some found).1
    rw [perform, State.update, found]
    exact good.moded build letUmodez member status letters
  | svsmode cptr letters =>
    obtain ⟨client, found, status⟩ := possible
    have status : client.status = .client := of_decide_eq_true status
    have member := (find_some found).1
    obtain ⟨invisible, oper⟩ := counted client found
    obtain ⟨mine, operNow⟩ := mSvsmode_counted build client.user letters
    have hidden : Client.invisible { client with user := mSvsmode build client.user letters } = client.invisible :=
      (Umode.mem_mSvsmode build client.user letters).trans invisible
    rw [perform, State.update, found]
    refine good.user member status (mSvsmode build client.user letters) mine rfl rfl ?_
    intro counter
    have owned : Client.mine { client with user := mSvsmode build client.user letters } = client.mine := mine
    cases counter <;> simp [State.store, Client.tally, hidden, owned, operNow.trans oper]
  | oper cptr flags =>
    obtain ⟨client, found, status⟩ := possible
    have status : client.status = .client := of_decide_eq_true status
    have member := (find_some found).1
    rw [perform, State.update, found]
    dsimp only
    split
    · exact good
    next other =>
      have fresh : client.user.isAnOper = false := by
        rcases counted client found with mine | fresh
        · simpa [mine] using other
        · exact fresh
      obtain ⟨mine, oper, invisible⟩ := mOper_counted client.user flags fresh
      refine good.user member status (mOper client.user flags) mine rfl rfl ?_
      intro counter
      rw [State.store, bump_count]
      cases counter <;> simp [Client.tally, Client.mine, Client.invisible, status, mine, invisible, oper, fresh, one]
  | exit cptr =>
    obtain ⟨client, found, status⟩ := possible
    obtain ⟨notServer, notMe⟩ : client.status ≠ .server ∧ client.status ≠ .me := of_decide_eq_true status
    obtain ⟨member, _⟩ := find_some found
    rw [perform, State.update, found]
    refine good.removed member (by simp [State.remove]) (by simp [State.remove]) nothing ?_
    intro counter
    rw [remove_count _ client counter notMe, bumpIf_count, bumpIf_count]
    cases kind : client.status with
    | me | server => contradiction
    | connecting => exact absurd kind (good.linked client member).1
    | handshake => exact absurd kind (good.linked client member).2
    | client =>
      cases counter with
      | locals => simp [nothing]; omega
      | _ => simp [nothing, one]
    | unknown =>
      have mine := good.unknown client member kind
      cases counter with
      | unknown => simp [nothing, mine, one]; omega
      | _ => simp [nothing, one]
  | exitServer cptr calls =>
    obtain ⟨client, found, server, returned⟩ := possible
    obtain ⟨order, returned⟩ := Option.isSome_iff_exists.mp returned
    rw [perform, State.update, found]
    simp only [bumpIf_clients, returned]
    exact good.split (find_some found).1 server returned

/-- After every run of counted actions a forced `LUSERS` finds nothing to correct. -/
theorem counters_exact (build : Build) (letUmodez : Bool)
    (run : (machine build letUmodez).Run (State.Counted build) booted final) :
    final.count = recount final.clients ∧ final.lusers = final := by
  have good : final.Good nothing :=
    run.invariant (State.Good nothing) (fun _ action possible counted good =>
      perform_good build letUmodez good action possible counted) booted_good
  have exact : final.count = recount final.clients := by
    funext counter
    rw [good.exact, nothing, Int.add_zero]
  refine ⟨exact, ?_⟩
  rw [State.lusers, ← exact]

end

/-- A server links, introduces a user, and goes. -/
def visit : List Action :=
  [.connect, .establish 1, .introduce 1 11 "+io".toList, .mode 2 "-i".toList, .exitServer 1 9]

theorem counters_exact_visit :
    let final := visit.foldl (perform ⟨false, false, false⟩ false) booted
    final.count = recount final.clients ∧ final.lusers = final := by
  refine counters_exact ⟨false, false, false⟩ false (.of_list visit (.refl _) ?_)
  refine ⟨trivial, trivial, ⟨_, rfl, rfl, .inl rfl⟩, trivial, ⟨⟨_, rfl, rfl⟩, by decide⟩, ⟨rfl, by decide⟩, ⟨_, rfl, rfl⟩,
    trivial, ⟨_, rfl, rfl, rfl⟩, trivial, trivial⟩

/-- A server links and introduces an operator of both kinds. -/
def visitor : List Action := [.connect, .establish 1, .introduce 1 11 "+oO".toList]

/-- An introduction with both letters of an operator is counted twice. -/
theorem counters_drift :
    ¬ ∀ (build : Build) (letUmodez : Bool) (final : State),
      (machine build letUmodez).Run Machine.Any booted final → final.count = recount final.clients := by
  intro claim
  have allows : (machine ⟨false, false, false⟩ false).Allows Machine.Any booted visitor :=
    ⟨trivial, trivial, ⟨_, rfl, rfl, .inl rfl⟩, trivial, ⟨⟨_, rfl, rfl⟩, by decide⟩, trivial, trivial⟩
  have same := congrFun (claim _ _ _ (.of_list visitor (.refl _) allows)) .oper
  revert same
  decide

end SolidIrcd.Lusers
