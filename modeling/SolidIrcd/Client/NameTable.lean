import Mathlib.Data.List.Nodup
import Mathlib.Logic.Function.Basic
import SolidIrcd.Hash
import SolidIrcd.Lib.Machine

/-! The hash table of the clients' names, with every place that gives a client a name: NICK,
SVSNICK, the introduction of a remote client, and SERVER. -/

namespace SolidIrcd.NameTable

open Scan (Text)
open Function (update)

abbrev ClientId := Nat

/-- The `status` of a client: STAT_UNKNOWN, STAT_HANDSHAKE, STAT_CLIENT, STAT_SERVER. -/
inductive Status where
  | unknown | handshake | client | server
  deriving DecidableEq, Repr

/-- `nicked` says that NICK has named the client; `nego` is FLAGS_SERV_NEGO. -/
structure Client where
  status : Status
  nicked : Bool
  nego : Bool
  deriving DecidableEq, Repr

/-- U_MAX. -/
def uMax : Nat := 65536

/-- The memory of the clients, which of them are in use, and `clientTable`. -/
structure State where
  names : ClientId → Text
  live : ClientId → Option Client
  clientTable : Nat → List ClientId

def State.start : State := ⟨fun _ => [], fun _ => none, fun _ => []⟩

/-- `add_to_client_hash_table`. -/
def State.addToClientHashTable (state : State) (name : Text) (cptr : ClientId) : State :=
  { state with
    clientTable := update state.clientTable (hashNickName name) (cptr :: state.clientTable (hashNickName name)) }

/-- `del_from_client_hash_table`. -/
def State.delFromClientHashTable (state : State) (name : Text) (cptr : ClientId) : State :=
  { state with
    clientTable := update state.clientTable (hashNickName name) ((state.clientTable (hashNickName name)).erase cptr) }

/-- `hash_find_client`. -/
def State.hashFindClient (state : State) (name : Text) : Option ClientId :=
  (state.clientTable (hashNickName name)).find? fun tmp => mycmp name (state.names tmp)

def State.isServer (state : State) (cptr : ClientId) : Bool :=
  (state.live cptr).any fun client => client.status = .server

/-- `hash_find_server`. -/
def State.hashFindServer (state : State) (server : Text) : Option ClientId :=
  (state.clientTable (hashNickName server)).find? fun tmp => state.isServer tmp && mycmp server (state.names tmp)

def State.setName (state : State) (cptr : ClientId) (name : Text) : State :=
  { state with names := update state.names cptr name }

def State.setClient (state : State) (cptr : ClientId) (client : Client) : State :=
  { state with live := update state.live cptr (some client) }

/-- `make_client` clears the memory. -/
def State.makeClient (state : State) (cptr : ClientId) (status : Status) : State :=
  (state.setName cptr []).setClient cptr ⟨status, false, false⟩

/-- `exit_one_client` and `exit_one_client_in_split`: the name goes, then the client. -/
def State.exitOneClient (state : State) (sptr : ClientId) : State :=
  let state := state.delFromClientHashTable (state.names sptr) sptr
  { state with live := update state.live sptr none }

/-- The end of `m_nick`, and what SVSNICK does. -/
def State.setNewNick (state : State) (sptr : ClientId) (nick : Text) : State :=
  let state := if state.names sptr ≠ [] then state.delFromClientHashTable (state.names sptr) sptr else state
  (state.setName sptr nick).addToClientHashTable nick sptr

/-- Another client has the name, or this one has it letter by letter. -/
def State.inUse (state : State) (sptr : ClientId) (nick : Text) : Bool :=
  match state.hashFindClient nick with
  | some acptr => decide (acptr ≠ sptr ∨ state.names acptr = nick)
  | none => false

/-- `m_nick` of a client that is there; `registered` is what `register_user` answers when USER
was received before. A name in use is refused (those whom a collision removes exit before). -/
def State.mNick (state : State) (sptr : ClientId) (client : Client) (nick : Text) (registered : Option Bool) : State :=
  let client := { client with nicked := true }
  if state.inUse sptr nick ∨ client.status = .server then state
  else if state.names sptr = [] then
    -- a client setting NICK the first time
    let state := state.setName sptr nick
    match registered with
    | none => (state.setNewNick sptr nick).setClient sptr client
    | some true => (state.setNewNick sptr nick).setClient sptr { client with status := .client }
    | some false => state.exitOneClient sptr
  else (state.setNewNick sptr nick).setClient sptr client

/-- `do_user` of a connection of this server, once it is named; `registered` is what
`register_user` answers. -/
def State.doUser (state : State) (sptr : ClientId) (client : Client) (registered : Bool) : State :=
  if client.status = .unknown ∧ state.names sptr ≠ [] then
    if registered then state.setClient sptr { client with status := .client } else state.exitOneClient sptr
  else state

/-- `do_server_estab`: a server of the name that is there already, this one too, ends the link. -/
def State.doServerEstab (state : State) (cptr : ClientId) (client : Client) : State :=
  let state := state.setClient cptr { client with status := .server, nego := false }
  match state.hashFindServer (state.names cptr) with
  | some _ => state.exitOneClient cptr
  | none => state.addToClientHashTable (state.names cptr) cptr

/-- What `check_server_init` and the password say of a link, and whether DKEY comes first. -/
inductive Access where
  | accepted (dkey : Bool) | denied
  deriving DecidableEq, Repr

/-- `m_server_estab`. -/
def State.mServerEstab (state : State) (cptr : ClientId) (client : Client) (dkey : Bool) : State :=
  match state.hashFindClient (state.names cptr) with
  | some _ => state.exitOneClient cptr
  | none => if dkey then state.setClient cptr { client with nego := true } else state.doServerEstab cptr client

/-- `bogus_server` or no `found_dot`: a character that cannot be printed, or no dot. -/
def bogusServer (host : Text) : Bool :=
  host.any (fun s => decide (s < ' ') || decide ('~' < s)) || !host.contains '.'

/-- `m_server` from a connection of this server. What a linked server tells of others is `Action.introduce`. -/
def State.mServer (state : State) (cptr : ClientId) (client : Client) (host : Text) (access : Access) : State :=
  let host := host.take hostLen
  if host = [] ∨ client.status = .client then state
  else if bogusServer host then state.exitOneClient cptr
  else if client.status = .unknown ∨ client.status = .handshake then
    -- the name is overwritten where it stands
    let state := state.setName cptr host
    match access with
    | .accepted dkey => state.mServerEstab cptr client dkey
    | .denied => state.exitOneClient cptr
  else state

/-- What a connection sends; `done` is the DKEY EXIT that ends the exchange of keys. -/
inductive Message where
  | nick (nick : Text) (registered : Option Bool)
  | user (registered : Bool)
  | server (host : Text) (access : Access)
  | done
  deriving DecidableEq, Repr

def State.receive (state : State) (cptr : ClientId) (client : Client) : Message → State
  | .nick nick registered => state.mNick cptr client nick registered
  | .user registered => state.doUser cptr client registered
  | .server host access => state.mServer cptr client host access
  | .done => if client.nego then state.doServerEstab cptr client else state

inductive Action where
  | connect (cptr : ClientId)
  | dial (cptr : ClientId) (host : Text)
  | introduce (cptr : ClientId) (name : Text) (status : Status)
  | receive (cptr : ClientId) (message : Message)
  | exit (sptr : ClientId)
  deriving DecidableEq, Repr

def State.perform (state : State) : Action → State
  | .connect cptr => state.makeClient cptr .unknown
  | .dial cptr host => (state.makeClient cptr .handshake).setName cptr host
  | .introduce cptr name status =>
    ((state.makeClient cptr status).setName cptr name).addToClientHashTable name cptr
  | .receive cptr message =>
    match state.live cptr with
    | some client => state.receive cptr client message
    | none => state
  | .exit sptr => state.exitOneClient sptr

/-- Clients are made where none is, users or servers are introduced, and names have characters
(`do_nick_name` refuses the others). -/
def State.Possible (state : State) : Action → Prop
  | .connect cptr => state.live cptr = none
  | .dial cptr _ => state.live cptr = none
  | .introduce cptr name status => state.live cptr = none ∧ name ≠ [] ∧ (status = .client ∨ status = .server)
  | .receive _ (.nick nick _) => nick ≠ []
  | .receive _ _ => True
  | .exit _ => True

def machine : Machine State Action := ⟨State.perform, State.Possible⟩

/-- SERVER gives a name to `cptr`, which has not registered. -/
def Client.renamedBy (client : Client) (host : Text) : Prop :=
  (client.status = .unknown ∨ client.status = .handshake) ∧ host ≠ [] ∧ bogusServer host = false

/-- A connection that NICK has named takes no name by SERVER, unless of the same bucket, and none that SERVER has
named is registered by USER. -/
def State.OneWay (state : State) : Action → Prop
  | .receive cptr (.server host _) => ∀ client, state.live cptr = some client → client.nicked = true →
    client.renamedBy (host.take hostLen) → hashNickName (host.take hostLen) = hashNickName (state.names cptr)
  | .receive cptr (.user registered) => ∀ client, state.live cptr = some client → client.status = .unknown →
    state.names cptr ≠ [] → registered = true → client.nicked = true
  | _ => True

def Client.named (client : Client) : Bool := client.nicked || client.status = .client || client.status = .server

/-- A client with a nickname, or an established server. -/
def State.listed (state : State) (cptr : ClientId) : Bool := (state.live cptr).any Client.named

/-- Whoever is listed stands once in the bucket of the current name, and nowhere else. -/
def State.Linked (state : State) : Prop :=
  ∀ cptr hashv, (state.clientTable hashv).count cptr =
    if state.listed cptr = true ∧ hashv = hashNickName (state.names cptr) then 1 else 0

/-- The lookup finds a client of the name when there is one. -/
structure State.Finds (state : State) : Prop where
  sound : ∀ name cptr, state.hashFindClient name = some cptr →
    state.listed cptr = true ∧ mycmp name (state.names cptr) = true
  complete : ∀ name cptr, state.listed cptr = true → mycmp name (state.names cptr) = true →
    (state.hashFindClient name).isSome = true

theorem hashNickName_lt (name : Text) : hashNickName name < uMax := by
  unfold hashNickName uMax
  have first := Int.emod_lt_of_pos (hashLoop name).1 (show (0 : Int) < 8192 by decide)
  have second := Int.emod_lt_of_pos (hashLoop name).2 (show (0 : Int) < 8 by decide)
  omega

variable {state : State}

theorem State.Linked.mem (linked : state.Linked) : cptr ∈ state.clientTable hashv ↔
    state.listed cptr = true ∧ hashv = hashNickName (state.names cptr) := by
  have count := linked cptr hashv
  rw [← List.count_pos_iff, count]
  split
  next holds => simp [holds]
  next fails => simp [fails]

theorem State.Linked.finds (linked : state.Linked) : state.Finds where
  sound := by
    intro name cptr found
    have member := List.mem_of_find?_eq_some found
    have same : mycmp name (state.names cptr) = true :=
      List.find?_some (p := fun tmp => mycmp name (state.names tmp)) found
    exact ⟨(linked.mem.mp member).1, same⟩
  complete := by
    intro name cptr listed same
    rw [State.hashFindClient, List.find?_isSome]
    exact ⟨cptr, linked.mem.mpr ⟨listed, hashNickName_congr same⟩, same⟩

/-- The client stands once in the bucket `place`, or in none. -/
def State.In (state : State) (cptr : ClientId) (place : Option Nat) : Prop :=
  ∀ hashv, (state.clientTable hashv).count cptr = if place = some hashv then 1 else 0

/-- Where the client belongs. -/
def State.home (state : State) (cptr : ClientId) : Option Nat :=
  if state.listed cptr = true then some (hashNickName (state.names cptr)) else none

/-- The client is where it belongs, and it has a name when it is there or is going to be. -/
structure State.Settled (state : State) (cptr : ClientId) : Prop where
  home : state.In cptr (state.home cptr)
  named : ∀ client, state.live cptr = some client → client.named = true ∨ client.nego = true →
    state.names cptr ≠ []

/-- What an operation on one client leaves of the others. -/
structure State.Spares (cptr : ClientId) (before after : State) : Prop where
  live : ∀ other, other ≠ cptr → after.live other = before.live other
  names : ∀ other, other ≠ cptr → after.names other = before.names other
  count : ∀ other, other ≠ cptr → ∀ hashv,
    (after.clientTable hashv).count other = (before.clientTable hashv).count other

variable {before middle after : State}

theorem State.Spares.refl : State.Spares cptr state state where
  live := fun _ _ => rfl
  names := fun _ _ => rfl
  count := fun _ _ _ => rfl

theorem State.Spares.trans (first : State.Spares cptr before middle) (second : State.Spares cptr middle after) :
    State.Spares cptr before after where
  live := fun other differ => (second.live other differ).trans (first.live other differ)
  names := fun other differ => (second.names other differ).trans (first.names other differ)
  count := fun other differ hashv => (second.count other differ hashv).trans (first.count other differ hashv)

theorem State.Spares.settled (spares : State.Spares cptr before after) (settled : ∀ cptr, before.Settled cptr)
    (own : after.Settled cptr) (other : ClientId) : after.Settled other := by
  by_cases same : other = cptr
  · rw [same]
    exact own
  · have home : after.home other = before.home other := by
      rw [State.home, State.home, State.listed, State.listed, spares.live other same, spares.names other same]
    refine ⟨?_, ?_⟩
    · intro hashv
      rw [spares.count other same, home]
      exact (settled other).home hashv
    · rw [spares.live other same, spares.names other same]
      exact (settled other).named

theorem State.linked_of_settled (settled : ∀ cptr, state.Settled cptr) : state.Linked := by
  intro cptr hashv
  rw [(settled cptr).home hashv, State.home]
  by_cases listed : state.listed cptr = true
  · simp only [listed, if_true, Option.some.injEq, true_and, eq_comm]
  · simp [listed]

section Operations

theorem spares_setName : State.Spares cptr state (state.setName cptr name) where
  live := fun _ _ => rfl
  names := fun _ differ => Function.update_of_ne differ ..
  count := fun _ _ _ => rfl

theorem spares_setClient : State.Spares cptr state (state.setClient cptr client) where
  live := fun _ differ => Function.update_of_ne differ ..
  names := fun _ _ => rfl
  count := fun _ _ _ => rfl

theorem spares_add : State.Spares cptr state (state.addToClientHashTable name cptr) where
  live := fun _ _ => rfl
  names := fun _ _ => rfl
  count := by
    intro other differ hashv
    by_cases same : hashv = hashNickName name
    · simp [State.addToClientHashTable, same, differ.symm]
    · simp [State.addToClientHashTable, same]

theorem spares_del : State.Spares cptr state (state.delFromClientHashTable name cptr) where
  live := fun _ _ => rfl
  names := fun _ _ => rfl
  count := by
    intro other differ hashv
    by_cases same : hashv = hashNickName name
    · simp [State.delFromClientHashTable, same, List.count_erase_of_ne differ]
    · simp [State.delFromClientHashTable, same]

theorem spares_makeClient : State.Spares cptr state (state.makeClient cptr status) :=
  spares_setName.trans spares_setClient

theorem spares_exit : State.Spares cptr state (state.exitOneClient cptr) where
  live := fun _ differ => Function.update_of_ne differ ..
  names := fun _ _ => rfl
  count := spares_del.count

theorem spares_setNewNick : State.Spares cptr state (state.setNewNick cptr nick) := by
  unfold State.setNewNick
  dsimp only
  split
  · exact (spares_del.trans spares_setName).trans spares_add
  · exact spares_setName.trans spares_add

theorem in_add (nowhere : state.In cptr none) :
    (state.addToClientHashTable name cptr).In cptr (some (hashNickName name)) := by
  intro hashv
  by_cases same : hashv = hashNickName name
  · simpa [State.addToClientHashTable, same] using nowhere (hashNickName name)
  · simpa [State.addToClientHashTable, same, Ne.symm same] using nowhere hashv

theorem in_del (place : state.In cptr none ∨ state.In cptr (some (hashNickName name))) :
    (state.delFromClientHashTable name cptr).In cptr none := by
  intro hashv
  by_cases same : hashv = hashNickName name
  · subst same
    rcases place with nowhere | there
    · simp [State.delFromClientHashTable, nowhere (hashNickName name)]
    · simp [State.delFromClientHashTable, there (hashNickName name)]
  · rcases place with nowhere | there
    · simpa [State.delFromClientHashTable, same] using nowhere hashv
    · simpa [State.delFromClientHashTable, same, Ne.symm same] using there hashv

theorem settled_exit (place : state.In cptr none ∨ state.In cptr (some (hashNickName (state.names cptr)))) :
    (state.exitOneClient cptr).Settled cptr := by
  have gone : (state.exitOneClient cptr).live cptr = none := by simp [State.exitOneClient]
  refine ⟨?_, ?_⟩
  · have home : (state.exitOneClient cptr).home cptr = none := by simp [State.home, State.listed, gone]
    rw [home]
    exact in_del place
  · intro client alive
    rw [gone] at alive
    cases alive

theorem in_setNewNick (place : state.In cptr none ∨
      state.names cptr ≠ [] ∧ state.In cptr (some (hashNickName (state.names cptr)))) :
    (state.setNewNick cptr nick).In cptr (some (hashNickName nick)) := by
  unfold State.setNewNick
  dsimp only
  split
  · have gone : ((state.delFromClientHashTable (state.names cptr) cptr).setName cptr nick).In cptr none :=
      in_del (place.imp_right And.right)
    exact in_add gone
  next unnamed =>
    rcases place with nowhere | ⟨named, -⟩
    · have renamed : (state.setName cptr nick).In cptr none := nowhere
      exact in_add renamed
    · exact absurd named unnamed

@[simp] theorem names_setNewNick : (state.setNewNick cptr nick).names cptr = nick := by
  unfold State.setNewNick
  dsimp only
  split <;> simp [State.setName, State.addToClientHashTable]

/-- After the end of `m_nick` the client stands in the bucket of the new name. -/
theorem settled_setNewNick (place : state.In cptr none ∨
      state.names cptr ≠ [] ∧ state.In cptr (some (hashNickName (state.names cptr))))
    (named : client.named = true) (characters : nick ≠ []) :
    ((state.setNewNick cptr nick).setClient cptr client).Settled cptr := by
  refine ⟨?_, ?_⟩
  · have home : ((state.setNewNick cptr nick).setClient cptr client).home cptr = some (hashNickName nick) := by
      have listed : ((state.setNewNick cptr nick).setClient cptr client).listed cptr = true := by
        simp [State.listed, State.setClient, named]
      have name : ((state.setNewNick cptr nick).setClient cptr client).names cptr = nick := names_setNewNick
      rw [State.home, if_pos listed, name]
    rw [home]
    exact in_setNewNick place
  · intro _ _ _
    rw [show ((state.setNewNick cptr nick).setClient cptr client).names cptr = nick from names_setNewNick]
    exact characters

theorem State.Settled.unlisted (settled : state.Settled cptr) (unlisted : state.listed cptr = false) :
    state.In cptr none := by
  have home := settled.home
  rwa [State.home, if_neg (by simp [unlisted])] at home

theorem State.Settled.place (settled : state.Settled cptr) (alive : state.live cptr = some client) :
    state.In cptr none ∨ state.names cptr ≠ [] ∧ state.In cptr (some (hashNickName (state.names cptr))) := by
  have home := settled.home
  by_cases listed : state.listed cptr = true
  · rw [State.home, if_pos listed] at home
    have named : client.named = true := by simpa [State.listed, alive] using listed
    exact .inr ⟨settled.named client alive (.inl named), home⟩
  · exact .inl (settled.unlisted (by simpa using listed))

theorem spares_mNick : State.Spares cptr state (state.mNick cptr client nick registered) := by
  unfold State.mNick
  dsimp only
  split
  · exact .refl
  · split
    · rcases registered with _ | _ | _
      · exact (spares_setName.trans spares_setNewNick).trans spares_setClient
      · exact spares_setName.trans spares_exit
      · exact (spares_setName.trans spares_setNewNick).trans spares_setClient
    · exact spares_setNewNick.trans spares_setClient

theorem settled_mNick (settled : state.Settled cptr) (alive : state.live cptr = some client)
    (characters : nick ≠ []) : (state.mNick cptr client nick registered).Settled cptr := by
  unfold State.mNick
  dsimp only
  split
  · exact settled
  · split
    next unnamed =>
      -- without a name the client stands nowhere yet
      have nowhere : (state.setName cptr nick).In cptr none := by
        rcases settled.place alive with nowhere | ⟨named, -⟩
        · exact nowhere
        · exact absurd unnamed named
      rcases registered with _ | _ | _
      · exact settled_setNewNick (.inl nowhere) rfl characters
      · exact settled_exit (.inl nowhere)
      · exact settled_setNewNick (.inl nowhere) rfl characters
    · exact settled_setNewNick (settled.place alive) rfl characters

theorem spares_doUser : State.Spares cptr state (state.doUser cptr client registered) := by
  unfold State.doUser
  split
  · split
    · exact spares_setClient
    · exact spares_exit
  · exact .refl

theorem settled_doUser (settled : state.Settled cptr) (alive : state.live cptr = some client)
    (nicked : client.status = .unknown → state.names cptr ≠ [] → registered = true → client.nicked = true) :
    (state.doUser cptr client registered).Settled cptr := by
  unfold State.doUser
  split
  next ready =>
    split
    next welcome =>
      have nick : client.nicked = true := nicked ready.1 ready.2 welcome
      refine ⟨?_, fun _ _ _ => ready.2⟩
      have home := settled.home
      have before : state.listed cptr = true := by simp [State.listed, alive, Client.named, nick]
      have listed : (state.setClient cptr { client with status := .client }).listed cptr = true := by
        simp [State.listed, State.setClient, Client.named]
      rw [State.home, if_pos before] at home
      rw [State.home, if_pos listed]
      exact home
    · exact settled_exit ((settled.place alive).imp_right And.right)
  · exact settled

theorem spares_doServerEstab : State.Spares cptr state (state.doServerEstab cptr client) := by
  unfold State.doServerEstab
  dsimp only
  split
  · exact spares_setClient.trans spares_exit
  · exact spares_setClient.trans spares_add

/-- A server that stands in the table already finds itself, and goes. -/
theorem settled_doServerEstab
    (place : state.In cptr none ∨ state.In cptr (some (hashNickName (state.names cptr))))
    (characters : state.names cptr ≠ []) : (state.doServerEstab cptr client).Settled cptr := by
  unfold State.doServerEstab
  dsimp only
  generalize established : state.setClient cptr { client with status := .server, nego := false } = server
  have table : server.clientTable = state.clientTable := by rw [← established]; rfl
  have names : server.names = state.names := by rw [← established]; rfl
  have isServer : server.isServer cptr = true := by
    rw [← established]
    simp [State.isServer, State.setClient]
  have place : server.In cptr none ∨ server.In cptr (some (hashNickName (server.names cptr))) := by
    unfold State.In at place ⊢
    rwa [table, names]
  split
  · exact settled_exit place
  next missing =>
    rcases place with nowhere | there
    · refine ⟨?_, ?_⟩
      · have listed : (server.addToClientHashTable (server.names cptr) cptr).listed cptr = true := by
          rw [← established]
          simp [State.listed, State.setClient, State.addToClientHashTable, Client.named]
        rw [State.home, if_pos listed]
        exact in_add nowhere
      · intro _ _ _
        show server.names cptr ≠ []
        rwa [names]
    · have member : cptr ∈ server.clientTable (hashNickName (server.names cptr)) := by
        rw [← List.count_pos_iff, there]
        simp
      have found := List.find?_eq_none.mp missing cptr member
      simp [isServer, mycmp_refl] at found

theorem spares_mServerEstab : State.Spares cptr state (state.mServerEstab cptr client dkey) := by
  unfold State.mServerEstab
  split
  · exact spares_exit
  · split
    · exact spares_setClient
    · exact spares_doServerEstab

theorem settled_mServerEstab (settled : state.Settled cptr) (alive : state.live cptr = some client)
    (characters : state.names cptr ≠ []) :
    (state.mServerEstab cptr client dkey).Settled cptr := by
  unfold State.mServerEstab
  split
  · exact settled_exit ((settled.place alive).imp_right And.right)
  next missing =>
    -- a client that stands in its bucket would have been found
    have nowhere : state.In cptr none := by
      rcases settled.place alive with nowhere | ⟨-, there⟩
      · exact nowhere
      · have member : cptr ∈ state.clientTable (hashNickName (state.names cptr)) := by
          rw [← List.count_pos_iff, there]
          simp
        have found := List.find?_eq_none.mp missing cptr member
        simp [mycmp_refl] at found
    split
    · have named : client.named = false := by
        by_contra named
        have listed : state.listed cptr = true := by simpa [State.listed, alive] using named
        have home := settled.home (hashNickName (state.names cptr))
        rw [State.home, if_pos listed, nowhere] at home
        simp at home
      refine ⟨?_, fun _ _ _ => characters⟩
      have unlisted : (state.setClient cptr { client with nego := true }).listed cptr = false := by
        simpa [State.listed, State.setClient, Client.named] using named
      rw [State.home, if_neg (by simp [unlisted])]
      exact nowhere
    · exact settled_doServerEstab (.inl nowhere) characters

theorem spares_mServer : State.Spares cptr state (state.mServer cptr client host access) := by
  unfold State.mServer
  dsimp only
  split
  · exact .refl
  · split
    · exact spares_exit
    · split
      · cases access with
        | accepted dkey => exact spares_setName.trans spares_mServerEstab
        | denied => exact spares_setName.trans spares_exit
      · exact .refl

/-- A client in no bucket, or whose new name goes into the same one, may be given another name where it stands. -/
theorem settled_setName (settled : state.Settled cptr) (alive : state.live cptr = some client)
    (bucket : client.named = true → hashNickName name = hashNickName (state.names cptr)) (characters : name ≠ []) :
    (state.setName cptr name).Settled cptr := by
  have current : (state.setName cptr name).names cptr = name := Function.update_self ..
  refine ⟨?_, fun _ _ _ => current.symm ▸ characters⟩
  have home : (state.setName cptr name).home cptr = state.home cptr := by
    have listed : (state.setName cptr name).listed cptr = client.named := by
      simp [State.listed, State.setName, alive]
    have listed' : state.listed cptr = client.named := by simp [State.listed, alive]
    rw [State.home, State.home, listed, listed', current]
    by_cases named : client.named = true
    · rw [if_pos named, if_pos named, bucket named]
    · rw [if_neg named, if_neg named]
  rw [home]
  exact settled.home

theorem named_iff_nicked {client : Client} (early : client.status = .unknown ∨ client.status = .handshake) :
    client.named = true ↔ client.nicked = true := by
  rcases early with unknown | handshake
  · simp [Client.named, unknown]
  · simp [Client.named, handshake]

theorem settled_mServer (settled : state.Settled cptr) (alive : state.live cptr = some client)
    (bucket : client.nicked = true → client.renamedBy (host.take hostLen) →
      hashNickName (host.take hostLen) = hashNickName (state.names cptr)) :
    (state.mServer cptr client host access).Settled cptr := by
  unfold State.mServer
  dsimp only
  split
  · exact settled
  next person =>
    obtain ⟨characters, -⟩ := not_or.mp person
    split
    · exact settled_exit ((settled.place alive).imp_right And.right)
    next good =>
      split
      next early =>
        have renamed := settled_setName settled alive
          (fun named => bucket ((named_iff_nicked early).mp named) ⟨early, characters, by simpa using good⟩) characters
        cases access with
        | accepted dkey =>
          refine settled_mServerEstab renamed alive ?_
          rwa [show (state.setName cptr (host.take hostLen)).names cptr = host.take hostLen from
            Function.update_self ..]
        | denied => exact settled_exit ((renamed.place alive).imp_right And.right)
      · exact settled

theorem mServer_renamed (renamed : client.renamedBy (host.take hostLen)) :
    state.mServer cptr client host access = match access with
      | .accepted dkey => (state.setName cptr (host.take hostLen)).mServerEstab cptr client dkey
      | .denied => (state.setName cptr (host.take hostLen)).exitOneClient cptr := by
  obtain ⟨early, characters, good⟩ := renamed
  have unregistered : client.status ≠ .client := by rcases early with same | same <;> simp [same]
  rw [State.mServer, if_neg (by simp [characters, unregistered]), if_neg (by simp [good]), if_pos early]

theorem names_mServer (renamed : client.renamedBy (host.take hostLen)) :
    (state.mServer cptr client host access).names cptr = host.take hostLen := by
  have kept (after : State) (same : after.names = (state.setName cptr (host.take hostLen)).names) :
      after.names cptr = host.take hostLen := by
    rw [same]
    exact Function.update_self ..
  rw [mServer_renamed renamed]
  apply kept
  cases access with
  | denied => rfl
  | accepted dkey =>
    dsimp only
    unfold State.mServerEstab State.doServerEstab
    split
    · rfl
    · split
      · rfl
      · dsimp only
        split <;> rfl

/-- What `m_server` does after it has renamed a client leaves it where it stood under the old name. -/
theorem count_mServer (renamed : client.renamedBy (host.take hostLen)) (other : hashv ≠ hashNickName (host.take hostLen)) :
    ((state.mServer cptr client host access).clientTable hashv).count cptr = (state.clientTable hashv).count cptr := by
  have exited : (((state.setName cptr (host.take hostLen)).exitOneClient cptr).clientTable hashv).count cptr =
      (state.clientTable hashv).count cptr := by
    simp [State.exitOneClient, State.delFromClientHashTable, State.setName, other]
  rw [mServer_renamed renamed]
  cases access with
  | denied => exact exited
  | accepted dkey =>
    dsimp only
    unfold State.mServerEstab
    split
    · exact exited
    · split
      · rfl
      · unfold State.doServerEstab
        dsimp only
        split
        · simp [State.exitOneClient, State.delFromClientHashTable, State.setClient, State.setName, other]
        · simp [State.addToClientHashTable, State.setClient, State.setName, other]

end Operations

theorem settled_start (cptr : ClientId) : State.start.Settled cptr where
  home := fun _ => rfl
  named := by simp [State.start]

theorem settled_receive (settled : ∀ cptr, state.Settled cptr) (alive : state.live cptr = some client)
    (possible : state.Possible (.receive cptr message)) (met : state.OneWay (.receive cptr message)) :
    ∀ other, (state.receive cptr client message).Settled other := by
  have own := settled cptr
  cases message with
  | nick nick registered =>
    exact spares_mNick.settled settled (settled_mNick own alive possible)
  | user registered =>
    exact spares_doUser.settled settled (settled_doUser own alive (met client alive))
  | server host access =>
    exact spares_mServer.settled settled (settled_mServer own alive (met client alive))
  | done =>
    unfold State.receive
    dsimp only
    split
    next nego =>
      have characters := own.named client alive (.inr nego)
      exact spares_doServerEstab.settled settled
        (settled_doServerEstab ((own.place alive).imp_right And.right) characters)
    · exact settled

/-- A new client that is not listed stands nowhere. -/
theorem settled_new (settled : state.Settled cptr) (free : state.live cptr = none)
    (table : after.clientTable = state.clientTable) (alive : after.live cptr = some client)
    (unnamed : client.named = false) (plain : client.nego = false) : after.Settled cptr := by
  have nowhere : state.In cptr none := settled.unlisted (by simp [State.listed, free])
  refine ⟨?_, ?_⟩
  · rw [State.home, if_neg (by simp [State.listed, alive, unnamed])]
    intro hashv
    rw [table]
    exact nowhere hashv
  · intro other same named
    rw [alive] at same
    obtain rfl := Option.some.inj same
    simp [unnamed, plain] at named

theorem settled_perform (settled : ∀ cptr, state.Settled cptr) (possible : state.Possible action)
    (met : state.OneWay action) : ∀ cptr, (state.perform action).Settled cptr := by
  cases action with
  | connect cptr =>
    exact spares_makeClient.settled settled
      (settled_new (settled cptr) possible rfl (Function.update_self ..) rfl rfl)
  | dial cptr host =>
    exact (spares_makeClient.trans spares_setName).settled settled
      (settled_new (settled cptr) possible rfl (Function.update_self ..) rfl rfl)
  | introduce cptr name status =>
    obtain ⟨free, characters, registered⟩ := possible
    refine ((spares_makeClient.trans spares_setName).trans spares_add).settled settled ⟨?_, ?_⟩
    · have nowhere : ((state.makeClient cptr status).setName cptr name).In cptr none :=
        (settled cptr).unlisted (by simp [State.listed, free])
      have listed : (((state.makeClient cptr status).setName cptr name).addToClientHashTable name cptr).listed cptr
          = true := by
        rcases registered with rfl | rfl
        · simp [State.listed, State.addToClientHashTable, State.setName, State.makeClient, State.setClient,
            Client.named]
        · simp [State.listed, State.addToClientHashTable, State.setName, State.makeClient, State.setClient,
            Client.named]
      have current : (((state.makeClient cptr status).setName cptr name).addToClientHashTable name cptr).names cptr
          = name := Function.update_self ..
      rw [State.home, if_pos listed, current]
      exact in_add nowhere
    · intro _ _ _
      rwa [show (((state.makeClient cptr status).setName cptr name).addToClientHashTable name cptr).names cptr
        = name from Function.update_self ..]
  | receive cptr message =>
    unfold State.perform
    dsimp only
    split
    next client alive => exact settled_receive settled alive possible met
    · exact settled
  | exit sptr =>
    refine spares_exit.settled settled (settled_exit ?_)
    cases alive : state.live sptr with
    | none => exact .inl ((settled sptr).unlisted (by simp [State.listed, alive]))
    | some client => exact ((settled sptr).place alive).imp_right And.right

/-- Any other message leaves the client in a bucket that is not its own, or in none. -/
theorem not_linked_of_not_oneWay (settled : ∀ cptr, state.Settled cptr) (against : ¬ state.OneWay action) :
    ¬ (state.perform action).Linked := by
  intro linked
  rcases action with cptr | ⟨cptr, host⟩ | ⟨cptr, name, status⟩ | ⟨cptr, message⟩ | sptr
  case receive =>
    cases message with
    | nick nick registered => exact against trivial
    | done => exact against trivial
    | user registered =>
      simp only [State.OneWay, not_forall] at against
      obtain ⟨client, alive, unknown, named, welcome, plain⟩ := against
      have after : state.perform (.receive cptr (.user registered)) =
          state.setClient cptr { client with status := .client } := by
        simp [State.perform, alive, State.receive, State.doUser, unknown, named, welcome]
      have unlisted : state.listed cptr = false := by
        simp [State.listed, alive, Client.named, plain, unknown]
      have listed : (state.setClient cptr { client with status := .client }).listed cptr = true := by
        simp [State.listed, State.setClient, Client.named]
      rw [after] at linked
      have count := linked cptr (hashNickName (state.names cptr))
      rw [if_pos ⟨listed, rfl⟩] at count
      have nowhere := (settled cptr).unlisted unlisted (hashNickName (state.names cptr))
      simp only [reduceCtorEq, if_false] at nowhere
      exact absurd (nowhere.symm.trans count) (by decide)
    | server host access =>
      simp only [State.OneWay, not_forall] at against
      obtain ⟨client, alive, nick, renamed, other⟩ := against
      have after : state.perform (.receive cptr (.server host access)) = state.mServer cptr client host access := by
        simp [State.perform, alive, State.receive]
      have listed : state.listed cptr = true := by simp [State.listed, alive, Client.named, nick]
      have there := (settled cptr).home (hashNickName (state.names cptr))
      rw [State.home, if_pos listed, if_pos rfl] at there
      have kept : ((state.mServer cptr client host access).clientTable
          (hashNickName (state.names cptr))).count cptr = _ := count_mServer renamed (Ne.symm other)
      rw [← kept] at there
      rw [after] at linked
      have member : cptr ∈ (state.mServer cptr client host access).clientTable (hashNickName (state.names cptr)) := by
        rw [← List.count_pos_iff, there]
        decide
      have bucket := (linked.mem.mp member).2
      rw [names_mServer renamed] at bucket
      exact other bucket.symm
  all_goals exact against trivial

/-- In every run in which no connection takes both ways of registering, the lookup is right; a step that takes the
other way ends that. -/
theorem names_found (run : machine.Run State.OneWay .start final) :
    final.Linked ∧ final.Finds ∧ (∀ name, hashNickName name < uMax) ∧
      (∀ first second, mycmp first second = true → hashNickName first = hashNickName second) ∧
      ∀ action, ¬ final.OneWay action → ¬ (machine.perform final action).Linked := by
  have settled : ∀ cptr, final.Settled cptr :=
    run.invariant (fun state => ∀ cptr, state.Settled cptr)
      (fun _ _ possible met settled => settled_perform settled possible met) settled_start
  have linked := State.linked_of_settled settled
  exact ⟨linked, linked.finds, hashNickName_lt, fun _ _ => hashNickName_congr,
    fun _ against => not_linked_of_not_oneWay settled against⟩

/-- A connection calls itself `foo`. -/
def nicked : State :=
  machine.perform (machine.perform .start (.connect 1)) (.receive 1 (.nick "foo".toList none))

theorem run_nicked (meets : State → Action → Prop) (met : ∀ state cptr, meets state (.connect cptr))
    (met' : ∀ state nick registered, meets state (.receive 1 (.nick nick registered))) :
    machine.Run meets .start nicked := by
  have connected : machine.Run meets .start (machine.perform .start (.connect 1)) := .tail (.refl _) rfl (met _ _)
  exact .tail connected (show "foo".toList ≠ [] by decide) (met' _ _ _)

theorem nicked_found : nicked.hashFindClient "FOO".toList = some 1 ∧ nicked.Linked ∧ nicked.Finds := by
  have run := run_nicked State.OneWay (fun _ _ => trivial) fun _ _ _ => trivial
  obtain ⟨linked, finds, -⟩ := names_found run
  exact ⟨by decide +kernel, linked, finds⟩

/-- The link that calls itself `a.b` and is refused leaves `foo` in the table. -/
theorem refusedServer_stays : ∃ state, machine.Run Machine.Any .start state ∧ state.live 1 = none ∧
    1 ∈ state.clientTable (hashNickName "foo".toList) ∧ ¬ state.Linked := by
  have run := run_nicked Machine.Any (fun _ _ => trivial) fun _ _ _ => trivial
  have refused : machine.Run Machine.Any .start
      (machine.perform nicked (.receive 1 (.server "a.b".toList .denied))) :=
    .tail run trivial trivial
  refine ⟨_, refused, by decide +kernel, by decide +kernel, ?_⟩
  intro linked
  have member : 1 ∈ State.clientTable (machine.perform nicked (.receive 1 (.server "a.b".toList .denied)))
      (hashNickName "foo".toList) := by decide +kernel
  exact absurd (linked.mem.mp member).1 (by decide +kernel)

end SolidIrcd.NameTable
