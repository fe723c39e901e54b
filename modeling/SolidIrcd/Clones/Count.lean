import SolidIrcd.Clones.Table
import SolidIrcd.Lib.Census
import SolidIrcd.Lib.Chain
import SolidIrcd.Lib.Machine

/-! Users that register and leave, and what the table of clones then says about the
addresses they come from: `register_user` of `s_user.c`, `m_nick`, and the exits of
`s_misc.c`. -/

namespace SolidIrcd.Clones

open Function (update)
open Scan (Text)
open UserBan (Address inetntoa)

abbrev ClientId := Nat

structure Client where
  cptr : ClientId
  ip : Address
  /-- `MyConnect`. -/
  myConnect : Bool
  /-- `uplink == &me`. -/
  uplinkMe : Bool
  /-- `IsPerson`. -/
  person : Bool
  deriving DecidableEq

structure Server where
  clients : List Client
  table : Table
  /-- The chain of the clients of each entry. -/
  chain : Chain Text ClientId

def Server.start : Server := ⟨[], fun _ => none, .empty⟩

/-- `clones_add`. -/
def Server.clonesAdd (server : Server) (cptr : Client) : Server :=
  let hostip := inetntoa cptr.ip
  let chain :=
    if server.table hostip = none then { server.chain with head := update server.chain.head hostip none }
    else server.chain
  { server with
    table := (server.table.addOne cptr.myConnect hostip).addOne cptr.myConnect (ip24 hostip)
    chain := chain.push hostip cptr.cptr }

/-- `clones_remove`. -/
def Server.clonesRemove (server : Server) (cptr : Client) : Server :=
  let hostip := inetntoa cptr.ip
  { server with
    table := (server.table.removeOne cptr.uplinkMe hostip).removeOne cptr.uplinkMe (ip24 hostip)
    chain := server.chain.unlink hostip cptr.cptr }

def Server.find (server : Server) (cptr : ClientId) : Option Client := server.clients.find? fun client => client.cptr = cptr

/-- `exit_one_client`, and `exit_one_client_in_split`, as far as clones go. -/
def Server.exitOneClient (server : Server) (client : Client) : Server :=
  let server := if client.person && client.ip ≠ 0 then server.clonesRemove client else server
  { server with clients := server.clients.filter fun other => other.cptr ≠ client.cptr }

/-- What `register_user` finds for a client of this server. -/
structure Checks where
  /-- Refused before the clones are looked at. -/
  early : Bool
  /-- `CONF_FLAGS_SKIPCLONES`. -/
  skipclones : Bool
  limits : Limits
  /-- Refused after that, for a ban or by a module. -/
  late : Bool
  /-- The address of an operator is hidden. -/
  masked : Bool
  /-- A module drops the user when everything is done. -/
  dropped : Bool

/-- `register_user` for a client of this server. -/
def Server.registerUser (server : Server) (checks : Checks) (sptr : Client) : Server :=
  if checks.early || (!checks.skipclones && decide (server.table.clonesCheck checks.limits (inetntoa sptr.ip) ≠ 0)) ||
      checks.late then
    server.exitOneClient sptr
  else
    let user := { sptr with person := true, ip := if checks.masked then 0 else sptr.ip }
    let server := { server with clients := Census.replace Client.cptr user server.clients }
    let server := if user.ip ≠ 0 then server.clonesAdd user else server
    if checks.dropped then server.exitOneClient user else server

/-- What `find_server` returns: nothing, this server, or one behind a link. -/
inductive Found where
  | nothing
  | me
  | behind (link : ClientId)
  deriving DecidableEq, Repr

/-- `m_nick` and `register_user` for a user that the link `cptr` introduces on the server `uplink`. -/
def Server.mNick (server : Server) (cptr : ClientId) (uplink : Found) (sptr : ClientId) (ip : Address) : Server :=
  if uplink = .nothing then server
  else
    let user : Client := ⟨sptr, ip, false, decide (uplink = .me), true⟩
    let server := { server with clients := user :: server.clients }
    let server := if ip ≠ 0 then server.clonesAdd user else server
    -- "USER server wrong direction"
    if uplink ≠ .behind cptr then server.exitOneClient user else server

inductive Action where
  /-- `add_connection` and `connect_server`. -/
  | connect (cptr : ClientId) (ip : Address)
  | register (cptr : ClientId) (checks : Checks)
  | nick (cptr : ClientId) (uplink : Found) (sptr : ClientId) (ip : Address)
  | exit (cptr : ClientId)
  | limit (ent : Text) (type : LimitType) (limit : Int)

def Server.perform (server : Server) : Action → Server
  | .connect cptr ip => { server with clients := ⟨cptr, ip, true, true, false⟩ :: server.clients }
  | .register cptr checks =>
    match server.find cptr with
    | none => server
    | some client => if client.person then server else server.registerUser checks client
  | .nick cptr uplink sptr ip => server.mNick cptr uplink sptr ip
  | .exit cptr =>
    match server.find cptr with
    | none => server
    | some client => server.exitOneClient client
  | .limit ent type limit => { server with table := server.table.clonesSet ent type limit }

/-- `make_client` returns what nobody holds. -/
def Server.Possible (server : Server) : Action → Prop
  | .connect cptr _ | .nick _ _ cptr _ => ∀ client ∈ server.clients, client.cptr ≠ cptr
  | _ => True

def machine : Machine Server Action := ⟨Server.perform, Server.Possible⟩

/-- No link introduces a user as being on this server. -/
def Elsewhere (_ : Server) : Action → Prop
  | .nick _ uplink _ _ => uplink ≠ .me
  | _ => True

/-- The users from an address, and those of this server among them. -/
def Server.users (server : Server) (from' : Address → Bool) : List Client :=
  server.clients.filter fun client => client.person && client.ip ≠ 0 && from' client.ip

/-- The users from some addresses, and those of this server among them, are what an entry says. -/
def Server.Counts (server : Server) (key : Text) (from' : Address → Bool) : Prop :=
  Tallied (server.table key) (server.users from').length ((server.users from').countP Client.myConnect)

/-- All counts are right, and the chain of an address has its users once each. -/
structure Server.Exact (server : Server) : Prop where
  address : ∀ ip, ip ≠ 0 → server.Counts (inetntoa ip) (· = ip)
  network : ∀ ip : Address, server.Counts (ip24 (inetntoa ip)) fun other => other.toNat / 256 = ip.toNat / 256
  chained : ∀ ip, ip ≠ 0 → ∃ chain : List ClientId,
    (∀ fuel, chain.length ≤ fuel → server.chain.walk fuel (server.chain.head (inetntoa ip)) = chain) ∧
      chain.Nodup ∧ chain.Perm ((server.users (· = ip)).map Client.cptr)

/-- The client counts under this key. -/
def Client.under (client : Client) (key : Text) : Bool :=
  client.person && client.ip ≠ 0 && (inetntoa client.ip == key || ip24 (inetntoa client.ip) == key)

def one (condition : Bool) : Int := if condition then 1 else 0

def globalCount (clients : List Client) (key : Text) : Int := Census.total (fun client => one (client.under key)) clients

def localCount (clients : List Client) (key : Text) : Int :=
  Census.total (fun client => one (client.under key && client.myConnect)) clients

/-- The lists of the chain have the clients that count from each address. -/
structure Chained (clients : List Client) (chain : Chain Text ClientId) (lists : Text → List ClientId) : Prop where
  shows : chain.Shows lists
  listed : ∀ key cptr, cptr ∈ lists key ↔
    ∃ client ∈ clients, client.cptr = cptr ∧ client.person = true ∧ client.ip ≠ 0 ∧ inetntoa client.ip = key

structure Server.Sound (server : Server) : Prop where
  distinct : (server.clients.map Client.cptr).Nodup
  tallied : ∀ key, Tallied (server.table key) (globalCount server.clients key) (localCount server.clients key)
  chained : ∃ lists, Chained server.clients server.chain lists
  /-- Both ways to tell who is connected here agree. -/
  aligned : ∀ client ∈ server.clients, client.myConnect = client.uplinkMe

theorem total_one (p : Client → Bool) (clients : List Client) :
    Census.total (fun client => one (p client)) clients = clients.countP p := by
  induction clients with
  | nil => rfl
  | cons client clients ih =>
    rw [Census.total, ih, List.countP_cons]
    cases p client <;> simp [one, Int.add_comm]

theorem globalCount_nonneg (clients : List Client) (key : Text) : 0 ≤ globalCount clients key := by
  rw [globalCount, total_one]
  exact Int.natCast_nonneg _

/-- Without users there are no local ones. -/
theorem localCount_eq_zero (none : globalCount clients key = 0) : localCount clients key = 0 := by
  unfold globalCount at none
  unfold localCount
  rw [total_one] at none ⊢
  have fewer : clients.countP (fun client => client.under key && client.myConnect) ≤ clients.countP (·.under key) :=
    List.countP_mono_left fun client _ both => (Bool.and_eq_true _ _ ▸ both).1
  omega

section Entries

variable {table : Table} {client : Client} {global locals : Int}

/-- A client counts under the text of its address and under that of its /24. -/
theorem under_iff (counted : client.person = true ∧ client.ip ≠ 0) :
    client.under key = true ↔ key = inetntoa client.ip ∨ key = ip24 (inetntoa client.ip) := by
  simp only [Client.under, counted.1, counted.2, ne_eq, not_false_eq_true, decide_true, Bool.and_self, Bool.true_and,
    Bool.or_eq_true, beq_iff_eq]
  exact or_congr eq_comm eq_comm

/-- The table after `clones_add`. -/
theorem Tallied.clonesAdd (tallied : Tallied (table key) global locals) (positive : 0 ≤ global)
    (counted : client.person = true ∧ client.ip ≠ 0) :
    Tallied ((table.addOne client.myConnect (inetntoa client.ip)).addOne client.myConnect (ip24 (inetntoa client.ip)) key)
      (one (client.under key) + global) (one (client.under key && client.myConnect) + locals) := by
  have plus : ∀ under, under = true → one under + global = global + 1 ∧
      one (under && client.myConnect) + locals = if client.myConnect then locals + 1 else locals := by
    rintro under rfl
    cases client.myConnect <;> simp [one, Int.add_comm]
  have apart := ip24_ne_inetntoa client.ip client.ip
  by_cases host : key = inetntoa client.ip
  · obtain ⟨more, mine⟩ := plus (client.under key) ((under_iff counted).mpr (.inl host))
    rw [more, mine]
    subst host
    rw [addOne_of_ne _ _ apart.symm]
    exact tallied.addOne positive _
  · by_cases net : key = ip24 (inetntoa client.ip)
    · obtain ⟨more, mine⟩ := plus (client.under key) ((under_iff counted).mpr (.inr net))
      rw [more, mine]
      rw [← addOne_of_ne table client.myConnect host] at tallied
      subst net
      exact tallied.addOne positive _
    · have other : client.under key = false := by
        rw [← Bool.not_eq_true, under_iff counted, not_or]
        exact ⟨host, net⟩
      rw [addOne_of_ne _ _ net, addOne_of_ne _ _ host, other]
      simpa [one] using tallied

/-- The table after `clones_remove`. -/
theorem Tallied.clonesRemove (tallied : Tallied (table key) global locals)
    (counted : client.person = true ∧ client.ip ≠ 0) (aligned : client.myConnect = client.uplinkMe)
    (some' : client.under key = true → global ≠ 0)
    (fewer : global - one (client.under key) = 0 → locals - one (client.under key && client.myConnect) = 0) :
    Tallied ((table.removeOne client.uplinkMe (inetntoa client.ip)).removeOne client.uplinkMe
      (ip24 (inetntoa client.ip)) key)
      (global - one (client.under key)) (locals - one (client.under key && client.myConnect)) := by
  have minus : ∀ under, under = true → global - one under = global - 1 ∧
      locals - one (under && client.myConnect) = if client.uplinkMe then locals - 1 else locals := by
    rintro under rfl
    rw [← aligned]
    cases client.myConnect <;> simp [one]
  have apart := ip24_ne_inetntoa client.ip client.ip
  by_cases host : key = inetntoa client.ip
  · have under := (under_iff counted).mpr (.inl host)
    obtain ⟨less, mine⟩ := minus _ under
    rw [less, mine] at fewer ⊢
    subst host
    rw [removeOne_of_ne _ _ apart.symm]
    exact tallied.removeOne _ (some' under) fewer
  · by_cases net : key = ip24 (inetntoa client.ip)
    · have under := (under_iff counted).mpr (.inr net)
      obtain ⟨less, mine⟩ := minus _ under
      rw [less, mine] at fewer ⊢
      rw [← removeOne_of_ne table client.uplinkMe host] at tallied
      have positive := some' under
      subst net
      exact tallied.removeOne _ positive fewer
    · have other : client.under key = false := by
        rw [← Bool.not_eq_true, under_iff counted, not_or]
        exact ⟨host, net⟩
      rw [removeOne_of_ne _ _ net, removeOne_of_ne _ _ host, other]
      simpa [one] using tallied

end Entries

theorem under_person {client : Client} (under : client.under key = true) : client.person = true ∧ client.ip ≠ 0 := by
  simp only [Client.under, Bool.and_eq_true, decide_eq_true_eq] at under
  exact under.1

theorem globalCount_pos {client : Client} (member : client ∈ clients) (under : client.under key = true) :
    globalCount clients key ≠ 0 := by
  have some' : 0 < clients.countP (·.under key) := List.countP_pos_iff.mpr ⟨client, member, under⟩
  rw [globalCount, total_one]
  omega

/-- The clients with one more user, who may have been there before it was one. -/
structure Entered (clients clients' : List Client) (user : Client) : Prop where
  distinct : (clients'.map Client.cptr).Nodup
  total : ∀ weight : Client → Int, (∀ client, client.person = false → weight client = 0) →
    Census.total weight clients' = weight user + Census.total weight clients
  members : ∀ client, client.person = true → (client ∈ clients' ↔ client = user ∨ client ∈ clients)
  new : ∀ client ∈ clients, client.person = true → client.cptr ≠ user.cptr

theorem Entered.cons (distinct : (clients.map Client.cptr).Nodup) (new : ∀ client ∈ clients, client.cptr ≠ user.cptr) :
    Entered clients (user :: clients) user where
  distinct := by
    refine List.nodup_cons.mpr ⟨?_, distinct⟩
    intro member
    obtain ⟨client, listed, same⟩ := List.mem_map.mp member
    exact new client listed same
  total _ _ := rfl
  members client _ := List.mem_cons
  new client member _ := new client member

theorem Entered.replace {old user : Client} (distinct : (clients.map Client.cptr).Nodup) (member : old ∈ clients)
    (unknown : old.person = false) (same : old.cptr = user.cptr) :
    Entered clients (Census.replace Client.cptr user clients) user where
  distinct := by
    rw [Census.keys_replace]
    exact distinct
  total weight none := by
    rw [Census.total_replace distinct member same, none old unknown]
    omega
  members client person := by
    constructor
    · intro replaced
      exact (Census.mem_replace replaced).imp_right And.left
    · rintro (rfl | listed)
      · exact List.mem_map.mpr ⟨old, member, if_pos same⟩
      · refine List.mem_map.mpr ⟨client, listed, if_neg ?_⟩
        intro equal
        have twin := List.inj_on_of_nodup_map distinct listed member (equal.trans same.symm)
        rw [twin, unknown] at person
        cases person
  new client listed person equal := by
    have twin := List.inj_on_of_nodup_map distinct listed member (equal.trans same.symm)
    rw [twin, unknown] at person
    cases person

variable {server : Server} {clients' : List Client} {user : Client}

theorem one_under_zero (unknown : user.person = false ∨ user.ip = 0) (key : Text) :
    one (user.under key) = 0 ∧ one (user.under key && user.myConnect) = 0 := by
  have none : user.under key = false := by
    rw [← Bool.not_eq_true]
    intro under
    obtain ⟨person, known⟩ := under_person under
    rcases unknown with absent | zero
    · rw [absent] at person
      cases person
    · exact known zero
  rw [none]
  exact ⟨rfl, rfl⟩

theorem Entered.counts (entered : Entered clients clients' user) (key : Text) :
    globalCount clients' key = one (user.under key) + globalCount clients key ∧
      localCount clients' key = one (user.under key && user.myConnect) + localCount clients key :=
  ⟨entered.total _ fun _ unknown => (one_under_zero (.inl unknown) key).1,
    entered.total _ fun _ unknown => (one_under_zero (.inl unknown) key).2⟩

namespace Server.Sound

theorem start : Server.start.Sound where
  distinct := List.nodup_nil
  tallied _ := ⟨rfl, rfl⟩
  chained := ⟨fun _ => [], Chain.Shows.empty, by simp [Server.start]⟩
  aligned := by simp [Server.start]

/-- A user who counts. -/
theorem clonesAdd (sound : server.Sound) (entered : Entered server.clients clients' user)
    (counted : user.person = true ∧ user.ip ≠ 0) (aligned : ∀ client ∈ clients', client.myConnect = client.uplinkMe) :
    (({ server with clients := clients' } : Server).clonesAdd user).Sound := by
  obtain ⟨lists, shows, listed⟩ := sound.chained
  refine ⟨entered.distinct, ?_, ?_, aligned⟩
  · intro key
    obtain ⟨more, mine⟩ := entered.counts key
    simp only [Server.clonesAdd, more, mine]
    exact (sound.tallied key).clonesAdd (globalCount_nonneg _ key) counted
  · have new : ∀ key, user.cptr ∉ lists key := by
      intro key member
      obtain ⟨client, there, same, person, -⟩ := (listed key user.cptr).mp member
      exact entered.new client there person same
    have cleared : (if server.table (inetntoa user.ip) = none then
        { server.chain with head := update server.chain.head (inetntoa user.ip) none } else server.chain) =
          server.chain := by
      split
      next absent =>
        have tallied := sound.tallied (inetntoa user.ip)
        rw [absent] at tallied
        have empty : lists (inetntoa user.ip) = [] := by
          apply List.eq_nil_iff_forall_not_mem.mpr
          intro cptr member
          obtain ⟨client, there, -, person, known, same⟩ := (listed _ cptr).mp member
          exact globalCount_pos there ((under_iff ⟨person, known⟩).mpr (.inl same.symm)) tallied.1
        have top := shows.head (inetntoa user.ip)
        rw [empty, List.head?_nil] at top
        rw [← top, Function.update_eq_self]
      next => rfl
    refine ⟨update lists (inetntoa user.ip) (user.cptr :: lists (inetntoa user.ip)), ?_, ?_⟩
    · simp only [Server.clonesAdd, cleared]
      exact shows.push new _
    · intro key cptr
      simp only [Server.clonesAdd]
      constructor
      · intro member
        by_cases same : key = inetntoa user.ip
        · subst same
          rw [Function.update_self, List.mem_cons] at member
          rcases member with rfl | old
          · exact ⟨user, (entered.members user counted.1).mpr (.inl rfl), rfl, counted.1, counted.2, rfl⟩
          · obtain ⟨client, there, rest⟩ := (listed _ cptr).mp old
            exact ⟨client, (entered.members client rest.2.1).mpr (.inr there), rest⟩
        · rw [Function.update_of_ne same] at member
          obtain ⟨client, there, rest⟩ := (listed _ cptr).mp member
          exact ⟨client, (entered.members client rest.2.1).mpr (.inr there), rest⟩
      · rintro ⟨client, there, name, person, known, text⟩
        rcases (entered.members client person).mp there with rfl | old
        · rw [← text, Function.update_self, ← name]
          exact List.mem_cons_self ..
        · have member := (listed key cptr).mpr ⟨client, old, name, person, known, text⟩
          by_cases same : key = inetntoa user.ip
          · subst same
            rw [Function.update_self]
            exact List.mem_cons_of_mem _ member
          · rw [Function.update_of_ne same]
            exact member

/-- A client that does not count. -/
theorem enter (sound : server.Sound) (entered : Entered server.clients clients' user)
    (uncounted : user.person = false ∨ user.ip = 0) (aligned : ∀ client ∈ clients', client.myConnect = client.uplinkMe) :
    Server.Sound { server with clients := clients' } := by
  obtain ⟨lists, shows, listed⟩ := sound.chained
  refine ⟨entered.distinct, ?_, ⟨lists, shows, ?_⟩, aligned⟩
  · intro key
    obtain ⟨more, mine⟩ := entered.counts key
    obtain ⟨none, none'⟩ := one_under_zero uncounted key
    simp only [more, mine, none, none', Int.zero_add]
    exact sound.tallied key
  · intro key cptr
    rw [listed]
    constructor
    · rintro ⟨client, there, rest⟩
      exact ⟨client, (entered.members client rest.2.1).mpr (.inr there), rest⟩
    · rintro ⟨client, there, name, person, known, text⟩
      rcases (entered.members client person).mp there with rfl | old
      · rcases uncounted with absent | zero
        · rw [absent] at person
          cases person
        · exact absurd zero known
      · exact ⟨client, old, name, person, known, text⟩

/-- A client leaves, whatever it was. -/
theorem exitOneClient (sound : server.Sound) {client : Client} (member : client ∈ server.clients) :
    (server.exitOneClient client).Sound := by
  obtain ⟨lists, shows, listed⟩ := sound.chained
  have clients : (server.exitOneClient client).clients =
      server.clients.filter fun other => other.cptr ≠ client.cptr := by
    unfold Server.exitOneClient
    split <;> rfl
  have distinct : ((server.clients.filter fun other => other.cptr ≠ client.cptr).map Client.cptr).Nodup :=
    sound.distinct.sublist (List.filter_sublist.map _)
  have less : ∀ key, globalCount (server.clients.filter fun other => other.cptr ≠ client.cptr) key =
        globalCount server.clients key - one (client.under key) ∧
      localCount (server.clients.filter fun other => other.cptr ≠ client.cptr) key =
        localCount server.clients key - one (client.under key && client.myConnect) := fun key =>
    ⟨Census.total_remove sound.distinct member, Census.total_remove sound.distinct member⟩
  have aligned : ∀ other ∈ (server.exitOneClient client).clients, other.myConnect = other.uplinkMe := by
    intro other there
    rw [clients] at there
    exact sound.aligned other (List.mem_filter.mp there).1
  have stay : ∀ key cptr, (∃ other ∈ server.clients.filter fun other => other.cptr ≠ client.cptr,
      other.cptr = cptr ∧ other.person = true ∧ other.ip ≠ 0 ∧ inetntoa other.ip = key) ↔
        cptr ∈ lists key ∧ cptr ≠ client.cptr := by
    intro key cptr
    rw [listed]
    constructor
    · rintro ⟨other, there, name, rest⟩
      obtain ⟨before, differs⟩ := List.mem_filter.mp there
      exact ⟨⟨other, before, name, rest⟩, name ▸ of_decide_eq_true differs⟩
    · rintro ⟨⟨other, before, name, rest⟩, differs⟩
      exact ⟨other, List.mem_filter.mpr ⟨before, decide_eq_true (name ▸ differs)⟩, name, rest⟩
  by_cases counted : client.person = true ∧ client.ip ≠ 0
  · have taken : (client.person && decide (client.ip ≠ 0)) = true := by
      rw [counted.1, Bool.true_and]
      exact decide_eq_true counted.2
    refine ⟨clients ▸ distinct, ?_, ?_, aligned⟩
    · intro key
      rw [clients, (less key).1, (less key).2]
      simp only [Server.exitOneClient, if_pos taken, Server.clonesRemove]
      refine (sound.tallied key).clonesRemove counted (sound.aligned client member) (globalCount_pos member) ?_
      rw [← (less key).1, ← (less key).2]
      exact localCount_eq_zero
    · have inside : client.cptr ∈ lists (inetntoa client.ip) :=
        (listed _ _).mpr ⟨client, member, rfl, counted.1, counted.2, rfl⟩
      refine ⟨update lists (inetntoa client.ip) ((lists (inetntoa client.ip)).erase client.cptr), ?_, ?_⟩
      · simp only [Server.exitOneClient, if_pos taken, Server.clonesRemove]
        exact shows.erase inside
      · intro key cptr
        rw [clients, stay]
        by_cases same : key = inetntoa client.ip
        · subst same
          rw [Function.update_self, (shows.once _).mem_erase_iff, and_comm]
        · rw [Function.update_of_ne same]
          refine ⟨fun there => ⟨there, ?_⟩, And.left⟩
          rintro rfl
          exact same (shows.apart _ _ _ there inside)
  · have untaken : (client.person && decide (client.ip ≠ 0)) ≠ true := by simpa using counted
    have unknown : client.person = false ∨ client.ip = 0 := by
      rw [not_and_or, Bool.not_eq_true, not_not] at counted
      exact counted
    refine ⟨clients ▸ distinct, ?_, ⟨lists, ?_, ?_⟩, aligned⟩
    · intro key
      obtain ⟨none, none'⟩ := one_under_zero unknown key
      rw [clients, (less key).1, (less key).2, none, none', Int.sub_zero, Int.sub_zero]
      simp only [Server.exitOneClient, if_neg untaken]
      exact sound.tallied key
    · simp only [Server.exitOneClient, if_neg untaken]
      exact shows
    · intro key cptr
      rw [clients, stay]
      refine ⟨fun there => ⟨there, ?_⟩, And.left⟩
      rintro rfl
      obtain ⟨other, before, name, person, known, -⟩ := (listed key client.cptr).mp there
      have twin := List.inj_on_of_nodup_map sound.distinct before member name
      exact counted (twin ▸ ⟨person, known⟩)

/-- The end of a registration: the user counts, and may be dropped at once. -/
theorem welcome (sound : server.Sound) (entered : Entered server.clients clients' user) (person : user.person = true)
    (aligned : ∀ client ∈ clients', client.myConnect = client.uplinkMe) (dropped : Prop) [Decidable dropped] :
    (if dropped then Server.exitOneClient (if user.ip ≠ 0 then
          ({ server with clients := clients' } : Server).clonesAdd user else { server with clients := clients' }) user
      else if user.ip ≠ 0 then ({ server with clients := clients' } : Server).clonesAdd user
        else { server with clients := clients' }).Sound := by
  have counted : (if user.ip ≠ 0 then ({ server with clients := clients' } : Server).clonesAdd user
      else { server with clients := clients' }).Sound := by
    split
    next known => exact sound.clonesAdd entered ⟨person, known⟩ aligned
    next zero => exact sound.enter entered (.inr (not_not.mp zero)) aligned
  have there : user ∈ (if user.ip ≠ 0 then ({ server with clients := clients' } : Server).clonesAdd user
      else { server with clients := clients' }).clients := by
    have member := (entered.members user person).mpr (.inl rfl)
    split <;> exact member
  split
  next => exact counted.exitOneClient there
  next => exact counted

theorem registerUser (sound : server.Sound) {sptr : Client} (member : sptr ∈ server.clients) (unknown : sptr.person = false)
    (checks : Checks) : (server.registerUser checks sptr).Sound := by
  unfold Server.registerUser
  split
  next => exact sound.exitOneClient member
  next =>
    let user : Client := { sptr with person := true, ip := if checks.masked then 0 else sptr.ip }
    have entered : Entered server.clients (Census.replace Client.cptr user server.clients) user :=
      Entered.replace sound.distinct member unknown rfl
    refine sound.welcome entered rfl ?_ _
    intro client there
    rcases Census.mem_replace there with rfl | ⟨old, -⟩
    · exact sound.aligned sptr member
    · exact sound.aligned client old

theorem mNick (sound : server.Sound) (cptr : ClientId) (elsewhere : uplink ≠ .me)
    (new : ∀ client ∈ server.clients, client.cptr ≠ sptr) (ip : Address) : (server.mNick cptr uplink sptr ip).Sound := by
  unfold Server.mNick
  split
  next => exact sound
  next =>
    have entered : Entered server.clients (⟨sptr, ip, false, decide (uplink = .me), true⟩ :: server.clients)
        ⟨sptr, ip, false, decide (uplink = .me), true⟩ := Entered.cons sound.distinct new
    refine sound.welcome entered rfl ?_ _
    intro client there
    rcases List.mem_cons.mp there with rfl | old
    · exact (decide_eq_false elsewhere).symm
    · exact sound.aligned client old

/-- Every step keeps it, unless a user comes from a link who is said to be on this server. -/
theorem perform (sound : server.Sound) (possible : server.Possible action) (elsewhere : Elsewhere server action) :
    (server.perform action).Sound := by
  cases action with
  | connect cptr ip =>
    have entered : Entered server.clients (⟨cptr, ip, true, true, false⟩ :: server.clients) ⟨cptr, ip, true, true, false⟩ :=
      Entered.cons sound.distinct possible
    refine sound.enter entered (.inl rfl) ?_
    intro client there
    rcases List.mem_cons.mp there with rfl | old
    · rfl
    · exact sound.aligned client old
  | register cptr checks =>
    simp only [Server.perform]
    split
    next => exact sound
    next client found =>
      split
      next => exact sound
      next unknown =>
        exact sound.registerUser (List.mem_of_find?_eq_some found) (Bool.eq_false_iff.mpr unknown) checks
  | nick cptr uplink sptr ip => exact sound.mNick cptr elsewhere possible ip
  | exit cptr =>
    simp only [Server.perform]
    split
    next => exact sound
    next client found => exact sound.exitOneClient (List.mem_of_find?_eq_some found)
  | limit ent type limit =>
    exact ⟨sound.distinct, fun key => (sound.tallied key).clonesSet localCount_eq_zero ent type limit, sound.chained,
      sound.aligned⟩

theorem run (run : machine.Run Elsewhere Server.start server) : server.Sound :=
  run.invariant Server.Sound (fun _ _ possible elsewhere sound => sound.perform possible elsewhere) start

end Server.Sound

/-- A key that stands for some addresses counts the users from these. -/
theorem counts_of_key {from' : Address → Bool} (same : ∀ ip, ip ≠ 0 →
    (inetntoa ip = key ∨ ip24 (inetntoa ip) = key ↔ from' ip = true)) :
    globalCount server.clients key = (server.users from').length ∧
      localCount server.clients key = (server.users from').countP Client.myConnect := by
  have under : ∀ client : Client, client.under key = (client.person && client.ip ≠ 0 && from' client.ip) := by
    intro client
    by_cases known : client.ip = 0
    · simp [Client.under, known]
    · have texts : (inetntoa client.ip == key || ip24 (inetntoa client.ip) == key) = from' client.ip := by
        rw [Bool.eq_iff_iff, Bool.or_eq_true, beq_iff_eq, beq_iff_eq]
        exact same client.ip known
      rw [Client.under, texts]
  constructor
  · rw [globalCount, total_one, List.countP_eq_length_filter, Server.users]
    simp only [under]
  · rw [localCount, total_one, Server.users, List.countP_filter]
    simp only [under, Bool.and_comm]

theorem Server.Sound.exact (sound : server.Sound) : server.Exact := by
  have address : ∀ ip : Address, ∀ other, other ≠ 0 →
      (inetntoa other = inetntoa ip ∨ ip24 (inetntoa other) = inetntoa ip ↔ decide (other = ip) = true) := by
    intro ip other _
    rw [decide_eq_true_iff]
    constructor
    · rintro (same | same)
      · exact inetntoa_inj same
      · exact absurd same (ip24_ne_inetntoa other ip)
    · rintro rfl
      exact .inl rfl
  refine ⟨?_, ?_, ?_⟩
  · intro ip _
    have counts : globalCount server.clients (inetntoa ip) = (server.users (· = ip)).length ∧
        localCount server.clients (inetntoa ip) = (server.users (· = ip)).countP Client.myConnect :=
      counts_of_key (address ip)
    have tallied := sound.tallied (inetntoa ip)
    rw [counts.1, counts.2] at tallied
    exact tallied
  · intro ip
    have inside : ∀ other : Address, other ≠ 0 →
        (inetntoa other = ip24 (inetntoa ip) ∨ ip24 (inetntoa other) = ip24 (inetntoa ip) ↔
          decide (other.toNat / 256 = ip.toNat / 256) = true) := by
      intro other _
      rw [decide_eq_true_iff, ← ip24_eq_iff]
      constructor
      · rintro (same | same)
        · exact absurd same.symm (ip24_ne_inetntoa ip other)
        · exact same
      · exact .inr
    have counts : globalCount server.clients (ip24 (inetntoa ip)) =
          (server.users fun other => other.toNat / 256 = ip.toNat / 256).length ∧
        localCount server.clients (ip24 (inetntoa ip)) =
          (server.users fun other => other.toNat / 256 = ip.toNat / 256).countP Client.myConnect :=
      counts_of_key inside
    have tallied := sound.tallied (ip24 (inetntoa ip))
    rw [counts.1, counts.2] at tallied
    exact tallied
  · intro ip known
    obtain ⟨lists, shows, listed⟩ := sound.chained
    refine ⟨lists (inetntoa ip), fun fuel enough => shows.walk enough, shows.once _, ?_⟩
    have users : ((server.users (· = ip)).map Client.cptr).Nodup := sound.distinct.sublist (List.filter_sublist.map _)
    rw [List.perm_ext_iff_of_nodup (shows.once _) users]
    intro cptr
    rw [listed, List.mem_map]
    constructor
    · rintro ⟨client, there, name, person, -, text⟩
      refine ⟨client, List.mem_filter.mpr ⟨there, ?_⟩, name⟩
      simpa [person, inetntoa_inj text] using known
    · rintro ⟨client, there, name⟩
      obtain ⟨before, counted⟩ := List.mem_filter.mp there
      simp only [Bool.and_eq_true, decide_eq_true_eq] at counted
      exact ⟨client, before, name, counted.1.1, counted.1.2, by rw [counted.2]⟩

/-- Counts, chains and entries are right in every state, as long as no link introduces a user
as being on this server. -/
theorem clone_counts_exact (run : machine.Run Elsewhere Server.start server) : server.Exact := (Server.Sound.run run).exact

private def limits : Limits := ⟨0, 0, 5, 20, 10, 40⟩

private def fine : Checks := ⟨false, false, limits, false, false, false⟩

private def home : Address := 0x0a000001#32

/-- A local user, a remote one from the same address who stays, and one who is refused. -/
private def actions : List Action :=
  [.connect 1 home, .register 1 fine, .nick 9 (.behind 9) 2 home, .nick 9 (.behind 8) 3 home]

theorem fresh (free : (server.clients.all fun client => decide (client.cptr ≠ cptr)) = true) :
    ∀ client ∈ server.clients, client.cptr ≠ cptr :=
  fun client member => of_decide_eq_true (List.all_eq_true.mp free client member)

theorem clone_counts_exact_refused :
    (actions.foldl machine.perform Server.start).Counts (inetntoa home) (· = home) := by
  have run : machine.Run Elsewhere Server.start (actions.foldl machine.perform Server.start) := by
    refine Machine.Run.of_list actions (.refl _) ⟨fresh ?_, trivial, trivial, trivial, fresh ?_, ?_, fresh ?_, ?_, trivial⟩
    · rfl
    · decide +kernel
    · exact fun same => Found.noConfusion same
    · decide +kernel
    · exact fun same => Found.noConfusion same
  exact (clone_counts_exact run).address home (by decide)

/-- A local user, and a remote one who is said to be on this server too and is refused. -/
private def astray : List Action := [.connect 1 home, .register 1 fine, .nick 9 .me 2 home]

theorem local_count_lost : ∃ server, machine.Run Machine.Any Server.start server ∧ ¬ server.Exact := by
  refine ⟨astray.foldl machine.perform Server.start, ?_, ?_⟩
  · refine Machine.Run.of_list astray (.refl _) ⟨fresh ?_, trivial, trivial, trivial, fresh ?_, trivial, trivial⟩
    · rfl
    · decide +kernel
  · intro exact'
    have counts := Tallied.create (exact'.address home (by decide))
    exact absurd counts.2 (by decide +kernel)

end SolidIrcd.Clones
