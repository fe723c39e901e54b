import SolidIrcd.Client.Hunt
import SolidIrcd.Common
import SolidIrcd.Lib.Census
import SolidIrcd.Lib.Decimal
import SolidIrcd.Lib.Machine

/-! The table of `probability.c` that counts the character pairs in the names of the users,
and every place that gives a user a name or takes one away: `m_nick`, `do_user` and
`register_user`, SVSNICK, and the exits of `s_misc.c`. -/

namespace SolidIrcd.Probability

open Scan (Text)

abbrev ClientId := Nat

def pMinChar : Nat := 0x20
def pMaxChar : Nat := 0x7e

/-- REALLEN. -/
def realLen : Nat := 50

/-- The cells that the loop of `pload` comes to. Only the low range is skipped for the second
character; one above the range is dropped with the first. -/
def visits : Text → List (Nat × Nat)
  | [] => []
  | c1 :: s =>
    if c1.toNat < pMinChar ∨ c1.toNat > pMaxChar then visits s
    else
      match _found : s.dropWhile fun c => c.toNat < pMinChar with
      | [] => []
      | c2 :: rest =>
        if c2.toNat > pMaxChar then visits rest
        else (c1.toNat - pMinChar, c2.toNat - pMinChar) :: visits (c2 :: rest)
termination_by s => s.length
decreasing_by
  · exact Nat.lt_succ_self _
  · have short := (List.dropWhile_suffix (l := s) fun c => decide (c.toNat < pMinChar)).length_le
    rw [_found] at short
    simp only [List.length_cons] at short ⊢
    omega
  · have short := (List.dropWhile_suffix (l := s) fun c => decide (c.toNat < pMinChar)).length_le
    rw [_found] at short
    simp only [List.length_cons] at short ⊢
    omega

/-- `probabilities`. -/
abbrev Table := Nat → Nat → Int

def Table.bump (inc : Int) (probabilities : Table) (cell : Nat × Nat) : Table := fun a b =>
  if (a, b) = cell then probabilities a b + inc else probabilities a b

/-- `pload`. -/
def Table.pload (probabilities : Table) (s : Text) (inc : Int) : Table := (visits s).foldl (bump inc) probabilities

/-- `user` says that USER was received; `person` is `IsPerson`, `mine` is `MyConnect`. -/
structure Client where
  cptr : ClientId
  name : Text
  username : Text
  info : Text
  user : Bool
  person : Bool
  mine : Bool
  deriving DecidableEq, Repr

structure Server where
  clients : List Client
  probabilities : Table

def Server.start : Server := ⟨[], fun _ _ => 0⟩

def Server.find (server : Server) (cptr : ClientId) : Option Client := server.clients.find? fun client => client.cptr = cptr

/-- The client as it is now. -/
def Server.put (server : Server) (client : Client) : Server :=
  { server with clients := Census.replace Client.cptr client server.clients }

/-- `probability_add`. -/
def Server.probabilityAdd (server : Server) (ac : Client) : Server :=
  { server with probabilities := ((server.probabilities.pload ac.name 1).pload ac.username 1).pload ac.info 1 }

/-- `probability_remove`. -/
def Server.probabilityRemove (server : Server) (ac : Client) : Server :=
  { server with probabilities := ((server.probabilities.pload ac.name (-1)).pload ac.username (-1)).pload ac.info (-1) }

/-- `probability_change`. -/
def Server.probabilityChange (server : Server) (old new : Text) : Server :=
  { server with probabilities := (server.probabilities.pload old (-1)).pload new 1 }

def Server.drop (server : Server) (cptr : ClientId) : Server :=
  { server with clients := server.clients.filter fun other => other.cptr ≠ cptr }

/-- `exit_one_client`. -/
def Server.exitOneClient (server : Server) (sptr : Client) : Server :=
  let server := if sptr.person && sptr.name ≠ [] then server.probabilityRemove sptr else server
  server.drop sptr.cptr

/-- `exit_one_client_in_split`, which is only called for persons. -/
def Server.exitOneClientInSplit (server : Server) (cptr : Client) : Server :=
  (server.probabilityRemove cptr).drop cptr.cptr

/-- What `register_user` finds for a client of this server. -/
structure Checks where
  /-- Refused before `SetClient`. -/
  refused : Bool
  /-- `user->username` when all is done: without an ident answer it gets a tilde, an operator
  who is masked another name. -/
  username : Text
  /-- A module drops the user behind the motd. -/
  dropped : Bool
  deriving DecidableEq, Repr

/-- The user that a client becomes. -/
def Client.registered (client : Client) (checks : Checks) : Client :=
  { client with username := checks.username.take userLen, person := true }

/-- `register_user` for a client of this server, and whether the client is still there. -/
def Server.registerUser (server : Server) (sptr : Client) (checks : Checks) : Server × Bool :=
  if checks.refused then (server.exitOneClient sptr, false)
  else
    let user := sptr.registered checks
    let server := server.put user
    if checks.dropped then (server.exitOneClient user, false) else (server.probabilityAdd user, true)

/-- The end of `m_nick`. -/
def Server.setNewNick (server : Server) (sptr : Client) (nick : Text) : Server :=
  let server := if sptr.name ≠ [] ∧ sptr.person then server.probabilityChange sptr.name nick else server
  server.put { sptr with name := nick }

/-- `m_nick` of a client that is there, when nothing is against the nickname; with the first one
a client that has sent USER is registered. -/
def Server.mNick (server : Server) (sptr : Client) (nick : Text) (checks : Checks) : Server :=
  if sptr.name ≠ [] then server.setNewNick sptr nick
  else
    let named := { sptr with name := nick }
    if sptr.user then
      let (server, stays) := (server.put named).registerUser named checks
      if stays then server.setNewNick (named.registered checks) nick else server
    else server.setNewNick named nick

/-- `do_user` of a client of this server. -/
def Server.doUser (server : Server) (sptr : Client) (username realname : Text) (checks : Checks) : Server :=
  if sptr.person then server
  else
    let sptr := { sptr with info := realname.take realLen, user := true }
    if sptr.name ≠ [] then ((server.put sptr).registerUser sptr checks).1
    else server.put { sptr with username := username.take userLen }

/-- What `find_server` returns for the server of a remote user. -/
inductive Found where
  | nothing
  | me
  | behind (link : ClientId)
  deriving DecidableEq, Repr

/-- `m_nick`, `do_user` and `register_user` for a user that the link `cptr` introduces. -/
def Server.introduce (server : Server) (cptr : ClientId) (uplink : Found) (sptr : ClientId) (nick username realname : Text) :
    Server :=
  if uplink = .nothing then server
  else
    let user : Client := ⟨sptr, nick, username.take userLen, realname.take realLen, true, true, false⟩
    let server := { server with clients := user :: server.clients }
    -- "USER server wrong direction"
    if uplink ≠ .behind cptr then server.exitOneClient user else server.probabilityAdd user

/-- The name of this server, and those of the others in the order of the list `client`. -/
structure Servers where
  me : Text
  others : List Text
  deriving DecidableEq, Repr

/-- SVSNICK; `uline` is `IsULine` of the sender, and `draws` is what `my_rand` returns. -/
structure Svsnick where
  uline : Bool
  nick : Text
  newnick : Text
  draws : List Nat
  deriving DecidableEq, Repr

def Server.view (server : Server) (servers : Servers) : Hunt.View (Text ⊕ Client) where
  me := servers.me
  clients := servers.others.map .inl ++ server.clients.map .inr
  name := Sum.elim id Client.name
  status := Sum.elim (fun _ => .server) fun client => if client.person then .client else .unknown
  myClient := Sum.elim (fun _ => false) fun client => client.mine && client.person
  hidden _ := false

/-- `find_client`. Who has no name is not in the table. -/
def Server.findClient (server : Server) (servers : Servers) (user : Text) : Option (Text ⊕ Client) :=
  if user = [] then none
  else (.inl servers.me :: (server.view servers).clients).find? fun acptr => mycmp user ((server.view servers).name acptr)

/-- `find_person`. -/
def Server.findPerson (server : Server) (servers : Servers) (user : Text) : Option Client :=
  match server.findClient servers user with
  | some (.inr client) => if client.person then some client else none
  | _ => none

/-- The user whom a SVSNICK renames here. `hunt_server` has collapsed the name where it stands. -/
def Server.svsTarget (server : Server) (servers : Servers) (nick : Text) : Option Client :=
  match Hunt.huntServer (server.view servers) false (some nick) with
  | .isMe => server.findPerson servers (Mask.collapse nick)
  | _ => none

/-- What `ircsnprintf` leaves of `%s-%d`. -/
def triedNick (newnick : Text) (rand : Nat) : Text :=
  (newnick ++ '-' :: Decimal.print (rand % 99999 : Nat)).take (nickLen - 1)

/-- The loop over `tries`: a nickname that nobody has, or who has the last one. -/
def Server.tryNicks (server : Server) (servers : Servers) (newnick : Text) (ocptr : Text ⊕ Client) :
    List Nat → Except (Text ⊕ Client) Text
  | [] => .error ocptr
  | rand :: draws =>
    match server.findClient servers (triedNick newnick rand) with
    | none => .ok (triedNick newnick rand)
    | some ocptr => server.tryNicks servers newnick ocptr draws

def Server.freeNick (server : Server) (servers : Servers) (newnick : Text) (draws : List Nat) :
    Except (Text ⊕ Client) Text :=
  match server.findClient servers newnick with
  | none => .ok newnick
  | some ocptr => server.tryNicks servers newnick ocptr draws

/-- `m_svsnick`. -/
def Server.mSvsnick (server : Server) (servers : Servers) (command : Svsnick) : Server :=
  if !command.uline ∨ command.newnick.length > nickLen then server
  else
    match server.svsTarget servers command.nick with
    | none => server
    | some acptr =>
      match server.freeNick servers command.newnick command.draws with
      | .ok newnick => server.put { acptr with name := newnick }
      -- "SVSNICK Override" and "SVSNICK Collide"
      | .error (.inr ocptr) => server.exitOneClient (if ocptr.person then acptr else ocptr)
      | .error (.inl _) => server.exitOneClient acptr

inductive Action where
  | connect (cptr : ClientId)
  | nick (sptr : ClientId) (nick : Text) (checks : Checks)
  | user (sptr : ClientId) (username realname : Text) (checks : Checks)
  | introduce (cptr : ClientId) (uplink : Found) (sptr : ClientId) (nick username realname : Text)
  | svsnick (servers : Servers) (command : Svsnick)
  | exit (sptr : ClientId)
  | split (cptr : ClientId)
  deriving DecidableEq, Repr

def Server.perform (server : Server) : Action → Server
  | .connect cptr => { server with clients := ⟨cptr, [], [], [], false, false, true⟩ :: server.clients }
  | .nick sptr nick checks => ((server.find sptr).map fun client => server.mNick client nick checks).getD server
  | .user sptr username realname checks =>
    ((server.find sptr).map fun client => server.doUser client username realname checks).getD server
  | .introduce cptr uplink sptr nick username realname => server.introduce cptr uplink sptr nick username realname
  | .svsnick servers command => server.mSvsnick servers command
  | .exit sptr => ((server.find sptr).map server.exitOneClient).getD server
  | .split cptr =>
    ((server.find cptr).map fun client => if client.person then server.exitOneClientInSplit client else server).getD server

/-- `make_client` returns what nobody holds, a nickname has characters, and SVSNICK tries ten times. -/
def Server.Possible (server : Server) : Action → Prop
  | .connect cptr => ∀ client ∈ server.clients, client.cptr ≠ cptr
  | .introduce _ _ sptr nick _ _ => (∀ client ∈ server.clients, client.cptr ≠ sptr) ∧ nick ≠ []
  | .nick _ nick _ => nick ≠ []
  | .svsnick _ command => command.newnick ≠ [] ∧ command.draws.length = 10
  | _ => True

def machine : Machine Server Action := ⟨Server.perform, Server.Possible⟩

/-- The cells that count a client. -/
def Client.visits (client : Client) : List (Nat × Nat) :=
  Probability.visits client.name ++ Probability.visits client.username ++ Probability.visits client.info

/-- How often a user counts in a cell. -/
def Client.counts (cell : Nat × Nat) (client : Client) : Int := if client.person then client.visits.count cell else 0

/-- Every cell has the number of its pairs in the names of the users. -/
structure Server.Exact (server : Server) : Prop where
  cells : ∀ a b, server.probabilities a b = Census.total (Client.counts (a, b)) server.clients
  nonneg : ∀ a b, 0 ≤ server.probabilities a b
  empty : (∀ client ∈ server.clients, client.person = false) → server.probabilities = Server.start.probabilities

/-- No user that a module drops at the end of `register_user` counts anywhere. -/
def Checks.Even (checks : Checks) (nick info : Text) : Prop :=
  checks.refused = false → checks.dropped = true →
    visits nick ++ visits (checks.username.take userLen) ++ visits info = []

/-- What keeps the table right: a user of this server whom SVSNICK renames gets a nickname with the same pairs, and
whoever is refused after `SetClient` has no pairs. -/
def Server.Even (server : Server) : Action → Prop
  | .svsnick servers command => command.uline = true → command.newnick.length ≤ nickLen →
    ∀ acptr newnick, server.svsTarget servers command.nick = some acptr →
      server.freeNick servers command.newnick command.draws = .ok newnick → (visits newnick).Perm (visits acptr.name)
  | .introduce cptr uplink _ nick username realname => uplink = .nothing ∨ uplink = .behind cptr ∨
    visits nick ++ visits (username.take userLen) ++ visits (realname.take realLen) = []
  | .nick sptr nick checks => ∀ client, server.find sptr = some client → client.name = [] → client.user = true →
    checks.Even nick client.info
  | .user sptr _ realname checks => ∀ client, server.find sptr = some client → client.person = false →
    client.name ≠ [] → checks.Even client.name (realname.take realLen)
  | _ => True

/-- Every user has a nickname, and the cells are right. -/
structure Server.Sound (server : Server) : Prop where
  distinct : (server.clients.map Client.cptr).Nodup
  named : ∀ client ∈ server.clients, client.person = true → client.name ≠ []
  cells : ∀ a b, server.probabilities a b = Census.total (Client.counts (a, b)) server.clients

section Table

variable (probabilities : Table)

theorem foldl_bump (cells : List (Nat × Nat)) (inc : Int) (a b : Nat) :
    cells.foldl (Table.bump inc) probabilities a b = probabilities a b + inc * cells.count (a, b) := by
  induction cells generalizing probabilities with
  | nil => simp
  | cons cell cells ih =>
    rw [List.foldl_cons, ih, Table.bump, List.count_cons]
    by_cases same : (a, b) = cell
    · rw [if_pos same, if_pos (by simpa using same.symm), Int.natCast_add, Int.natCast_one, Int.mul_add, Int.mul_one]
      omega
    · rw [if_neg same, if_neg (by simpa using Ne.symm same), Nat.add_zero]

theorem pload_apply (s : Text) (inc : Int) (a b : Nat) :
    probabilities.pload s inc a b = probabilities a b + inc * (visits s).count (a, b) := foldl_bump ..

variable (server : Server) (ac : Client) (a b : Nat)

theorem probabilityAdd_apply :
    (server.probabilityAdd ac).probabilities a b = server.probabilities a b + ac.visits.count (a, b) := by
  simp only [Server.probabilityAdd, pload_apply, Client.visits, List.count_append]
  omega

theorem probabilityRemove_apply :
    (server.probabilityRemove ac).probabilities a b = server.probabilities a b - ac.visits.count (a, b) := by
  simp only [Server.probabilityRemove, pload_apply, Client.visits, List.count_append]
  omega

theorem probabilityChange_apply (old new : Text) :
    (server.probabilityChange old new).probabilities a b =
      server.probabilities a b - (visits old).count (a, b) + (visits new).count (a, b) := by
  simp only [Server.probabilityChange, pload_apply]
  omega

/-- No cell outside of the array is touched. -/
theorem visits_inside (s : Text) : ∀ cell ∈ visits s, cell.1 ≤ pMaxChar - pMinChar ∧ cell.2 ≤ pMaxChar - pMinChar := by
  fun_induction visits s with
  | case1 => simp
  | case2 c1 s outside ih => exact ih
  | case3 c1 s inside last => simp
  | case4 c1 s inside c2 rest found above ih => exact ih
  | case5 c1 s inside c2 rest found below ih =>
    intro cell member
    rcases List.mem_cons.mp member with rfl | later
    · simp only [pMaxChar, pMinChar] at inside below ⊢
      omega
    · exact ih cell later

end Table

theorem find_some {server : Server} (found : server.find cptr = some client) : client ∈ server.clients :=
  List.mem_of_find?_eq_some found

theorem counts_nonneg (cell : Nat × Nat) (client : Client) : 0 ≤ client.counts cell := by
  unfold Client.counts
  split
  · exact Int.natCast_nonneg _
  · exact Int.le_refl 0

theorem counts_person {client : Client} (person : client.person = true) (cell : Nat × Nat) :
    client.counts cell = client.visits.count cell := if_pos person

theorem counts_unknown {client : Client} (unknown : client.person = false) (cell : Nat × Nat) : client.counts cell = 0 := by
  rw [Client.counts, if_neg (by simp [unknown])]

theorem total_nonneg (cell : Nat × Nat) (clients : List Client) : 0 ≤ Census.total (Client.counts cell) clients := by
  induction clients with
  | nil => exact Int.le_refl 0
  | cons client clients ih => exact Int.add_nonneg (counts_nonneg cell client) ih

section Lookup

variable {server : Server} {servers : Servers}

theorem mem_findClient (found : server.findClient servers user = some (.inr client)) : client ∈ server.clients := by
  unfold Server.findClient at found
  split at found
  · cases found
  · simpa [Server.view] using List.mem_of_find?_eq_some found

theorem mem_svsTarget (target : server.svsTarget servers nick = some client) :
    client ∈ server.clients ∧ client.person = true := by
  unfold Server.svsTarget Server.findPerson at target
  split at target
  · split at target
    next found =>
      split at target
      next person =>
        obtain rfl := Option.some.inj target
        exact ⟨mem_findClient found, person⟩
      · cases target
    · cases target
  · cases target

/-- A nickname is looked up as it is, and a user behind a link is left to the server there. -/
theorem svsTarget_plain (plain : ∀ c ∈ nick, Mask.isWild c = false) (some : nick ≠ [])
    (short : nick.length ≤ Mask.maxCalls) (other : mycmp nick servers.me = false) :
    server.svsTarget servers nick = (server.findPerson servers nick).filter Client.mine := by
  have away : Mask.matchMask nick servers.me = false := by
    rw [Bool.eq_false_iff, Ne, Hunt.matchMask_plain plain short, other]
    simp
  have tame : ¬ ('?' ∈ nick ∨ '*' ∈ nick) := by
    rintro (mark | star)
    · exact absurd (plain _ mark) (by decide)
    · exact absurd (plain _ star) (by decide)
  obtain ⟨first, rest, rfl⟩ := List.exists_cons_of_ne_nil some
  have me : (server.view servers).me = servers.me := rfl
  simp only [Server.svsTarget, Hunt.huntServer, Hunt.collapse_plain plain, me, away, Bool.false_eq_true, if_false]
  rw [Hunt.View.find, if_neg tame]
  have same : server.findClient servers (first :: rest) = (server.view servers).clients.find? fun acptr =>
      mycmp (first :: rest) ((server.view servers).name acptr) := by
    have name : (server.view servers).name (.inl servers.me) = servers.me := rfl
    rw [Server.findClient, if_neg some, List.find?_cons_of_neg (by simp [name, other])]
  rw [Server.findPerson, ← same]
  rcases server.findClient servers (first :: rest) with _ | server' | client
  · rfl
  · rfl
  · cases person : client.person with
    | false => simp [Server.view, person, Status.isRegistered, Option.filter]
    | true =>
      cases mine : client.mine <;> simp [Server.view, person, mine, Status.isRegistered, Option.filter]

theorem mSvsnick_elsewhere (target : server.svsTarget servers command.nick = none) :
    server.mSvsnick servers command = server := by
  unfold Server.mSvsnick
  split
  · rfl
  · rw [target]

theorem mem_tryNicks (holder : ∀ client, ocptr = .inr client → client ∈ server.clients)
    (taken : server.tryNicks servers newnick ocptr draws = .error (.inr client)) : client ∈ server.clients := by
  induction draws generalizing ocptr with
  | nil => exact holder client (Except.error.inj taken)
  | cons rand draws ih =>
    unfold Server.tryNicks at taken
    split at taken
    · cases taken
    next found => exact ih (fun client same => mem_findClient (same ▸ found)) taken

theorem mem_holder (taken : server.freeNick servers newnick draws = .error (.inr client)) :
    client ∈ server.clients := by
  unfold Server.freeNick at taken
  split at taken
  · cases taken
  next found => exact mem_tryNicks (fun client same => mem_findClient (same ▸ found)) taken

theorem triedNick_ne_nil (rand : Nat) : triedNick newnick rand ≠ [] := by
  simp [triedNick, nickLen]

theorem tryNicks_ne_nil (free : server.tryNicks servers newnick ocptr draws = .ok nick) : nick ≠ [] := by
  induction draws generalizing ocptr with
  | nil => cases free
  | cons rand draws ih =>
    unfold Server.tryNicks at free
    split at free
    · obtain rfl := Except.ok.inj free
      exact triedNick_ne_nil rand
    · exact ih free

theorem freeNick_ne_nil (some : newnick ≠ []) (free : server.freeNick servers newnick draws = .ok nick) : nick ≠ [] := by
  unfold Server.freeNick at free
  split at free
  · exact Except.ok.inj free ▸ some
  · exact tryNicks_ne_nil free

end Lookup

namespace Server.Sound

variable {server : Server}

theorem start : Server.start.Sound := ⟨List.nodup_nil, by simp [Server.start], fun _ _ => rfl⟩

theorem exact (sound : server.Sound) : server.Exact where
  cells := sound.cells
  nonneg a b := by
    rw [sound.cells]
    exact total_nonneg _ _
  empty none := by
    funext a b
    rw [sound.cells, Census.total_eq_zero fun client member => counts_unknown (none client member) _]
    rfl

variable {after : Server} {client : Client}

/-- A client changes, and the cells with it. -/
theorem put {old : Client} (sound : server.Sound) (member : old ∈ server.clients) (client : Client)
    (same : old.cptr = client.cptr)
    (named : client.person = true → client.name ≠ [])
    (clients : after.clients = Census.replace Client.cptr client server.clients)
    (cells : ∀ a b, after.probabilities a b = server.probabilities a b - old.counts (a, b) + client.counts (a, b)) :
    after.Sound where
  distinct := by
    rw [clients, Census.keys_replace]
    exact sound.distinct
  named other listed person := by
    rw [clients] at listed
    rcases Census.mem_replace listed with rfl | ⟨there, -⟩
    · exact named person
    · exact sound.named other there person
  cells a b := by
    rw [cells, clients, sound.cells, Census.total_replace sound.distinct member same]

theorem cons (sound : server.Sound) (client : Client) (fresh : ∀ other ∈ server.clients, other.cptr ≠ client.cptr)
    (named : client.person = true → client.name ≠ []) (clients : after.clients = client :: server.clients)
    (cells : ∀ a b, after.probabilities a b = server.probabilities a b + client.counts (a, b)) : after.Sound where
  distinct := by
    rw [clients]
    refine List.nodup_cons.mpr ⟨?_, sound.distinct⟩
    intro listed
    obtain ⟨other, member, same⟩ := List.mem_map.mp listed
    exact fresh other member same
  named other listed person := by
    rw [clients] at listed
    rcases List.mem_cons.mp listed with rfl | there
    · exact named person
    · exact sound.named other there person
  cells a b := by
    rw [cells, clients, sound.cells, Census.total, Int.add_comm]

theorem drop (sound : server.Sound) (member : client ∈ server.clients)
    (clients : after.clients = server.clients.filter fun other => other.cptr ≠ client.cptr)
    (cells : ∀ a b, after.probabilities a b = server.probabilities a b - client.counts (a, b)) : after.Sound where
  distinct := by
    rw [clients]
    exact sound.distinct.sublist (List.filter_sublist.map _)
  named other listed := by
    rw [clients] at listed
    exact sound.named other (List.mem_filter.mp listed).1
  cells a b := by
    rw [cells, clients, sound.cells, Census.total_remove sound.distinct member]

theorem exitOneClient (sound : server.Sound) (member : client ∈ server.clients) : (server.exitOneClient client).Sound := by
  cases person : client.person with
  | false =>
    refine sound.drop member ?_ fun a b => ?_
    · simp [Server.exitOneClient, Server.drop, person]
    · simp [Server.exitOneClient, Server.drop, person, counts_unknown person]
  | true =>
    have named := sound.named client member person
    have shape : server.exitOneClient client = (server.probabilityRemove client).drop client.cptr := by
      simp [Server.exitOneClient, person, named]
    rw [shape]
    refine sound.drop member rfl fun a b => ?_
    rw [counts_person person]
    exact probabilityRemove_apply ..

theorem exitOneClientInSplit (sound : server.Sound) (member : client ∈ server.clients) (person : client.person = true) :
    (server.exitOneClientInSplit client).Sound := by
  refine sound.drop member rfl fun a b => ?_
  rw [counts_person person]
  exact probabilityRemove_apply ..

theorem setNewNick (sound : server.Sound) (member : client ∈ server.clients) (some : nick ≠ []) :
    (server.setNewNick client nick).Sound := by
  cases person : client.person with
  | false =>
    have shape : server.setNewNick client nick = server.put { client with name := nick } := by
      simp [Server.setNewNick, person]
    rw [shape]
    refine sound.put member { client with name := nick } rfl (fun _ => some) rfl fun a b => ?_
    have unknown : ({ client with name := nick } : Client).person = false := person
    rw [counts_unknown person, counts_unknown unknown]
    simp [Server.put]
  | true =>
    have named := sound.named client member person
    have shape : server.setNewNick client nick =
        (server.probabilityChange client.name nick).put { client with name := nick } := by
      simp [Server.setNewNick, person, named]
    rw [shape]
    refine sound.put member { client with name := nick } rfl (fun _ => some) rfl fun a b => ?_
    have still : ({ client with name := nick } : Client).person = true := person
    have changed := probabilityChange_apply server a b client.name nick
    rw [counts_person person, counts_person still]
    simp only [Client.visits, List.count_append]
    simp only [Server.put, changed]
    omega

theorem mem_put {old : Client} (member : old ∈ server.clients) (same : old.cptr = client.cptr) :
    client ∈ (server.put client).clients := by
  refine List.mem_map.mpr ⟨old, member, if_pos same⟩

/-- A registration that a module does not undo late, or that counts nowhere. -/
theorem registerUser {checks : Checks} (sound : server.Sound) (member : client ∈ server.clients)
    (unknown : client.person = false) (named : client.name ≠ []) (even : checks.Even client.name client.info) :
    (server.registerUser client checks).1.Sound ∧ ((server.registerUser client checks).2 = true →
      client.registered checks ∈ (server.registerUser client checks).1.clients) := by
  have zero (cell : Nat × Nat) : client.counts cell = 0 := counts_unknown unknown cell
  have count (cell : Nat × Nat) : (client.registered checks).counts cell = (client.registered checks).visits.count cell :=
    counts_person rfl cell
  have there : client.registered checks ∈ (server.put (client.registered checks)).clients := mem_put member rfl
  unfold Server.registerUser
  split
  next => exact ⟨sound.exitOneClient member, fun stays => absurd stays (by simp)⟩
  next refused =>
    simp only
    split
    next dropped =>
      have nothing : (client.registered checks).visits = [] := even (by simpa using refused) dropped
      have kept : (server.put (client.registered checks)).Sound := by
        refine sound.put member (client.registered checks) rfl (fun _ => named) rfl fun a b => ?_
        rw [zero, count, nothing]
        simp [Server.put]
      exact ⟨kept.exitOneClient there, fun stays => absurd stays (by simp)⟩
    next =>
      refine ⟨sound.put member (client.registered checks) rfl (fun _ => named) rfl fun a b => ?_, fun _ => there⟩
      have added := probabilityAdd_apply (server.put (client.registered checks)) (client.registered checks) a b
      rw [zero, count, Int.sub_zero]
      exact added

theorem mNick {checks : Checks} (sound : server.Sound) (member : client ∈ server.clients) (some : nick ≠ [])
    (even : client.name = [] → client.user = true → checks.Even nick client.info) :
    (server.mNick client nick checks).Sound := by
  unfold Server.mNick
  split
  next => exact sound.setNewNick member some
  next unnamed =>
    have blank : client.name = [] := not_not.mp unnamed
    have unknown : client.person = false := by
      by_contra person
      exact sound.named client member (by simpa using person) blank
    have kept : (server.put { client with name := nick }).Sound := by
      refine sound.put member { client with name := nick } rfl (fun _ => some) rfl fun a b => ?_
      have still : ({ client with name := nick } : Client).person = false := unknown
      rw [counts_unknown unknown, counts_unknown still]
      simp [Server.put]
    have there : { client with name := nick } ∈ (server.put { client with name := nick }).clients := mem_put member rfl
    simp only
    split
    next received =>
      obtain ⟨registered, listed⟩ := kept.registerUser there unknown some (even blank received)
      split
      next stays => exact registered.setNewNick (listed stays) some
      next => exact registered
    next =>
      have shape : server.setNewNick { client with name := nick } nick = server.put { client with name := nick } := by
        simp [Server.setNewNick, unknown]
      rw [shape]
      exact kept

theorem doUser {checks : Checks} (sound : server.Sound) (member : client ∈ server.clients)
    (even : client.person = false → client.name ≠ [] → checks.Even client.name (realname.take realLen)) :
    (server.doUser client username realname checks).Sound := by
  unfold Server.doUser
  split
  next => exact sound
  next stranger =>
    have unknown : client.person = false := by simpa using stranger
    have keeps (client' : Client) (same : client.cptr = client'.cptr) (still : client'.person = false) :
        (server.put client').Sound := by
      refine sound.put member client' same (fun person => ?_) rfl fun a b => ?_
      · rw [still] at person
        cases person
      · rw [counts_unknown unknown, counts_unknown still]
        simp [Server.put]
    simp only
    split
    next named =>
      exact ((keeps { client with info := realname.take realLen, user := true } rfl unknown).registerUser
        (mem_put member rfl) unknown named (even unknown named)).1
    next => exact keeps _ rfl unknown

theorem introduce (sound : server.Sound) (fresh : ∀ other ∈ server.clients, other.cptr ≠ sptr) (some : nick ≠ [])
    (even : server.Even (.introduce cptr uplink sptr nick username realname)) :
    (server.introduce cptr uplink sptr nick username realname).Sound := by
  unfold Server.introduce
  split
  next => exact sound
  next known =>
    generalize made : (⟨sptr, nick, username.take userLen, realname.take realLen, true, true, false⟩ : Client) = user
    have person : user.person = true := by rw [← made]
    have named : user.name ≠ [] := by rwa [← made]
    have new : ∀ other ∈ server.clients, other.cptr ≠ user.cptr := by rwa [← made]
    simp only
    split
    next wrong =>
      have nothing : user.visits = [] := by
        rw [← made]
        exact (even.resolve_left known).resolve_left wrong
      have entered : Server.Sound { server with clients := user :: server.clients } := by
        refine sound.cons user new (fun _ => named) rfl fun a b => ?_
        rw [counts_person person, nothing]
        simp
      exact entered.exitOneClient (List.mem_cons_self ..)
    next =>
      refine sound.cons user new (fun _ => named) rfl fun a b => ?_
      rw [counts_person person]
      exact probabilityAdd_apply ..

theorem mSvsnick (sound : server.Sound) (some : command.newnick ≠ [])
    (even : server.Even (.svsnick servers command)) : (server.mSvsnick servers command).Sound := by
  unfold Server.mSvsnick
  split
  · exact sound
  next obeyed =>
    obtain ⟨uline, short⟩ : command.uline = true ∧ command.newnick.length ≤ nickLen := by
      simpa using obeyed
    split
    · exact sound
    next acptr target =>
      obtain ⟨member, person⟩ := mem_svsTarget target
      split
      next newnick free =>
        refine sound.put member { acptr with name := newnick } rfl (fun _ => freeNick_ne_nil some free) rfl
          fun a b => ?_
        have still : ({ acptr with name := newnick } : Client).person = true := person
        have pairs := (even uline short acptr newnick target free).count_eq (a, b)
        rw [counts_person person, counts_person still]
        simp only [Client.visits, List.count_append, pairs, Server.put]
        omega
      next ocptr taken =>
        split
        · exact sound.exitOneClient member
        · exact sound.exitOneClient (mem_holder taken)
      next => exact sound.exitOneClient member

/-- What one step keeps. -/
theorem perform (sound : server.Sound) (possible : server.Possible action) (even : server.Even action) :
    (server.perform action).Sound := by
  cases action with
  | connect cptr =>
    refine sound.cons ⟨cptr, [], [], [], false, false, true⟩ possible
      (fun person => absurd person (by simp)) rfl fun a b => ?_
    simp [Server.perform, Client.counts]
  | nick sptr nick checks =>
    simp only [Server.perform]
    cases found : server.find sptr with
    | none => exact sound
    | some client => exact sound.mNick (find_some found) possible (even client found)
  | user sptr username realname checks =>
    simp only [Server.perform]
    cases found : server.find sptr with
    | none => exact sound
    | some client => exact sound.doUser (find_some found) (even client found)
  | introduce cptr uplink sptr nick username realname => exact sound.introduce possible.1 possible.2 even
  | svsnick servers command => exact sound.mSvsnick possible.1 even
  | exit sptr =>
    simp only [Server.perform]
    cases found : server.find sptr with
    | none => exact sound
    | some client => exact sound.exitOneClient (find_some found)
  | split cptr =>
    simp only [Server.perform]
    cases found : server.find cptr with
    | none => exact sound
    | some client =>
      simp only [Option.map_some, Option.getD_some]
      split
      next person => exact sound.exitOneClientInSplit (find_some found) person
      next => exact sound

theorem run (run : machine.Run Server.Even Server.start server) : server.Sound :=
  run.invariant Server.Sound (fun _ _ possible even sound => sound.perform possible even) start

end Server.Sound

/-- As long as SVSNICK leaves the pairs of a name alone and nobody who has pairs is refused
late, every cell counts its pairs. -/
theorem probabilities_exact (run : machine.Run Server.Even Server.start server) : server.Exact := (Server.Sound.run run).exact

private def plain : Checks := ⟨false, "~joe".toList, false⟩

private def local' : Servers := ⟨"a.net".toList, ["b.net".toList]⟩

/-- SVSNICK from services; the first nickname that is tried is free. -/
private def svsnick (nick newnick : Text) : Action := .svsnick local' ⟨true, nick, newnick, List.replicate 10 0⟩

/-- A user of this server, one behind a link, a change of nickname, SVSNICK of the remote user, which goes on to the
link, and of the other one to the same pairs. -/
private def renames : List Action :=
  [.connect 1, .user 1 "joe".toList "Joe".toList plain, .nick 1 "joe".toList plain,
    .introduce 9 (.behind 9) 2 "jim".toList "jim".toList "Jim".toList, .nick 1 "anna".toList plain,
    svsnick "jim".toList "bob".toList, svsnick "anna".toList "nnan".toList, .exit 1]

private theorem fresh {server : Server} (free : (server.clients.all fun client => decide (client.cptr ≠ cptr)) = true) :
    ∀ client ∈ server.clients, client.cptr ≠ cptr :=
  fun client member => of_decide_eq_true (List.all_eq_true.mp free client member)

private theorem target {server : Server} (plain : (nick.all fun c => !Mask.isWild c) = true)
    (fits : decide (nick ≠ [] ∧ nick.length ≤ Mask.maxCalls) = true) (other : mycmp nick local'.me = false) :
    server.svsTarget local' nick = (server.findPerson local' nick).filter Client.mine :=
  svsTarget_plain (fun c member => by simpa using List.all_eq_true.mp plain c member) (of_decide_eq_true fits).1
    (of_decide_eq_true fits).2 other

theorem probabilities_exact_renames : (renames.foldl machine.perform Server.start).Exact := by
  have mild (nick info : Text) : plain.Even nick info := fun _ dropped => absurd dropped (by decide)
  have remote : ((renames.take 5).foldl machine.perform Server.start).svsTarget local' "jim".toList = none :=
    (target rfl rfl rfl).trans (by decide +kernel)
  have passed : (renames.take 6).foldl machine.perform Server.start =
      (renames.take 5).foldl machine.perform Server.start := by
    rw [show renames.take 6 = renames.take 5 ++ [svsnick "jim".toList "bob".toList] from rfl, List.foldl_append]
    generalize (renames.take 5).foldl machine.perform Server.start = server at remote
    show server.mSvsnick local' ⟨true, "jim".toList, "bob".toList, List.replicate 10 0⟩ = server
    exact mSvsnick_elsewhere remote
  have run : machine.Run Server.Even Server.start (renames.foldl machine.perform Server.start) := by
    refine Machine.Run.of_list renames (.refl _) ⟨fresh ?_, trivial, trivial, fun _ _ _ _ => mild _ _, ?_,
      fun _ _ _ _ => mild _ _, ⟨fresh ?_, ?_⟩, .inr (.inl rfl), ?_, fun _ _ _ _ => mild _ _, ⟨?_, rfl⟩, ?_, ⟨?_, rfl⟩,
      ?_, trivial, trivial, trivial⟩
    · rfl
    · exact List.cons_ne_nil _ _
    · decide +kernel
    · exact List.cons_ne_nil _ _
    · exact List.cons_ne_nil _ _
    · exact List.cons_ne_nil _ _
    · intro _ _ acptr newnick found
      exact absurd (remote.symm.trans found) nofun
    · exact List.cons_ne_nil _ _
    · change Server.Even ((renames.take 6).foldl machine.perform Server.start) _
      rw [passed]
      intro _ _ acptr newnick found free
      have here : ((renames.take 5).foldl machine.perform Server.start).svsTarget local' "anna".toList =
          some ⟨1, "anna".toList, "~joe".toList, "Joe".toList, true, true, true⟩ :=
        (target rfl rfl rfl).trans (by decide +kernel)
      have given : (((renames.take 5).foldl machine.perform Server.start).freeNick local' "nnan".toList
          (List.replicate 10 0)).toOption = some "nnan".toList := by decide +kernel
      obtain rfl := Option.some.inj (here.symm.trans found)
      obtain rfl := Option.some.inj (given.symm.trans (congrArg Except.toOption free))
      decide +kernel
  exact probabilities_exact run

/-- A user of this server, and what services make of the user. -/
private def ann : Client := ⟨1, "ann".toList, "~joe".toList, "Ann".toList, true, true, true⟩

private def arrived : Server :=
  [.connect 1, .user 1 "ann".toList "Ann".toList plain, .nick 1 "ann".toList plain].foldl machine.perform Server.start

private theorem arrived_renamed : machine.perform arrived (svsnick "ann".toList "bob".toList) =
    arrived.put { ann with name := "bob".toList } := by
  have here : arrived.svsTarget local' "ann".toList = some ann := (target rfl rfl rfl).trans (by decide +kernel)
  have free : arrived.findClient local' "bob".toList = none := by decide +kernel
  change arrived.mSvsnick local' ⟨true, "ann".toList, "bob".toList, List.replicate 10 0⟩ = _
  rw [Server.mSvsnick, if_neg (by decide), here]
  simp only [Server.freeNick, free]

theorem renamed_pairs_stay : ∃ server, machine.Run Machine.Any Server.start server ∧ server.clients = [] ∧
    server.probabilities 65 78 = 1 ∧ server.probabilities 66 79 = -1 ∧ ¬ server.Exact := by
  have run : machine.Run Machine.Any Server.start arrived :=
    Machine.Run.of_list _ (.refl _) ⟨fresh rfl, trivial, trivial, trivial, List.cons_ne_nil _ _, trivial, trivial⟩
  have renamed : machine.Run Machine.Any Server.start (arrived.put { ann with name := "bob".toList }) :=
    arrived_renamed ▸ .tail run ⟨List.cons_ne_nil _ _, rfl⟩ trivial
  have left : machine.Run Machine.Any Server.start
      (machine.perform (arrived.put { ann with name := "bob".toList }) (.exit 1)) := .tail renamed trivial trivial
  refine ⟨_, left, ?_, ?_, ?_, ?_⟩
  · decide +kernel
  · decide +kernel
  · decide +kernel
  · intro exact'
    have low := exact'.nonneg 66 79
    exact absurd low (by decide +kernel)

end SolidIrcd.Probability
