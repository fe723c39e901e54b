import SolidIrcd.Channel.Registry
import SolidIrcd.Channel.Sjoin
import SolidIrcd.Lib.Machine

/-! The commands that put clients on channels and take them off: JOIN, PART, KICK, INVITE, MODE -i
and SJOIN, and clients that register, change their name and exit. -/

namespace SolidIrcd.Registry

open Scan (Text)
open Function (update)
open Decimal (atoi)

/-- The client as `can_join` sees it. -/
def Client.joiner (client : Client) (invited : List ChanId) : Channel.Joiner :=
  ⟨{ client.identity with person := client.isPerson }, invited, client.uline, client.oper, client.regNick, client.umodez,
    client.ursl⟩

/-- `can_join`: whether the client is let in, and what it leaves of the gate. -/
def Gate.canJoin (gate : Gate) (build : Build) (chptr : ChanId) (users : Int) (sptr : Client) (invited : List ChanId)
    (key : Option Text) (now : Int) : Bool × Gate :=
  let venue : Channel.Venue :=
    ⟨chptr, gate.mode, users, gate.banlist, gate.banexemptList, gate.inviteList, gate.counts⟩
  let ((error, _), counts) := Channel.canJoin build now (sptr.joiner invited) venue key
  (error.isNone, { gate with counts })

/-- One more has joined. -/
def Gate.joined (gate : Gate) : Gate := { gate with counts := { gate.counts with joinCount := gate.counts.joinCount + 1 } }

/-- What `configure` and `ircd.conf` say. -/
structure Config where
  build : Build
  maxchannelsperuser : Nat

/-- Where `m_join` has the channel. -/
def Server.joinChannel (server : Server) (build : Build) (sptr : Client) (chptr : ChanId) (key : Option Text)
    (now : Int) : Server :=
  if server.isMember sptr.cptr chptr then server
  else
    let (allowed, gate) :=
      if sptr.myConnect then
        (server.gate chptr).canJoin build chptr (server.users chptr) sptr (server.invited sptr.cptr) key now
      else (true, server.gate chptr)
    let server := { server with gate := update server.gate chptr gate }
    if !allowed then server
    else
      let server := server.addUserToChannel chptr sptr
      let server := { server with gate := update server.gate chptr gate.joined }
      if sptr.myClient then server.delInvite sptr.cptr chptr else server

/-- The channel of `get_channel` with CREATE. -/
def Server.channelOf (server : Server) (name : Text) (room : ChanId) : ChanId :=
  (server.findChannel name).getD room

/-- `get_channel` with CREATE. -/
def Server.getChannel (server : Server) (name : Text) (room : ChanId) : Server :=
  if (server.findChannel name).isSome then server else server.createChannel name room

/-- What `check_channelname` objects to. -/
def badChannelChar (c : Char) : Bool := decide (c.toNat < 33) || c = ',' || c.toNat = 160

/-- `m_join` for one of the names; `barred` says that the name is quarantined, or the client a spambot. -/
def Server.mJoin (server : Server) (config : Config) (sptr : Client) (name : Text) (key : Option Text) (barred : Bool)
    (now : Int) (room : ChanId) : Server :=
  if !sptr.user then server
  else if sptr.myClient && name.any badChannelChar then server
  else
    let name := name.take channelLen
    if name.head? = some '0' ∧ atoi name = 0 then
      partChannels sptr.cptr (server.userChannel sptr.cptr).length server
    else if name.head? ≠ some '#' then server
    else if sptr.myConnect && barred then server
    else if sptr.myConnect = true ∧ server.joined sptr.cptr ≥ config.maxchannelsperuser ∧
        (sptr.anOper = false ∨ server.joined sptr.cptr ≥ config.maxchannelsperuser * 3) then server
    else (server.getChannel name room).joinChannel config.build sptr (server.channelOf name room) key now

/-- The name as `get_channel` without CREATE looks for it. -/
def Client.cut (sptr : Client) (name : Text) : Text := if sptr.myClient then name.take channelLen else name

/-- `m_part` for one of the names. -/
def Server.mPart (server : Server) (sptr : Client) (name : Text) : Server :=
  match server.findChannel (sptr.cut name) with
  | none => server
  | some chptr => if server.isMember sptr.cptr chptr then server.removeUserFromChannel sptr.cptr chptr else server

/-- `m_kick` for one of the names, with the clients that `find_chasing` finds; `may` and `spared` are what the
status of the two on the channel decides. -/
def Server.mKick (server : Server) (sptr : Client) (name : Text) (may : Bool) (spared : ClientId → Bool)
    (targets : List ClientId) : Server :=
  match server.findChannel (sptr.cut name) with
  | none => server
  | some chptr =>
    if !may then server
    else targets.foldl (fun server who =>
      if server.isMember who chptr && !spared who then server.removeUserFromChannel who chptr else server) server

/-- `m_invite`; `chanop` says whether the sender may invite. -/
def Server.mInvite (server : Server) (config : Config) (sptr acptr : Client) (name : Text) (chanop : Bool) : Server :=
  match server.findChannel name with
  | none => server
  | some chptr =>
    if sptr.myClient = true ∧ (server.isMember sptr.cptr chptr = false ∨ chanop = false) then server
    else if server.isMember acptr.cptr chptr then server
    else if acptr.myClient then server.addInvite config.maxchannelsperuser acptr.cptr chptr
    else server

/-- `m_mode` on a channel: whatever it makes of the modes, `-i` deletes the invites. -/
def Server.mMode (server : Server) (name : Text) (gate : Gate) (minusI : Bool) : Server :=
  match server.findChannel name with
  | none => server
  | some chptr =>
    let server := { server with gate := update server.gate chptr gate }
    if minusI then clearInvites chptr (server.invites chptr).length server else server

/-- `find_chasing`; `history` is what `get_history` answers. -/
def Server.findChasing (server : Server) (history : Text → Option ClientId) (user : Text) : Option Client :=
  match server.clients.find? fun client => mycmp client.identity.name user with
  | some who => some who
  | none => (history user).bind fun cptr => server.clients.find? fun client => client.cptr = cptr

/-- The client that a word of the member list names, when it is behind the link. -/
def Server.named (server : Server) (history : Text → Option ClientId) (link : ClientId) (word : Text) : Option Client :=
  (server.findChasing history (word.dropWhile Channel.isStatus)).filter fun acptr => acptr.link = link

/-- `m_sjoin` of a user. -/
def Server.clientSjoin (server : Server) (sptr : Client) (name : Text) (room : ChanId) : Server :=
  if name.head? ≠ some '#' then server
  else
    let chptr := server.channelOf name room
    let server := server.getChannel name room
    if server.isMember sptr.cptr chptr then server
    else
      let server := server.addUserToChannel chptr sptr
      { server with gate := update server.gate chptr (server.gate chptr).joined }

/-- The body of the member loop of `m_sjoin`. -/
def Server.joinMember (history : Text → Option ClientId) (link : ClientId) (chptr : ChanId) (server : Server)
    (word : Text) : Server :=
  match server.named history link word with
  | none => server
  | some acptr => if server.isMember acptr.cptr chptr then server else server.addUserToChannel chptr acptr

/-- `m_sjoin` of a server behind `link`, with the channel, the modes and what is behind them; `gate` is what it
makes of the modes. -/
def Server.serverSjoin (server : Server) (build : Build) (history : Text → Option ClientId) (link : ClientId)
    (name modes : Text) (args : List Text) (gate : Gate) (room : ChanId) : Server :=
  if name.head? ≠ some '#' then server
  else
    let created := (server.findChannel name).isNone
    let chptr := server.channelOf name room
    let server := server.getChannel name room
    match Channel.readModes build modes .clear args with
    | none => server
    | some (_, []) => server
    | some (_, list :: _) =>
      let words := Scan.tokens ' ' list
      let server := { server with gate := update server.gate chptr gate }
      let after := words.foldl (Server.joinMember history link chptr) server
      if created && !(words.any fun word => (server.named history link word).isSome) && after.users chptr = 0 then
        after.sub1FromChannel chptr
      else after

/-- What `exit_one_client` and `exit_one_client_in_split` do for a user. -/
def Server.leave (server : Server) (sptr : ClientId) : Server :=
  let server := partChannels sptr (server.userChannel sptr).length server
  dropInvited sptr (server.invited sptr).length server

/-- `exit_one_client`; in a split the name is not looked at. -/
def Server.exitClient (server : Server) (sptr : Client) (split : Bool) : Server :=
  let server :=
    if sptr.isPerson = true ∧ (split = true ∨ sptr.identity.name ≠ []) then server.leave sptr.cptr else server
  { server with clients := server.clients.filter fun client => client.cptr ≠ sptr.cptr }

/-- A client that registers; `make_user` clears the lists. -/
def Server.register (server : Server) (client : Client) : Server :=
  { server with
    clients := client :: server.clients
    userChannel := update server.userChannel client.cptr []
    joined := update server.joined client.cptr 0
    invited := update server.invited client.cptr [] }

def Server.rename (server : Server) (cptr : ClientId) (name : Text) : Server :=
  { server with
    clients := server.clients.map fun client =>
      if client.cptr = cptr then { client with identity := { client.identity with name } } else client }

inductive Action where
  | register (client : Client)
  | nick (cptr : ClientId) (name : Text)
  | join (sptr : Client) (name : Text) (key : Option Text) (barred : Bool) (now : Int) (room : ChanId)
  | part (sptr : Client) (name : Text)
  | kick (sptr : Client) (name : Text) (may : Bool) (spared : ClientId → Bool) (targets : List ClientId)
  | invite (sptr acptr : Client) (name : Text) (chanop : Bool)
  | mode (name : Text) (gate : Gate) (minusI : Bool)
  | clientSjoin (sptr : Client) (name : Text) (room : ChanId)
  | serverSjoin (history : Text → Option ClientId) (link : ClientId) (name modes : Text) (args : List Text)
      (gate : Gate) (room : ChanId)
  | exit (sptr : Client) (split : Bool)

def Server.perform (config : Config) (server : Server) : Action → Server
  | .register client => server.register client
  | .nick cptr name => server.rename cptr name
  | .join sptr name key barred now room => server.mJoin config sptr name key barred now room
  | .part sptr name => server.mPart sptr name
  | .kick sptr name may spared targets => server.mKick sptr name may spared targets
  | .invite sptr acptr name chanop => server.mInvite config sptr acptr name chanop
  | .mode name gate minusI => server.mMode name gate minusI
  | .clientSjoin sptr name room => server.clientSjoin sptr name room
  | .serverSjoin history link name modes args gate room =>
    server.serverSjoin config.build history link name modes args gate room
  | .exit sptr split => server.exitClient sptr split

/-- Senders are there, allocators return what nobody holds, and a line has as many parameters as `m_sjoin`
asks for. -/
def Server.Possible (server : Server) : Action → Prop
  | .register client => client.cptr ∉ server.clients.map Client.cptr ∧ client.identity.name ≠ []
  | .nick _ name => name ≠ []
  | .join sptr _ _ _ _ room => sptr ∈ server.clients ∧ server.live room = false
  | .part sptr _ => sptr ∈ server.clients
  | .kick sptr _ _ _ _ => sptr ∈ server.clients
  | .invite sptr acptr _ _ => sptr ∈ server.clients ∧ acptr ∈ server.clients ∧ acptr.isPerson = true
  | .mode _ _ _ => True
  | .clientSjoin sptr _ room => sptr ∈ server.clients ∧ sptr.isPerson = true ∧ server.live room = false
  | .serverSjoin _ _ _ _ args _ room => args ≠ [] ∧ server.live room = false
  | .exit sptr _ => sptr ∈ server.clients

def machine (config : Config) : Machine Server Action := ⟨Server.perform config, Server.Possible⟩

/-- The line does not stop short of the member list, and when it names somebody behind the link it names a user. -/
def Server.Fills (server : Server) (build : Build) (history : Text → Option ClientId) (link : ClientId) (modes : Text)
    (args : List Text) : Prop :=
  ∃ mode list rest, Channel.readModes build modes .clear args = some (mode, list :: rest) ∧
    ((∃ word ∈ Scan.tokens ' ' list, (server.named history link word).isSome = true) →
      ∃ word ∈ Scan.tokens ' ' list, (server.named history link word).any Client.user = true)

/-- Only users have a `user`, and an SJOIN that makes a channel has room for its name and puts a member there. -/
def Server.Orderly (config : Config) (server : Server) : Action → Prop
  | .register client => client.user = true → client.status = .client
  | .serverSjoin history link name modes args _ _ =>
    server.findChannel name = none → name.length ≤ channelLen ∧ server.Fills config.build history link modes args
  | .clientSjoin _ name _ => server.findChannel name = none → name.length ≤ channelLen
  | _ => True

/-- No channel is empty, only persons have a `user`, and everybody has a name. -/
structure Server.Kept (most : Nat) (server : Server) : Prop where
  sound : server.Sound most fun _ => False
  users : ∀ client ∈ server.clients, client.user = true → client.isPerson = true
  named : ∀ client ∈ server.clients, client.identity.name ≠ []

section

variable {server : Server} {most : Nat} {bare : ChanId → Prop} {config : Config}

theorem Server.Sound.setGate (sound : server.Sound most bare) (gate : ChanId → Gate) :
    Server.Sound most bare { server with gate := gate } :=
  { sound with filed := ⟨sound.filed.listed, sound.filed.hashed⟩ }

/-- Nobody is kept out of a channel that has just been made. -/
theorem canJoin_clear (build : Build) (chptr : ChanId) (users : Int) (sptr : Client) (invited : List ChanId)
    (key : Option Text) (now : Int) : (Gate.clear.canJoin build chptr users sptr invited key now).1 = true := by
  have flags (flag : Channel.Flag) : Channel.Mode.clear.flags flag = false := rfl
  have limit : Channel.Mode.clear.limit = 0 := rfl
  have none : Channel.Mode.clear.key = [] := rfl
  have rate : (Channel.checkJoinrate .clear now now true ⟨0, 0, 0, 0⟩).1 = true := by
    simp only [Channel.checkJoinrate, flags, Bool.not_true, Bool.false_and, Bool.false_eq_true, if_false]
    split
    · rfl
    · simp [Channel.Mode.joinLimit, Channel.defaultJoinNum, flags]
  rcases rated : Channel.checkJoinrate .clear now now true ⟨0, 0, 0, 0⟩ with ⟨free, counts⟩
  obtain rfl : free = true := by rw [rated] at rate; exact rate
  unfold Gate.canJoin Channel.canJoin
  by_cases welcome : (Channel.Venue.mk chptr .clear users [] [] [] ⟨0, 0, 0, 0⟩).welcomes (sptr.joiner invited) = true
  · simp [Gate.clear, welcome]
  · simp [Gate.clear, welcome, rated, Channel.Venue.modeError, Channel.Venue.secureError, Channel.Venue.full,
      Channel.Mode.locked, Channel.Venue.isBanned, Channel.BanCache.isBanned, flags, limit, none]

theorem Server.Sound.filled_of_member (sound : server.Sound most bare) (on : server.isMember cptr chptr = true) :
    server.members chptr ≠ [] :=
  List.ne_nil_of_mem ((sound.members.both cptr chptr).mp (of_decide_eq_true on))

/-- `get_channel` returns a channel, which is empty only if it is new. -/
theorem Server.Sound.getChannel (sound : server.Sound most fun _ => False) (name : Text)
    (free : server.live room = false) :
    ((server.getChannel name room).Sound most fun other =>
        other = server.channelOf name room ∧ server.findChannel name = none) ∧
      (server.getChannel name room).live (server.channelOf name room) = true ∧
      (server.getChannel name room).clients = server.clients := by
  unfold Server.getChannel Server.channelOf
  cases found : server.findChannel name with
  | none =>
    refine ⟨?_, ?_, rfl⟩
    · refine (sound.createChannel free name).mono fun other _ open' _ => ?_
      exact ⟨open'.resolve_left id, rfl⟩
    · exact Function.update_self ..
  | some chptr => exact ⟨sound.mono fun _ _ open' => open'.elim, sound.live_of_found found, rfl⟩

theorem gate_getChannel (missing : server.findChannel name = none) :
    (server.getChannel name room).gate (server.channelOf name room) = .clear := by
  simp [Server.getChannel, Server.channelOf, missing, Server.createChannel, Server.addToChannelHashTable]

/-- A user who comes to a channel leaves no channel empty. -/
theorem Server.Sound.joinChannel {new : Prop} (sound : server.Sound most fun other => other = chptr ∧ new)
    (known : sptr ∈ server.clients) (person : sptr.isPerson = true) (live : server.live chptr = true)
    (clear : new → server.gate chptr = .clear) (build : Build) (key : Option Text) (now : Int) :
    (server.joinChannel build sptr chptr key now).Sound most fun _ => False := by
  unfold Server.joinChannel
  split
  next on =>
    refine sound.mono fun other _ ⟨same, _⟩ empty => ?_
    exact sound.filled_of_member on (same ▸ empty)
  next off =>
    split
    next allowed gate verdict =>
    simp only []
    split
    next refused =>
      refine (sound.setGate _).mono fun other _ ⟨_, isNew⟩ _ => ?_
      rw [clear isNew] at verdict
      split at verdict
      · have admitted := canJoin_clear build chptr (server.users chptr) sptr (server.invited sptr.cptr) key now
        rw [verdict] at admitted
        exact absurd admitted (by simpa using refused)
      · obtain ⟨admitted, -⟩ := Prod.mk.inj verdict
        exact absurd admitted.symm (by simpa using refused)
    next =>
      have joined := (sound.setGate (update server.gate chptr gate)).addUserToChannel known person live
        (Bool.not_eq_true _ ▸ off)
      have closed : Server.Sound most (fun _ => False) _ :=
        joined.mono fun other _ ⟨⟨same, _⟩, differ⟩ _ => differ same
      split
      · exact (closed.setGate _).delInvite sptr.cptr chptr
      · exact closed.setGate _

theorem Server.Sound.leave (sound : server.Sound most bare) (sptr : ClientId) :
    (server.leave sptr).Sound most bare ∧ (server.leave sptr).clients = server.clients ∧
      (server.leave sptr).userChannel sptr = [] ∧ (server.leave sptr).invited sptr = [] := by
  obtain ⟨parted, clients, channels⟩ := sound.channelsParted sptr _ (Nat.le_refl _)
  obtain ⟨dropped, none⟩ := parted.invitedDropped sptr _ (Nat.le_refl _)
  have same := dropInvited_same sptr
    ((partChannels sptr (server.userChannel sptr).length server).invited sptr).length
    (partChannels sptr (server.userChannel sptr).length server)
  refine ⟨dropped, same.clients.trans clients, ?_, none⟩
  rw [Server.leave, same.userChannel, channels, Function.update_self]

theorem findChasing_mem (found : server.findChasing history user = some who) : who ∈ server.clients := by
  unfold Server.findChasing at found
  split at found
  next other first =>
    obtain rfl := Option.some.inj found
    exact List.mem_of_find?_eq_some first
  next =>
    obtain ⟨cptr, _, first⟩ := Option.bind_eq_some_iff.mp found
    exact List.mem_of_find?_eq_some first

theorem named_congr {other : Server} (same : other.clients = server.clients)
    (history : Text → Option ClientId) (link : ClientId) :
    other.named history link = server.named history link := by
  funext word
  simp only [Server.named, Server.findChasing, same]

theorem named_mem (found : server.named history link word = some who) : who ∈ server.clients :=
  findChasing_mem (Option.mem_filter_iff.mp found).1

/-- A word of the member list puts on the channel the user it names. -/
theorem Server.Sound.joinMember (sound : server.Sound most bare) (live : server.live chptr = true)
    (users : ∀ client ∈ server.clients, client.user = true → client.isPerson = true)
    (history : Text → Option ClientId) (link : ClientId) (word : Text) :
    (Server.joinMember history link chptr server word).Sound most bare ∧
      (Server.joinMember history link chptr server word).clients = server.clients ∧
      (Server.joinMember history link chptr server word).live = server.live ∧
      (server.members chptr ≠ [] ∨ (server.named history link word).any Client.user = true →
        (Server.joinMember history link chptr server word).members chptr ≠ []) := by
  unfold Server.joinMember
  split
  next none =>
    rw [none]
    exact ⟨sound, rfl, rfl, fun some => some.resolve_right (by simp)⟩
  next acptr found =>
    split
    next on => exact ⟨sound, rfl, rfl, fun _ => sound.filled_of_member on⟩
    next off =>
      by_cases user : acptr.user = true
      · have known := named_mem found
        have joined := sound.addUserToChannel known (users acptr known user) live (Bool.not_eq_true _ ▸ off)
        refine ⟨joined.mono fun _ _ open' _ => open'.1, ?_⟩
        simp [Server.addUserToChannel, user]
      · simp [Server.addUserToChannel, user, sound, found]

theorem Server.Sound.joinMembers (sound : server.Sound most bare) (live : server.live chptr = true)
    (users : ∀ client ∈ server.clients, client.user = true → client.isPerson = true)
    (history : Text → Option ClientId) (link : ClientId) (words : List Text) :
    (words.foldl (Server.joinMember history link chptr) server).Sound most bare ∧
      (words.foldl (Server.joinMember history link chptr) server).clients = server.clients ∧
      (words.foldl (Server.joinMember history link chptr) server).live = server.live ∧
      (server.members chptr ≠ [] ∨ (∃ word ∈ words, (server.named history link word).any Client.user = true) →
        (words.foldl (Server.joinMember history link chptr) server).members chptr ≠ []) := by
  induction words generalizing server with
  | nil => exact ⟨sound, rfl, rfl, fun some => some.resolve_right (by simp)⟩
  | cons word words ih =>
    obtain ⟨sound, clients, same, some⟩ := sound.joinMember live users history link word
    obtain ⟨sound, clients', same', some'⟩ := ih sound (same ▸ live) (clients ▸ users)
    refine ⟨sound, clients'.trans clients, same'.trans same, fun either => some' ?_⟩
    rcases either with before | ⟨other, member, user⟩
    · exact .inl (some (.inl before))
    · rcases List.mem_cons.mp member with rfl | member
      · exact .inl (some (.inr user))
      · exact .inr ⟨other, member, by rw [named_congr clients]; exact user⟩

theorem Server.Kept.serverSjoin (kept : server.Kept most) (free : server.live room = false) (build : Build)
    (fills : server.findChannel name = none → server.Fills build history link modes args) (gate : Gate) :
    (server.serverSjoin build history link name modes args gate room).Kept most := by
  have same (after : Server) (sound : after.Sound most fun _ => False) (clients : after.clients = server.clients) :
      after.Kept most := ⟨sound, clients ▸ kept.users, clients ▸ kept.named⟩
  obtain ⟨sound, live, clients⟩ := kept.sound.getChannel name free
  unfold Server.serverSjoin
  split
  · exact kept
  simp only []
  split
  next short =>
    refine same _ (sound.mono fun other _ ⟨_, missing⟩ _ => ?_) clients
    obtain ⟨mode, list, rest, read, _⟩ := fills missing
    rw [short] at read
    contradiction
  next short =>
    refine same _ (sound.mono fun other _ ⟨_, missing⟩ _ => ?_) clients
    obtain ⟨mode, list, rest, read, _⟩ := fills missing
    rw [short] at read
    simp at read
  next mode list rest read =>
    have gated := sound.setGate (update (server.getChannel name room).gate (server.channelOf name room) gate)
    have users : ∀ client ∈ (server.getChannel name room).clients, client.user = true → client.isPerson = true :=
      clients ▸ kept.users
    obtain ⟨joined, clients', live', filled⟩ := gated.joinMembers live users history link (Scan.tokens ' ' list)
    have alive := (congrFun live' (server.channelOf name room)).trans live
    have counted := joined.users _ alive
    split
    next nobody =>
      have zero := of_decide_eq_true (Bool.and_eq_true_iff.mp nobody).2
      have empty := List.length_eq_zero_iff.mp (Int.ofNat_eq_zero.mp (counted.symm.trans zero))
      obtain ⟨freed, clients''⟩ := joined.sub1FromChannel alive empty
      refine same _ (freed.mono fun _ _ ⟨⟨same, _⟩, differ⟩ _ => differ same) ?_
      exact clients''.trans (clients'.trans clients)
    next some =>
      have lookup : Server.named
          { server.getChannel name room with
            gate := update (server.getChannel name room).gate (server.channelOf name room) gate } history link =
          server.named history link := named_congr clients history link
      refine same _ (joined.mono fun other _ ⟨same, missing⟩ empty => some ?_) (clients'.trans clients)
      subst same
      rw [empty] at counted
      obtain ⟨mode', list', rest', read', named⟩ := fills missing
      rw [read, Option.some.injEq, Prod.mk.injEq, List.cons.injEq] at read'
      obtain ⟨_, rfl, _⟩ := read'
      rw [Bool.and_eq_true_iff, Bool.and_eq_true_iff, decide_eq_true_iff, missing, lookup]
      refine ⟨⟨rfl, ?_⟩, counted⟩
      rw [Bool.not_eq_true', List.any_eq_false]
      intro word member found
      obtain ⟨word', member', user⟩ := named ⟨word, member, found⟩
      exact filled (.inr ⟨word', member', by rw [lookup]; exact user⟩) empty

/-- A client that is not there yet has no lists, and `make_user` finds nothing to clear. -/
theorem Server.Kept.register (kept : server.Kept most) (fresh : client.cptr ∉ server.clients.map Client.cptr)
    (named : client.identity.name ≠ []) (users : client.user = true → client.status = .client) :
    (server.register client).Kept most := by
  have none : server.userChannel client.cptr = [] ∧ server.invited client.cptr = [] := by
    by_contra some
    obtain ⟨other, member, same, _⟩ := kept.sound.own client.cptr (not_and_or.mp some)
    exact fresh (same ▸ List.mem_map_of_mem member)
  have channels : update server.userChannel client.cptr [] = server.userChannel := by
    rw [← none.1, Function.update_eq_self]
  have invited : update server.invited client.cptr [] = server.invited := by
    rw [← none.2, Function.update_eq_self]
  have joined : update server.joined client.cptr 0 = server.joined := by
    have zero := kept.sound.joined client.cptr
    rw [none.1] at zero
    exact (congrArg _ zero.symm).trans (Function.update_eq_self ..)
  rw [Server.register, channels, invited, joined]
  refine ⟨{ kept.sound with
    alone := List.nodup_cons.mpr ⟨fresh, kept.sound.alone⟩
    filed := ⟨kept.sound.filed.listed, kept.sound.filed.hashed⟩
    own := ?_ }, ?_, ?_⟩
  · intro cptr some
    obtain ⟨other, member, right⟩ := kept.sound.own cptr some
    exact ⟨other, List.mem_cons_of_mem _ member, right⟩
  · intro other member user
    rcases List.mem_cons.mp member with rfl | member
    · simp [Client.isPerson, user, users user]
    · exact kept.users other member user
  · intro other member
    rcases List.mem_cons.mp member with rfl | member
    · exact named
    · exact kept.named other member

theorem Server.Kept.rename (kept : server.Kept most) (cptr : ClientId) (named : name ≠ []) :
    (server.rename cptr name).Kept most := by
  have ids : (server.rename cptr name).clients.map Client.cptr = server.clients.map Client.cptr := by
    rw [Server.rename, List.map_map]
    apply List.map_congr_left
    intro client _
    simp only [Function.comp_apply]
    split
    · rfl
    · rfl
  refine ⟨{ kept.sound with
    alone := ids ▸ kept.sound.alone
    filed := ⟨kept.sound.filed.listed, kept.sound.filed.hashed⟩
    own := ?_ }, ?_, ?_⟩
  · intro other some
    obtain ⟨client, member, same, person⟩ := kept.sound.own other some
    refine ⟨_, List.mem_map_of_mem member, ?_⟩
    split
    · exact ⟨same, person⟩
    · exact ⟨same, person⟩
  · intro client member user
    obtain ⟨old, known, rfl⟩ := List.mem_map.mp member
    by_cases same : old.cptr = cptr
    · rw [if_pos same] at user ⊢
      exact kept.users old known user
    · rw [if_neg same] at user ⊢
      exact kept.users old known user
  · intro client member
    obtain ⟨old, known, rfl⟩ := List.mem_map.mp member
    split
    · exact named
    · exact kept.named old known

/-- A client that exits takes itself off every list. -/
theorem Server.Kept.exitClient (kept : server.Kept most) (there : sptr ∈ server.clients) (split : Bool) :
    (server.exitClient sptr split).Kept most := by
  have named := kept.named sptr there
  obtain ⟨after, left, sound, clients, free⟩ : ∃ after : Server,
      (if sptr.isPerson = true ∧ (split = true ∨ sptr.identity.name ≠ []) then server.leave sptr.cptr else server) =
        after ∧ after.Sound most (fun _ => False) ∧ after.clients = server.clients ∧
        after.userChannel sptr.cptr = [] ∧ after.invited sptr.cptr = [] := by
    by_cases person : sptr.isPerson = true
    · rw [if_pos ⟨person, .inr named⟩]
      exact ⟨_, rfl, kept.sound.leave sptr.cptr⟩
    · rw [if_neg fun both => person both.1]
      refine ⟨_, rfl, kept.sound, rfl, ?_⟩
      by_contra some
      obtain ⟨other, member, same, right⟩ := kept.sound.own sptr.cptr (not_and_or.mp some)
      have self := List.inj_on_of_nodup_map kept.sound.alone member there same
      exact person (self ▸ right)
  simp only [Server.exitClient, left]
  refine ⟨{ sound with
    alone := ?_
    filed := ⟨sound.filed.listed, sound.filed.hashed⟩
    own := ?_ }, ?_, ?_⟩
  · exact sound.alone.sublist (List.filter_sublist.map _)
  · intro cptr some
    obtain ⟨other, member, same, right⟩ := sound.own cptr some
    refine ⟨other, List.mem_filter.mpr ⟨member, decide_eq_true fun self => ?_⟩, same, right⟩
    rw [← same, self] at some
    exact some.elim (· free.1) (· free.2)
  · exact fun client member => kept.users client (clients ▸ (List.mem_filter.mp member).1)
  · exact fun client member => kept.named client (clients ▸ (List.mem_filter.mp member).1)

/-- A KICK takes off the channel the members it names. -/
theorem Server.Sound.kickMembers (sound : server.Sound most bare) (chptr : ChanId) (spared : ClientId → Bool)
    (targets : List ClientId) :
    (targets.foldl (fun server who =>
      if server.isMember who chptr && !spared who then server.removeUserFromChannel who chptr else server) server).Sound
        most bare ∧
      (targets.foldl (fun server who =>
        if server.isMember who chptr && !spared who then server.removeUserFromChannel who chptr
        else server) server).clients = server.clients := by
  induction targets generalizing server with
  | nil => exact ⟨sound, rfl⟩
  | cons who targets ih =>
    rw [List.foldl_cons]
    split
    next on =>
      have member := of_decide_eq_true (Bool.and_eq_true_iff.mp on).1
      obtain ⟨sound, clients⟩ := ih (sound.removeUserFromChannel member)
      exact ⟨sound, clients.trans (removeUser_lists ..).1⟩
    next => exact ih sound

theorem addUser_clients (server : Server) (chptr : ChanId) (who : Client) :
    (server.addUserToChannel chptr who).clients = server.clients := by
  unfold Server.addUserToChannel
  split
  · rfl
  · rfl

theorem joinChannel_clients (server : Server) (build : Build) (sptr : Client) (chptr : ChanId) (key : Option Text)
    (now : Int) : (server.joinChannel build sptr chptr key now).clients = server.clients := by
  unfold Server.joinChannel
  split
  · rfl
  split
  simp only []
  split
  · rfl
  split
  · exact addUser_clients ..
  · exact addUser_clients ..

/-- Every action keeps the channels filled and the lists true to each other. -/
theorem Server.Kept.perform (positive : 0 < config.maxchannelsperuser) (kept : server.Kept config.maxchannelsperuser)
    (possible : server.Possible action) (orderly : server.Orderly config action) :
    (server.perform config action).Kept config.maxchannelsperuser := by
  have same (after : Server) (sound : after.Sound config.maxchannelsperuser fun _ => False)
      (clients : after.clients = server.clients) : after.Kept config.maxchannelsperuser :=
    ⟨sound, clients ▸ kept.users, clients ▸ kept.named⟩
  cases action with
  | register client => exact kept.register possible.1 possible.2 orderly
  | nick cptr name => exact kept.rename cptr possible
  | join sptr name key barred now room =>
    obtain ⟨there, free⟩ := possible
    simp only [Server.perform, Server.mJoin]
    split
    · exact kept
    next user =>
      have person := kept.users sptr there (by simpa using user)
      split
      · exact kept
      split
      · obtain ⟨sound, clients, _⟩ := kept.sound.channelsParted sptr.cptr _ (Nat.le_refl _)
        exact same _ sound clients
      split
      · exact kept
      split
      · exact kept
      split
      · exact kept
      · obtain ⟨sound, live, clients⟩ := kept.sound.getChannel (name.take channelLen) free
        have joined := sound.joinChannel (clients ▸ there) person live gate_getChannel config.build key now
        exact same _ joined ((joinChannel_clients ..).trans clients)
  | part sptr name =>
    simp only [Server.perform, Server.mPart]
    split
    · exact kept
    split
    next on => exact same _ (kept.sound.removeUserFromChannel (of_decide_eq_true on)) (removeUser_lists ..).1
    next => exact kept
  | kick sptr name may spared targets =>
    simp only [Server.perform, Server.mKick]
    split
    · exact kept
    split
    · exact kept
    · obtain ⟨sound, clients⟩ := kept.sound.kickMembers _ spared targets
      exact same _ sound clients
  | invite sptr acptr name chanop =>
    obtain ⟨_, there, person⟩ := possible
    simp only [Server.perform, Server.mInvite]
    split
    · exact kept
    next chptr found =>
      split
      · exact kept
      split
      · exact kept
      split
      · have live := kept.sound.live_of_found found
        refine same _ (kept.sound.addInvite positive ⟨acptr, there, rfl, person⟩ live) ?_
        exact (kept.sound.delInvite acptr.cptr chptr |>.forgetInvite positive acptr.cptr).2.1.clients
      · exact kept
  | mode name gate minusI =>
    simp only [Server.perform, Server.mMode]
    split
    · exact kept
    next chptr found =>
      have gated := kept.sound.setGate (update server.gate chptr gate)
      split
      · exact same _ (gated.invitesCleared chptr _ (Nat.le_refl _)).1 (clearInvites_same ..).clients
      · exact same _ gated rfl
  | clientSjoin sptr name room =>
    obtain ⟨there, person, free⟩ := possible
    obtain ⟨sound, live, clients⟩ := kept.sound.getChannel name free
    simp only [Server.perform, Server.clientSjoin]
    split
    · exact kept
    split
    next on =>
      refine same _ (sound.mono fun other _ ⟨same, _⟩ empty => ?_) clients
      exact sound.filled_of_member on (same ▸ empty)
    next off =>
      have joined := sound.addUserToChannel (clients ▸ there) person live (Bool.not_eq_true _ ▸ off)
      refine same _ ?_ ((addUser_clients ..).trans clients)
      exact (joined.mono fun _ _ ⟨⟨same, _⟩, differ⟩ _ => differ same).setGate _
  | serverSjoin history link name modes args gate room =>
    exact kept.serverSjoin possible.2 config.build (fun missing => (orderly missing).2) gate
  | exit sptr split => exact kept.exitClient possible split

end

/-- What should hold of the links between clients and channels. -/
structure Server.Consistent (most : Nat) (server : Server) : Prop where
  members : ∀ cptr chptr, (server.members chptr).count cptr = (server.userChannel cptr).count chptr ∧
    (server.members chptr).count cptr ≤ 1
  users : ∀ chptr, server.live chptr = true → server.users chptr = (server.members chptr).length ∧ 1 ≤ server.users chptr
  joined : ∀ cptr, server.joined cptr = (server.userChannel cptr).length
  invites : ∀ cptr chptr, (server.invites chptr).count cptr = (server.invited cptr).count chptr ∧
    (server.invites chptr).count cptr ≤ 1
  few : ∀ cptr, (server.invited cptr).length ≤ most
  alive : ∀ cptr chptr, chptr ∈ server.userChannel cptr ∨ chptr ∈ server.invited cptr → server.live chptr = true
  listed : ∃ all, server.channel.Shows (fun _ => all) ∧ all.Nodup ∧ (∀ chptr, chptr ∈ all ↔ server.live chptr = true) ∧
    server.chan = all.length
  hashed : ∀ hashv chptr, (server.channelTable hashv).count chptr =
    if server.live chptr = true ∧ hashChannelName (server.chname chptr) = hashv then 1 else 0

theorem Server.Sound.consistent {server : Server} {most : Nat} (sound : server.Sound most fun _ => False) :
    server.Consistent most where
  members := fun cptr chptr => sound.members.symm.count chptr cptr
  users := by
    intro chptr live
    have count := sound.users chptr live
    have positive := List.length_pos_of_ne_nil (sound.filled chptr live id)
    exact ⟨count, by omega⟩
  joined := sound.joined
  invites := fun cptr chptr => sound.invites.symm.count chptr cptr
  few := sound.few
  alive := by
    intro cptr chptr either
    rcases either with on | invited
    · exact sound.live_of_channel on
    · by_contra dead
      have none := (sound.vacant chptr (by simpa using dead)).2
      have member := (sound.invites.both cptr chptr).mp invited
      rw [none] at member
      exact List.not_mem_nil member
  listed := by
    obtain ⟨all, shown, iff, counted⟩ := sound.filed.listed
    exact ⟨all, shown, shown.once (), iff, counted⟩
  hashed := by
    intro hashv chptr
    obtain ⟨once, iff⟩ := sound.filed.hashed hashv
    rw [once.count]
    simp only [iff chptr]

/-- In runs without a server that is a user too, and without an SJOIN that makes a channel and leaves it
empty, the links between clients and channels are consistent. -/
theorem roster_consistent (config : Config) (positive : 0 < config.maxchannelsperuser)
    (run : (machine config).Run (Server.Orderly config) .start server) :
    server.Consistent config.maxchannelsperuser := by
  have kept : server.Kept config.maxchannelsperuser := by
    apply run.invariant (Server.Kept config.maxchannelsperuser)
    · exact fun _ _ possible orderly kept => kept.perform positive possible orderly
    · exact ⟨Server.sound_start, fun _ member => (nomatch member), fun _ member => (nomatch member)⟩
  exact kept.sound.consistent

/-- A client with nothing but a name. -/
def plainClient (cptr link : ClientId) (status : Status) (name : Text) : Client where
  cptr := cptr
  status := status
  user := status = .client
  link := link
  identity := ⟨status = .client, name, "u".toList, "h".toList, "i".toList, "r".toList, "m".toList⟩
  uline := false
  oper := false
  anOper := false
  regNick := false
  umodez := false
  ursl := false

def plainConfig : Config := ⟨⟨false, false, false⟩, 20⟩

/-- A server links, and `ann` is on it. -/
def arrival : List Action :=
  [.register (plainClient 1 1 .server "hub".toList), .register (plainClient 2 1 .client "ann".toList)]

/-- An SJOIN of the linked server for `#a`. -/
def sjoinA (modes : Text) (args : List Text) : Action :=
  .serverSjoin (fun _ => none) 1 "#a".toList modes args .clear 7

theorem sjoined_consistent : ∃ server : Server, server.Consistent 20 ∧ server.members 7 = [2] ∧ server.chan = 1 := by
  let lines := arrival ++ [sjoinA "+".toList ["@ann".toList]]
  have run : (machine plainConfig).Run (Server.Orderly plainConfig) .start
      (lines.foldl (machine plainConfig).perform .start) := by
    apply Machine.Run.of_list lines (.refl _)
    refine ⟨⟨by decide, by decide⟩, fun user => absurd user (by decide), ⟨by decide, by decide⟩, fun _ => rfl,
      ⟨by decide, rfl⟩, ?_, trivial⟩
    refine fun _ => ⟨by decide, .clear, "@ann".toList, [], rfl, fun _ => ⟨"@ann".toList, by decide, by decide⟩⟩
  exact ⟨_, roster_consistent plainConfig (by decide) run, by decide, by decide⟩

/-- An SJOIN with `+k` that ends with the key leaves a channel without a member. -/
theorem emptySjoin_inconsistent :
    ¬ ∀ config : Config, 0 < config.maxchannelsperuser → ∀ server, (machine config).Run Machine.Any .start server →
      server.Consistent config.maxchannelsperuser := by
  intro claim
  let lines := arrival ++ [sjoinA "+k".toList ["key".toList]]
  have run : (machine plainConfig).Run Machine.Any .start (lines.foldl (machine plainConfig).perform .start) := by
    apply Machine.Run.of_list lines (.refl _)
    exact ⟨⟨by decide, by decide⟩, trivial, ⟨by decide, by decide⟩, trivial, ⟨by decide, rfl⟩, trivial, trivial⟩
  have users := ((claim plainConfig (by decide) _ run).users 7 (by decide)).2
  exact absurd users (by decide)

end SolidIrcd.Registry
