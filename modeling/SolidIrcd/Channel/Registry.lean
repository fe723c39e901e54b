import SolidIrcd.Channel.CanJoin
import SolidIrcd.Hash
import SolidIrcd.Lib.Chain
import SolidIrcd.Lib.Mirror

/-! The links between clients and channels: who is on a channel, who is invited, and the list
and the hash table in which every channel stands. -/

namespace SolidIrcd.Registry

open Scan (Text)
open Function (update)
open Mirror (Mirrored)

abbrev ClientId := Nat

abbrev ChanId := Nat

/-- `user` says that `make_user` has been called; `link` is the pointer `from`. -/
structure Client where
  cptr : ClientId
  status : Status
  user : Bool
  link : ClientId
  identity : Channel.BanCache.Identity
  uline : Bool
  oper : Bool
  anOper : Bool
  regNick : Bool
  umodez : Bool
  ursl : Bool
  deriving DecidableEq, Repr

/-- `IsPerson`. -/
def Client.isPerson (client : Client) : Bool := client.user && client.status = .client

/-- `MyConnect`: a client of this server is its own link. -/
def Client.myConnect (client : Client) : Bool := client.link = client.cptr

/-- `MyClient`. -/
def Client.myClient (client : Client) : Bool := client.myConnect && client.status = .client

/-- What `can_join` looks at of a channel. -/
structure Gate where
  mode : Channel.Mode
  banlist : List Text
  banexemptList : List Text
  inviteList : List Text
  counts : Channel.JoinCounts

/-- What `memset` leaves. -/
def Gate.clear : Gate := ⟨.clear, [], [], [], ⟨0, 0, 0, 0⟩⟩

/-- `userChannel`, `joined` and `invited` are in `anUser`; `channel` is the list of all channels and `chan` is
`Count.chan`. -/
structure Server where
  clients : List Client
  userChannel : ClientId → List ChanId
  joined : ClientId → Int
  invited : ClientId → List ChanId
  live : ChanId → Bool
  chname : ChanId → Text
  users : ChanId → Int
  members : ChanId → List ClientId
  invites : ChanId → List ClientId
  gate : ChanId → Gate
  channel : Chain Unit ChanId
  channelTable : Nat → List ChanId
  chan : Int

def Server.start : Server where
  clients := []
  userChannel := fun _ => []
  joined := fun _ => 0
  invited := fun _ => []
  live := fun _ => false
  chname := fun _ => []
  users := fun _ => 0
  members := fun _ => []
  invites := fun _ => []
  gate := fun _ => .clear
  channel := .empty
  channelTable := fun _ => []
  chan := 0

/-- `IsMember`. -/
def Server.isMember (server : Server) (cptr : ClientId) (chptr : ChanId) : Bool :=
  decide (chptr ∈ server.userChannel cptr)

/-- `hash_find_channel`. -/
def Server.findChannel (server : Server) (name : Text) : Option ChanId :=
  (server.channelTable (hashChannelName name)).find? fun chptr => mycmp name (server.chname chptr)

/-- `add_to_channel_hash_table`. -/
def Server.addToChannelHashTable (server : Server) (name : Text) (chptr : ChanId) : Server :=
  { server with
    channelTable :=
      update server.channelTable (hashChannelName name) (chptr :: server.channelTable (hashChannelName name)) }

/-- `del_from_channel_hash_table`. -/
def Server.delFromChannelHashTable (server : Server) (name : Text) (chptr : ChanId) : Server :=
  { server with
    channelTable :=
      update server.channelTable (hashChannelName name) ((server.channelTable (hashChannelName name)).erase chptr) }

/-- The part of `get_channel` that makes a channel, in the block that `make_channel` returns. -/
def Server.createChannel (server : Server) (chname : Text) (room : ChanId) : Server :=
  Server.addToChannelHashTable
    { server with
      live := update server.live room true
      chname := update server.chname room chname
      users := update server.users room 0
      members := update server.members room []
      invites := update server.invites room []
      gate := update server.gate room .clear
      channel := server.channel.push () room
      chan := server.chan + 1 } chname room

/-- `add_user_to_channel`. -/
def Server.addUserToChannel (server : Server) (chptr : ChanId) (who : Client) : Server :=
  if who.user then
    { server with
      members := update server.members chptr (who.cptr :: server.members chptr)
      users := update server.users chptr (server.users chptr + 1)
      userChannel := update server.userChannel who.cptr (chptr :: server.userChannel who.cptr)
      joined := update server.joined who.cptr (server.joined who.cptr + 1) }
  else server

/-- `del_invite`. -/
def Server.delInvite (server : Server) (cptr : ClientId) (chptr : ChanId) : Server :=
  { server with
    invites := update server.invites chptr ((server.invites chptr).erase cptr)
    invited := update server.invited cptr ((server.invited cptr).erase chptr) }

/-- The invite that `add_invite` deletes when the list of the client is full. -/
def Server.forgetInvite (server : Server) (maxchannelsperuser : Nat) (cptr : ClientId) : Server :=
  if (server.invited cptr).length ≥ maxchannelsperuser then
    match server.invited cptr with
    | [] => server
    | first :: _ => server.delInvite cptr first
  else server

/-- `add_invite`. -/
def Server.addInvite (server : Server) (maxchannelsperuser : Nat) (cptr : ClientId) (chptr : ChanId) : Server :=
  let server := (server.delInvite cptr chptr).forgetInvite maxchannelsperuser cptr
  { server with
    invites := update server.invites chptr (cptr :: server.invites chptr)
    invited := update server.invited cptr (server.invited cptr ++ [chptr]) }

/-- Deletes the first invite of a channel while there is one. -/
def clearInvites (chptr : ChanId) : (fuel : Nat) → Server → Server
  | 0, server => server
  | fuel + 1, server =>
    match server.invites chptr with
    | [] => server
    | tmp :: _ => clearInvites chptr fuel (server.delInvite tmp chptr)

/-- What `sub1_from_channel` does with an empty channel. -/
def Server.freeChannel (server : Server) (chptr : ChanId) : Server :=
  let server := clearInvites chptr (server.invites chptr).length server
  let server := { server with channel := server.channel.unlink () chptr }
  let server := server.delFromChannelHashTable (server.chname chptr) chptr
  { server with live := update server.live chptr false, chan := server.chan - 1 }

/-- `sub1_from_channel`. -/
def Server.sub1FromChannel (server : Server) (chptr : ChanId) : Server :=
  let server := { server with users := update server.users chptr (server.users chptr - 1) }
  if server.users chptr ≤ 0 then server.freeChannel chptr else server

/-- `remove_user_from_channel`. -/
def Server.removeUserFromChannel (server : Server) (sptr : ClientId) (chptr : ChanId) : Server :=
  Server.sub1FromChannel
    { server with
      members := update server.members chptr ((server.members chptr).erase sptr)
      userChannel := update server.userChannel sptr ((server.userChannel sptr).erase chptr)
      joined := update server.joined sptr (server.joined sptr - 1) } chptr

/-- Takes a client off the first of its channels while there is one. -/
def partChannels (sptr : ClientId) : (fuel : Nat) → Server → Server
  | 0, server => server
  | fuel + 1, server =>
    match server.userChannel sptr with
    | [] => server
    | chptr :: _ => partChannels sptr fuel (server.removeUserFromChannel sptr chptr)

/-- Deletes the first invite of a client while there is one. -/
def dropInvited (sptr : ClientId) : (fuel : Nat) → Server → Server
  | 0, server => server
  | fuel + 1, server =>
    match server.invited sptr with
    | [] => server
    | chptr :: _ => dropInvited sptr fuel (server.delInvite sptr chptr)

/-- A user of the network. -/
def Server.Person (server : Server) (cptr : ClientId) : Prop :=
  ∃ client ∈ server.clients, client.cptr = cptr ∧ client.isPerson = true

/-- Every channel is once in the list of channels and once in its bucket, and they are counted. -/
structure Server.Filed (server : Server) : Prop where
  listed : ∃ all, server.channel.Shows (fun _ => all) ∧ (∀ chptr, chptr ∈ all ↔ server.live chptr = true) ∧
    server.chan = all.length
  hashed : ∀ hashv, (server.channelTable hashv).Nodup ∧ ∀ chptr, chptr ∈ server.channelTable hashv ↔
    server.live chptr = true ∧ hashChannelName (server.chname chptr) = hashv

/-- Members and channels name each other, and so do the invited and the channels they are invited to; `bare`
are the channels that may be without a member. -/
structure Server.Sound (most : Nat) (bare : ChanId → Prop) (server : Server) : Prop where
  alone : (server.clients.map Client.cptr).Nodup
  filed : server.Filed
  members : Mirrored server.userChannel server.members
  invites : Mirrored server.invited server.invites
  joined : ∀ cptr, server.joined cptr = (server.userChannel cptr).length
  users : ∀ chptr, server.live chptr = true → server.users chptr = (server.members chptr).length
  filled : ∀ chptr, server.live chptr = true → ¬ bare chptr → server.members chptr ≠ []
  vacant : ∀ chptr, server.live chptr = false → server.members chptr = [] ∧ server.invites chptr = []
  own : ∀ cptr, server.userChannel cptr ≠ [] ∨ server.invited cptr ≠ [] → server.Person cptr
  few : ∀ cptr, (server.invited cptr).length ≤ most

section

variable {server : Server} {most : Nat} {bare : ChanId → Prop}

theorem Server.filed_start : Server.start.Filed :=
  ⟨⟨[], Chain.Shows.empty, by simp [Server.start], rfl⟩, fun _ => ⟨List.nodup_nil, by simp [Server.start]⟩⟩

theorem Server.sound_start : Server.start.Sound most bare where
  alone := List.nodup_nil
  filed := filed_start
  members := .empty
  invites := .empty
  joined := fun _ => rfl
  users := fun _ live => nomatch live
  filled := fun _ live => nomatch live
  vacant := fun _ _ => ⟨rfl, rfl⟩
  own := fun _ some => (some.elim (· rfl) (· rfl)).elim
  few := fun _ => Nat.zero_le most

theorem Server.Sound.mono (sound : server.Sound most bare) {wider : ChanId → Prop}
    (included : ∀ chptr, server.live chptr = true → bare chptr → server.members chptr = [] → wider chptr) :
    server.Sound most wider :=
  { sound with
    filled := fun chptr live closed empty =>
      sound.filled chptr live (fun open' => closed (included chptr live open' empty)) empty }

theorem Server.Sound.live_of_channel (sound : server.Sound most bare) (on : chptr ∈ server.userChannel cptr) :
    server.live chptr = true := by
  by_contra dead
  have none := (sound.vacant chptr (by simpa using dead)).1
  have member := (sound.members.both cptr chptr).mp on
  rw [none] at member
  exact List.not_mem_nil member

theorem Server.Sound.live_of_found (sound : server.Sound most bare) (found : server.findChannel name = some chptr) :
    server.live chptr = true :=
  (((sound.filed.hashed _).2 chptr).mp (List.mem_of_find?_eq_some found)).1

theorem Server.Sound.delInvite (sound : server.Sound most bare) (cptr : ClientId) (chptr : ChanId) :
    (server.delInvite cptr chptr).Sound most bare :=
  { sound with
    filed := ⟨sound.filed.listed, sound.filed.hashed⟩
    invites :=
      sound.invites.unlink (Function.update_self ..) (fun _ differ => Function.update_of_ne differ ..)
        (Function.update_self ..) (fun _ differ => Function.update_of_ne differ ..)
    vacant := by
      intro other dead
      obtain ⟨none, none'⟩ := sound.vacant other dead
      refine ⟨none, ?_⟩
      by_cases same : other = chptr
      · subst same
        simp [Server.delInvite, none']
      · simp [Server.delInvite, same, none']
    own := by
      intro other some
      apply sound.own other
      refine some.imp_right fun left none => left ?_
      by_cases same : other = cptr
      · subst same
        simp [Server.delInvite, none]
      · simp [Server.delInvite, same, none]
    few := by
      intro other
      by_cases same : other = cptr
      · subst same
        simp only [Server.delInvite, Function.update_self]
        exact Nat.le_trans List.length_erase_le (sound.few other)
      · simp only [Server.delInvite, Function.update_of_ne same]
        exact sound.few other }

/-- Nothing but invites is different. -/
structure SameButInvites (before after : Server) : Prop where
  clients : after.clients = before.clients
  userChannel : after.userChannel = before.userChannel
  joined : after.joined = before.joined
  live : after.live = before.live
  chname : after.chname = before.chname
  users : after.users = before.users
  members : after.members = before.members
  gate : after.gate = before.gate
  channel : after.channel = before.channel
  channelTable : after.channelTable = before.channelTable
  chan : after.chan = before.chan

theorem SameButInvites.refl (server : Server) : SameButInvites server server :=
  ⟨rfl, rfl, rfl, rfl, rfl, rfl, rfl, rfl, rfl, rfl, rfl⟩

theorem SameButInvites.delInvite (same : SameButInvites (server.delInvite cptr chptr) after) :
    SameButInvites server after :=
  ⟨same.clients, same.userChannel, same.joined, same.live, same.chname, same.users, same.members, same.gate,
    same.channel, same.channelTable, same.chan⟩

theorem clearInvites_same (chptr : ChanId) (fuel : Nat) (server : Server) :
    SameButInvites server (clearInvites chptr fuel server) := by
  induction fuel generalizing server with
  | zero => exact .refl server
  | succ fuel ih =>
    unfold clearInvites
    split
    · exact .refl server
    · exact (ih _).delInvite

theorem dropInvited_same (sptr : ClientId) (fuel : Nat) (server : Server) :
    SameButInvites server (dropInvited sptr fuel server) := by
  induction fuel generalizing server with
  | zero => exact .refl server
  | succ fuel ih =>
    unfold dropInvited
    split
    · exact .refl server
    · exact (ih _).delInvite

theorem Server.Sound.invitesCleared (sound : server.Sound most bare) (chptr : ChanId) (fuel : Nat)
    (enough : (server.invites chptr).length ≤ fuel) :
    (clearInvites chptr fuel server).Sound most bare ∧ (clearInvites chptr fuel server).invites chptr = [] := by
  induction fuel generalizing server with
  | zero => exact ⟨sound, List.length_eq_zero_iff.mp (Nat.le_zero.mp enough)⟩
  | succ fuel ih =>
    unfold clearInvites
    split
    next none => exact ⟨sound, none⟩
    next tmp rest list =>
      apply ih (sound.delInvite tmp chptr)
      rw [list] at enough
      simpa [Server.delInvite, list] using enough

theorem Server.Sound.invitedDropped (sound : server.Sound most bare) (sptr : ClientId) (fuel : Nat)
    (enough : (server.invited sptr).length ≤ fuel) :
    (dropInvited sptr fuel server).Sound most bare ∧ (dropInvited sptr fuel server).invited sptr = [] := by
  induction fuel generalizing server with
  | zero => exact ⟨sound, List.length_eq_zero_iff.mp (Nat.le_zero.mp enough)⟩
  | succ fuel ih =>
    unfold dropInvited
    split
    next none => exact ⟨sound, none⟩
    next chptr rest list =>
      apply ih (sound.delInvite sptr chptr)
      rw [list] at enough
      simpa [Server.delInvite, list] using enough

/-- After `del_invite` the two lists do not name each other. -/
theorem Server.Sound.not_invited (sound : server.Sound most bare) (cptr : ClientId) (chptr : ChanId) :
    chptr ∉ (server.delInvite cptr chptr).invited cptr := by
  simp [Server.delInvite, (sound.invites.once cptr).mem_erase_iff]

theorem Server.Sound.forgetInvite (sound : server.Sound most bare) (positive : 0 < most) (cptr : ClientId) :
    (server.forgetInvite most cptr).Sound most bare ∧ SameButInvites server (server.forgetInvite most cptr) ∧
      ((server.forgetInvite most cptr).invited cptr).length < most ∧
      (server.forgetInvite most cptr).invited cptr ⊆ server.invited cptr := by
  unfold Server.forgetInvite
  split
  next full =>
    split
    next none =>
      rw [none] at full
      exact absurd (Nat.lt_of_lt_of_le positive full) (Nat.lt_irrefl 0)
    next first rest list =>
      have shorter : (server.delInvite cptr first).invited cptr = rest := by
        simp [Server.delInvite, list]
      have few := sound.few cptr
      rw [list, List.length_cons] at few
      rw [shorter, list]
      exact ⟨sound.delInvite cptr first, (SameButInvites.refl _).delInvite, few, List.subset_cons_self _ _⟩
  next short => exact ⟨sound, .refl server, Nat.lt_of_not_le short, List.Subset.refl _⟩

/-- A client and a channel that do not name each other are put on each other's lists. -/
theorem Server.Sound.invite (sound : server.Sound most bare) (absent : chptr ∉ server.invited cptr)
    (short : (server.invited cptr).length < most) (person : server.Person cptr) (live : server.live chptr = true) :
    Server.Sound most bare
      { server with
        invites := update server.invites chptr (cptr :: server.invites chptr)
        invited := update server.invited cptr (server.invited cptr ++ [chptr]) } :=
  { sound with
    filed := ⟨sound.filed.listed, sound.filed.hashed⟩
    invites := by
      apply sound.invites.link absent
      · simp only [Function.update_self]
        exact List.perm_append_singleton _ _
      · exact fun _ differ => Function.update_of_ne differ ..
      · simp only [Function.update_self]
        exact .refl _
      · exact fun _ differ => Function.update_of_ne differ ..
    vacant := by
      intro other dead
      have differ : other ≠ chptr := by
        rintro rfl
        exact absurd (live.symm.trans dead) Bool.true_eq_false.mp
      obtain ⟨none, none'⟩ := sound.vacant other dead
      exact ⟨none, (Function.update_of_ne differ ..).trans none'⟩
    own := by
      intro other some
      by_cases same : other = cptr
      · exact same ▸ person
      · simp only [Function.update_of_ne same] at some
        exact sound.own other some
    few := by
      intro other
      by_cases same : other = cptr
      · subst same
        simpa [Nat.succ_le_iff] using short
      · simp only [Function.update_of_ne same]
        exact sound.few other }

theorem Server.Sound.addInvite (sound : server.Sound most bare) (positive : 0 < most) (person : server.Person cptr)
    (live : server.live chptr = true) : (server.addInvite most cptr chptr).Sound most bare := by
  have absent := sound.not_invited cptr chptr
  obtain ⟨sound, same, short, fewer⟩ := (sound.delInvite cptr chptr).forgetInvite positive cptr
  obtain ⟨client, member, right⟩ := person
  apply sound.invite (fun member => absent (fewer member)) short
  · exact ⟨client, same.clients ▸ member, right⟩
  · exact same.live ▸ live

/-- Clients and channels that are put on each other's lists. -/
theorem Server.Sound.addUserToChannel (sound : server.Sound most bare) (known : who ∈ server.clients)
    (person : who.isPerson = true) (live : server.live chptr = true)
    (absent : server.isMember who.cptr chptr = false) :
    (server.addUserToChannel chptr who).Sound most fun other => bare other ∧ other ≠ chptr := by
  have user : who.user = true := ((Bool.and_eq_true _ _).mp person).1
  have absent : chptr ∉ server.userChannel who.cptr := of_decide_eq_false absent
  rw [Server.addUserToChannel, if_pos user]
  exact
    { sound with
      filed := ⟨sound.filed.listed, sound.filed.hashed⟩
      members := by
        apply sound.members.link absent
        · simp only [Function.update_self]
          exact .refl _
        · exact fun _ differ => Function.update_of_ne differ ..
        · simp only [Function.update_self]
          exact .refl _
        · exact fun _ differ => Function.update_of_ne differ ..
      joined := by
        intro other
        by_cases same : other = who.cptr
        · simp [same, sound.joined]
        · simp [same, sound.joined]
      users := by
        intro other live'
        by_cases same : other = chptr
        · subst same
          simp [sound.users other live]
        · simp [same, sound.users other live']
      filled := by
        intro other live' closed
        by_cases same : other = chptr
        · simp [same]
        · simp only [Function.update_of_ne same]
          exact sound.filled other live' fun open' => closed ⟨open', same⟩
      vacant := by
        intro other dead
        have differ : other ≠ chptr := by
          rintro rfl
          exact absurd (live.symm.trans dead) Bool.true_eq_false.mp
        simp only [Function.update_of_ne differ]
        exact sound.vacant other dead
      own := by
        intro other some
        by_cases same : other = who.cptr
        · exact ⟨who, known, same.symm, person⟩
        · simp only [Function.update_of_ne same] at some
          exact sound.own other some }

theorem clearInvites_users (chptr : ChanId) (fuel : Nat) (users : ChanId → Int) :
    clearInvites chptr fuel { server with users := users } = { clearInvites chptr fuel server with users := users } := by
  induction fuel generalizing server with
  | zero => rfl
  | succ fuel ih =>
    unfold clearInvites
    cases list : server.invites chptr with
    | nil => rfl
    | cons tmp rest => exact @ih (server.delInvite tmp chptr)

/-- An empty channel goes, whatever its counter has become. -/
theorem Server.Sound.freeChannel (sound : server.Sound most bare) (live : server.live chptr = true)
    (empty : server.members chptr = []) (users : ChanId → Int)
    (others : ∀ other, other ≠ chptr → users other = server.users other) :
    (Server.freeChannel { server with users := users } chptr).Sound most fun other => bare other ∧ other ≠ chptr := by
  have same := clearInvites_same chptr (server.invites chptr).length server
  obtain ⟨sound, none⟩ := sound.invitesCleared chptr (server.invites chptr).length (Nat.le_refl _)
  obtain ⟨all, shown, iff, counted⟩ := sound.filed.listed
  have live' : (clearInvites chptr (server.invites chptr).length server).live chptr = true := same.live ▸ live
  have listed : chptr ∈ all := (iff chptr).mpr live'
  have shown' : Chain.Shows _ (update (fun _ : Unit => all) () (all.erase chptr)) := shown.erase listed
  have once := shown.once ()
  have gone (other : ChanId) : update (clearInvites chptr (server.invites chptr).length server).live chptr false other =
      true ↔ (clearInvites chptr (server.invites chptr).length server).live other = true ∧ other ≠ chptr := by
    by_cases same : other = chptr
    · simp [same]
    · simp [same]
  rw [Server.freeChannel, clearInvites_users]
  refine ⟨sound.alone, ⟨⟨all.erase chptr, ?_, ?_, ?_⟩, ?_⟩, sound.members, sound.invites, sound.joined, ?_, ?_, ?_,
    sound.own, sound.few⟩
  · have only : (fun _ : Unit => all.erase chptr) = update (fun _ : Unit => all) () (all.erase chptr) := by
      funext key
      simp
    rw [only]
    exact shown'
  · intro other
    refine Iff.trans ?_ (gone other).symm
    rw [once.mem_erase_iff, iff other]
    exact And.comm
  · have length := List.length_erase_of_mem listed
    have positive : 0 < all.length := List.length_pos_of_mem listed
    simp only [Server.delFromChannelHashTable, counted, length]
    omega
  · intro hashv
    obtain ⟨nodup, member⟩ := sound.filed.hashed hashv
    simp only [Server.delFromChannelHashTable]
    by_cases bucket : hashv = hashChannelName
        ((clearInvites chptr (server.invites chptr).length server).chname chptr)
    · rw [← bucket, Function.update_self]
      refine ⟨nodup.erase chptr, fun other => ?_⟩
      rw [nodup.mem_erase_iff, member other, gone other]
      constructor
      · exact fun ⟨differ, live, home⟩ => ⟨⟨live, differ⟩, home⟩
      · exact fun ⟨⟨live, differ⟩, home⟩ => ⟨differ, live, home⟩
    · rw [Function.update_of_ne bucket]
      refine ⟨nodup, fun other => ?_⟩
      rw [member other, gone other]
      constructor
      · intro ⟨live, home⟩
        exact ⟨⟨live, fun same => bucket (same ▸ home.symm)⟩, home⟩
      · exact fun ⟨⟨live, _⟩, home⟩ => ⟨live, home⟩
  · intro other alive
    obtain ⟨alive, differ⟩ := (gone other).mp alive
    have count := sound.users other alive
    rw [same.users] at count
    exact (others other differ).trans count
  · intro other alive closed
    obtain ⟨alive, differ⟩ := (gone other).mp alive
    exact sound.filled other alive fun open' => closed ⟨open', differ⟩
  · intro other dead
    by_cases self : other = chptr
    · subst self
      exact ⟨same.members ▸ empty, none⟩
    · exact sound.vacant other ((Function.update_of_ne self ..).symm.trans dead)

/-- A member leaves, and an empty channel goes with it. -/
theorem Server.Sound.removeUserFromChannel (sound : server.Sound most bare)
    (on : chptr ∈ server.userChannel sptr) : (server.removeUserFromChannel sptr chptr).Sound most bare := by
  have live := sound.live_of_channel on
  have member := (sound.members.both sptr chptr).mp on
  have left : Server.Sound most (fun other => bare other ∨ other = chptr)
      { server with
        members := update server.members chptr ((server.members chptr).erase sptr)
        userChannel := update server.userChannel sptr ((server.userChannel sptr).erase chptr)
        joined := update server.joined sptr (server.joined sptr - 1)
        users := update server.users chptr (server.users chptr - 1) } :=
    { sound with
      filed := ⟨sound.filed.listed, sound.filed.hashed⟩
      members :=
        sound.members.unlink (Function.update_self ..) (fun _ differ => Function.update_of_ne differ ..)
          (Function.update_self ..) (fun _ differ => Function.update_of_ne differ ..)
      joined := by
        intro other
        by_cases same : other = sptr
        · subst same
          have positive := List.length_pos_of_mem on
          simp only [Function.update_self, sound.joined, List.length_erase_of_mem on]
          omega
        · simp [same, sound.joined]
      users := by
        intro other live'
        by_cases same : other = chptr
        · subst same
          have positive := List.length_pos_of_mem member
          simp only [Function.update_self, sound.users other live, List.length_erase_of_mem member]
          omega
        · simp [same, sound.users other live']
      filled := by
        intro other live' closed
        have differ : other ≠ chptr := fun same => closed (.inr same)
        simp only [Function.update_of_ne differ]
        exact sound.filled other live' fun open' => closed (.inl open')
      vacant := by
        intro other dead
        have differ : other ≠ chptr := by
          rintro rfl
          exact absurd (live.symm.trans dead) Bool.true_eq_false.mp
        simp only [Function.update_of_ne differ]
        exact sound.vacant other dead
      own := by
        intro other some
        apply sound.own other
        refine some.imp_left fun left none => left ?_
        by_cases same : other = sptr
        · subst same
          simp [none]
        · simp [same, none] }
  rw [Server.removeUserFromChannel, Server.sub1FromChannel]
  simp only []
  split
  next empty =>
    have none : ((server.members chptr).erase sptr) = [] := by
      have count := left.users chptr live
      simp only [Function.update_self] at count empty
      exact List.length_eq_zero_iff.mp (by omega)
    have freed := left.freeChannel live ((Function.update_self ..).trans none)
      (update server.users chptr (server.users chptr - 1)) fun _ _ => rfl
    exact freed.mono fun other _ ⟨open', differ⟩ _ => open'.resolve_right differ
  next some =>
    refine left.mono fun other live' open' empty => ?_
    rcases open' with open' | rfl
    · exact open'
    · have count := left.users other live'
      rw [empty] at count
      exact absurd (Int.le_of_eq count) some

/-- `sub1_from_channel` for a channel without a member. -/
theorem Server.Sound.sub1FromChannel (sound : server.Sound most bare) (live : server.live chptr = true)
    (empty : server.members chptr = []) :
    ((server.sub1FromChannel chptr).Sound most fun other => bare other ∧ other ≠ chptr) ∧
      (server.sub1FromChannel chptr).clients = server.clients := by
  have zero := sound.users chptr live
  rw [empty, List.length_nil] at zero
  have freed := sound.freeChannel live empty (update server.users chptr (server.users chptr - 1))
    fun _ differ => Function.update_of_ne differ ..
  rw [Server.sub1FromChannel]
  simp only [Function.update_self]
  rw [if_pos (by omega)]
  exact ⟨freed, (clearInvites_same ..).clients⟩

/-- `get_channel` makes a channel where no other is, without a member yet. -/
theorem Server.Sound.createChannel (sound : server.Sound most bare) (free : server.live room = false)
    (chname : Text) :
    (server.createChannel chname room).Sound most fun other => bare other ∨ other = room := by
  obtain ⟨none, none'⟩ := sound.vacant room free
  obtain ⟨all, shown, iff, counted⟩ := sound.filed.listed
  have new : room ∉ all := fun member => absurd (((iff room).mp member).symm.trans free) Bool.true_eq_false.mp
  have shown' := shown.push (fun _ => new) ()
  have members : update server.members room [] = server.members := by rw [← none, Function.update_eq_self]
  have invites : update server.invites room [] = server.invites := by rw [← none', Function.update_eq_self]
  have alive (other : ChanId) : update server.live room true other = true ↔ other = room ∨ server.live other = true := by
    by_cases same : other = room
    · simp [same]
    · simp [same]
  have differ (other : ChanId) (live : server.live other = true) : other ≠ room := by
    rintro rfl
    exact absurd (live.symm.trans free) Bool.true_eq_false.mp
  rw [Server.createChannel, Server.addToChannelHashTable, members, invites]
  refine ⟨sound.alone, ⟨⟨room :: all, ?_, ?_, ?_⟩, ?_⟩, sound.members, sound.invites, sound.joined, ?_, ?_, ?_,
    sound.own, sound.few⟩
  · have only : (fun _ : Unit => room :: all) = update (fun _ : Unit => all) () (room :: all) := by
      funext key
      simp
    rw [only]
    exact shown'
  · intro other
    simp only [List.mem_cons, iff other, alive other]
  · simp [counted]
  · intro hashv
    obtain ⟨nodup, member⟩ := sound.filed.hashed hashv
    have absent : room ∉ server.channelTable hashv := fun inside =>
      differ room ((member room).mp inside).1 rfl
    by_cases bucket : hashv = hashChannelName chname
    · subst bucket
      simp only [Function.update_self, List.nodup_cons, List.mem_cons, alive]
      refine ⟨⟨absent, nodup⟩, fun other => ?_⟩
      rw [member other]
      by_cases same : other = room
      · simp [same]
      · simp [same]
    · simp only [Function.update_of_ne bucket, alive]
      refine ⟨nodup, fun other => ?_⟩
      rw [member other]
      by_cases same : other = room
      · subst same
        have no : hashChannelName chname ≠ hashv := fun same => bucket same.symm
        simp [free, no]
      · simp [same]
  · intro other live
    by_cases same : other = room
    · simp [same, none]
    · simp only [Function.update_of_ne same] at live ⊢
      exact sound.users other live
  · intro other live closed
    have same : other ≠ room := fun same => closed (.inr same)
    simp only [Function.update_of_ne same] at live
    exact sound.filled other live fun open' => closed (.inl open')
  · intro other dead
    have same : other ≠ room := by
      rintro rfl
      simp at dead
    simp only [Function.update_of_ne same] at dead
    exact sound.vacant other dead

theorem removeUser_lists (server : Server) (sptr : ClientId) (chptr : ChanId) :
    (server.removeUserFromChannel sptr chptr).clients = server.clients ∧
      (server.removeUserFromChannel sptr chptr).userChannel =
        update server.userChannel sptr ((server.userChannel sptr).erase chptr) := by
  rw [Server.removeUserFromChannel, Server.sub1FromChannel]
  simp only []
  split
  · have same := clearInvites_same chptr (server.invites chptr).length
      { server with
        members := update server.members chptr ((server.members chptr).erase sptr)
        userChannel := update server.userChannel sptr ((server.userChannel sptr).erase chptr)
        joined := update server.joined sptr (server.joined sptr - 1)
        users := update server.users chptr (server.users chptr - 1) }
    exact ⟨same.clients, same.userChannel⟩
  · exact ⟨rfl, rfl⟩

theorem Server.Sound.channelsParted (sound : server.Sound most bare) (sptr : ClientId) (fuel : Nat)
    (enough : (server.userChannel sptr).length ≤ fuel) :
    (partChannels sptr fuel server).Sound most bare ∧ (partChannels sptr fuel server).clients = server.clients ∧
      (partChannels sptr fuel server).userChannel = update server.userChannel sptr [] := by
  induction fuel generalizing server with
  | zero =>
    have none := List.length_eq_zero_iff.mp (Nat.le_zero.mp enough)
    exact ⟨sound, rfl, by rw [← none, Function.update_eq_self, partChannels]⟩
  | succ fuel ih =>
    unfold partChannels
    split
    next none => exact ⟨sound, rfl, by rw [← none, Function.update_eq_self]⟩
    next chptr rest list =>
      have on : chptr ∈ server.userChannel sptr := by rw [list]; exact List.mem_cons_self
      obtain ⟨clients, channels⟩ := removeUser_lists server sptr chptr
      have shorter : ((server.removeUserFromChannel sptr chptr).userChannel sptr).length ≤ fuel := by
        rw [list] at enough
        simpa [channels, list] using enough
      obtain ⟨sound, same, empty⟩ := ih (sound.removeUserFromChannel on) shorter
      exact ⟨sound, same.trans clients, by rw [empty, channels, Function.update_idem]⟩

end

end SolidIrcd.Registry
