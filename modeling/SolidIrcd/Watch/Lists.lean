import SolidIrcd.Lib.Machine
import SolidIrcd.Watch.Table

/-! WATCH commands and clients that come and go. A client of this server takes its list
with it when it leaves; other clients leave without a look at theirs. -/

namespace SolidIrcd.Watch

open Scan (Text)
open Function (update)
open Mirror (Mirrored)

/-- What `m_watch` and the exit of a client look at. -/
structure Client where
  name : Text
  myConnect : Bool
  person : Bool
  anOper : Bool
  registered : Bool
  deriving DecidableEq, Repr

structure Server where
  clients : ClientId → Option Client
  table : Table

def Server.start : Server := ⟨fun _ => none, Table.empty⟩

/-- One turn of the loop of `m_watch`, for a piece of the parameter between commas and
blanks; the letters that only report leave the lists alone. -/
def Table.watchToken (table : Table) (sptr : ClientId) (client : Client) (room : Addr) (timeofday : Nat) (s : Text) :
    Table :=
  match s.takeWhile (· ≠ '!') with
  | '+' :: nick =>
    if nick = [] then table
    else if table.watches sptr ≥ maxWatch ∧ client.anOper = false then table
    else table.addToWatchHashTable room timeofday nick sptr
  | '-' :: nick => table.delFromWatchHashTable nick sptr
  | 'C' :: _ => table.hashDelWatchList sptr
  | 'c' :: _ => table.hashDelWatchList sptr
  | _ => table

/-- `exit_client` and `exit_one_client`, as far as WATCH goes: a local user's list goes,
then those who watch the name are told. The client itself is freed. -/
def Server.exitClient (server : Server) (sptr : ClientId) (now : Nat) : Server :=
  match server.clients sptr with
  | none => server
  | some client =>
    let table := if client.myConnect && client.person then server.table.hashDelWatchList sptr else server.table
    let table := if client.registered then table.hashCheckWatch client.name now else table
    { clients := update server.clients sptr none
      table := { table with watch := update table.watch sptr [], watches := update table.watches sptr 0 } }

/-- `make_client` clears all of the client. -/
def Server.makeClient (server : Server) (cptr : ClientId) (client : Client) : Server :=
  { clients := update server.clients cptr (some client)
    table :=
      { server.table with
        watch := update server.table.watch cptr []
        watches := update server.table.watches cptr 0 } }

inductive Action where
  | connect (cptr : ClientId) (client : Client)
  | watch (sptr : ClientId) (s : Text) (room : Addr) (timeofday : Nat)
  | signal (name : Text) (now : Nat)
  | exit (sptr : ClientId) (now : Nat)

def Server.perform (server : Server) : Action → Server
  | .connect cptr client => server.makeClient cptr client
  | .watch sptr s room timeofday =>
    match server.clients sptr with
    | none => server
    | some client => { server with table := server.table.watchToken sptr client room timeofday s }
  | .signal name now => { server with table := server.table.hashCheckWatch name now }
  | .exit sptr now => server.exitClient sptr now

/-- Allocators return what nobody holds; commands come from clients that are there. -/
def Server.Possible (server : Server) : Action → Prop
  | .connect cptr client => server.clients cptr = none ∧ (client.person = true → client.registered = true)
  | .watch sptr _ room _ =>
    (∃ client, server.clients sptr = some client ∧ client.registered = true) ∧ server.table.headers room = none
  | .signal _ _ => True
  | .exit sptr _ => (server.clients sptr).isSome = true

def machine : Machine Server Action := ⟨Server.perform, Server.Possible⟩

/-- Only users of this server put somebody on their list. -/
def Server.OwnUsers (server : Server) : Action → Prop
  | .watch sptr s _ _ =>
    s.head? = some '+' → ∃ client, server.clients sptr = some client ∧ client.myConnect = true ∧ client.person = true
  | _ => True

/-- The table is sound, and only users of this server have a list. -/
structure Server.Kept (server : Server) : Prop where
  sound : server.table.Sound
  own : ∀ cptr, server.table.watch cptr ≠ [] →
    ∃ client, server.clients cptr = some client ∧ client.myConnect = true ∧ client.person = true

section

variable {table : Table}

/-- Clearing the fields of a client without a list. -/
theorem Table.Sound.cleared (sound : table.Sound) (empty : table.watch cptr = []) :
    Table.Sound { table with watch := update table.watch cptr [], watches := update table.watches cptr 0 } := by
  have watch : update table.watch cptr [] = table.watch := by rw [← empty, Function.update_eq_self]
  have watches : update table.watches cptr 0 = table.watches := by
    have zero := sound.counted cptr
    rw [empty] at zero
    rw [← Function.update_eq_self cptr table.watches, zero]
    simp
  rw [watch, watches]
  exact sound

theorem watch_enlist (cptr : ClientId) (anptr : Addr) (differ : other ≠ cptr) :
    (table.enlist cptr anptr).watch other = table.watch other := by
  unfold Table.enlist
  split
  · rfl
  · exact Function.update_of_ne differ ..

theorem watch_add (room : Addr) (timeofday : Nat) (nick : Text) (cptr : ClientId) (differ : other ≠ cptr) :
    (table.addToWatchHashTable room timeofday nick cptr).watch other = table.watch other := by
  unfold Table.addToWatchHashTable
  split
  · exact watch_enlist _ _ differ
  · exact watch_enlist _ _ differ

theorem watch_del (nick : Text) (cptr other : ClientId) :
    (table.delFromWatchHashTable nick cptr).watch other ⊆ table.watch other := by
  unfold Table.delFromWatchHashTable
  split
  · exact List.Subset.refl _
  next anptr _ =>
    split
    · simp only [(watch_release _ cptr (bucket nick) anptr).1]
      by_cases same : other = cptr
      · subst same
        rw [Function.update_self]
        exact List.erase_subset
      · rw [Function.update_of_ne same]
        exact List.Subset.refl _
    · exact List.Subset.refl _

theorem watch_hashCheckWatch (name : Text) (now : Nat) : (table.hashCheckWatch name now).watch = table.watch := by
  unfold Table.hashCheckWatch
  split <;> rfl

theorem watch_clear (sound : table.Sound) (cptr other : ClientId) :
    (table.hashDelWatchList cptr).watch other ⊆ table.watch other := by
  rw [(hashDelWatchList_spec sound cptr).2]
  by_cases same : other = cptr
  · subst same
    simp
  · rw [Function.update_of_ne same]
    exact List.Subset.refl _

/-- A piece of a WATCH either asks for somebody or makes no list longer. -/
theorem watchToken_spec (sound : table.Sound) (free : table.headers room = none) (sptr : ClientId) (client : Client)
    (timeofday : Nat) (s : Text) :
    (table.watchToken sptr client room timeofday s).Sound ∧
      ∀ other, (other = sptr ∧ s.head? = some '+') ∨
        (table.watchToken sptr client room timeofday s).watch other ⊆ table.watch other := by
  have kept (other : ClientId) : (other = sptr ∧ s.head? = some '+') ∨ table.watch other ⊆ table.watch other :=
    .inr (List.Subset.refl _)
  unfold Table.watchToken
  split
  next nick taken =>
    have plus : s.head? = some '+' := by
      cases s with
      | nil => simp at taken
      | cons c rest =>
        by_cases mark : c = '!'
        · simp [mark] at taken
        · simp_all
    split
    · exact ⟨sound, kept⟩
    · split
      · exact ⟨sound, kept⟩
      · refine ⟨sound.addToWatchHashTable free timeofday nick sptr, fun other => ?_⟩
        by_cases same : other = sptr
        · exact .inl ⟨same, plus⟩
        · exact .inr (by rw [watch_add room timeofday nick sptr same]; exact List.Subset.refl _)
  next nick _ => exact ⟨sound.delFromWatchHashTable nick sptr, fun other => .inr (watch_del nick sptr other)⟩
  · exact ⟨(hashDelWatchList_spec sound sptr).1, fun other => .inr (watch_clear sound sptr other)⟩
  · exact ⟨(hashDelWatchList_spec sound sptr).1, fun other => .inr (watch_clear sound sptr other)⟩
  · exact ⟨sound, kept⟩

end

theorem Server.kept_start : Server.start.Kept := ⟨Table.sound_empty, fun _ some => absurd rfl some⟩

section

variable {server : Server}

theorem Server.Kept.makeClient (kept : server.Kept) (free : server.clients cptr = none) (client : Client) :
    (server.makeClient cptr client).Kept := by
  have empty : server.table.watch cptr = [] := by
    by_contra some
    obtain ⟨other, there, -⟩ := kept.own cptr some
    rw [free] at there
    exact nomatch there
  refine ⟨kept.sound.cleared empty, ?_⟩
  intro other some
  by_cases same : other = cptr
  · subst same
    simp [Server.makeClient] at some
  · simp only [Server.makeClient, Function.update_of_ne same] at some ⊢
    exact kept.own other some

theorem Server.Kept.exitClient (kept : server.Kept) (sptr : ClientId) (now : Nat) : (server.exitClient sptr now).Kept := by
  unfold Server.exitClient
  split
  · exact kept
  next client there =>
    obtain ⟨table, gone, sound, empty, watch⟩ : ∃ table,
        (if client.myConnect && client.person then server.table.hashDelWatchList sptr else server.table) = table ∧
          table.Sound ∧ table.watch sptr = [] ∧ ∀ other, table.watch other ⊆ server.table.watch other := by
      split
      · obtain ⟨sound, watch⟩ := hashDelWatchList_spec kept.sound sptr
        exact ⟨_, rfl, sound, by simp [watch], watch_clear kept.sound sptr⟩
      next other =>
        refine ⟨_, rfl, kept.sound, ?_, fun _ => List.Subset.refl _⟩
        by_contra some
        obtain ⟨own, again, mine, person⟩ := kept.own sptr some
        rw [there, Option.some.injEq] at again
        subst again
        simp [mine, person] at other
    have told : ∃ after, (if client.registered then table.hashCheckWatch client.name now else table) = after ∧
        after.Sound ∧ after.watch = table.watch := by
      split
      · exact ⟨_, rfl, sound.hashCheckWatch client.name now, watch_hashCheckWatch client.name now⟩
      · exact ⟨_, rfl, sound, rfl⟩
    obtain ⟨after, told, sound', watch'⟩ := told
    simp only [gone, told]
    refine ⟨sound'.cleared (by rw [watch', empty]), ?_⟩
    intro other some
    by_cases same : other = sptr
    · subst same
      simp at some
    · simp only [Function.update_of_ne same, watch'] at some ⊢
      refine kept.own other fun none => some ?_
      exact List.eq_nil_of_subset_nil (none ▸ watch other)

theorem Server.Kept.perform (kept : server.Kept) (action : Action) (possible : server.Possible action)
    (own : server.OwnUsers action) : (server.perform action).Kept := by
  cases action with
  | connect cptr client => exact kept.makeClient possible.1 client
  | watch sptr s room timeofday =>
    obtain ⟨⟨client, there, -⟩, free⟩ := possible
    obtain ⟨sound, shorter⟩ := watchToken_spec kept.sound free sptr client timeofday s
    simp only [Server.perform, there]
    refine ⟨sound, ?_⟩
    intro other some
    obtain ⟨rfl, plus⟩ | fewer := shorter other
    · exact own plus
    · refine kept.own other fun none => some ?_
      exact List.eq_nil_of_subset_nil (none ▸ fewer)
  | signal name now =>
    refine ⟨kept.sound.hashCheckWatch name now, ?_⟩
    intro other some
    simp only [Server.perform, watch_hashCheckWatch] at some
    exact kept.own other some
  | exit sptr now => exact kept.exitClient sptr now

end

/-- While only users of this server watch somebody, the lists of clients and headers
mirror each other, with one header for each nickname that is watched. -/
theorem watch_sound (run : machine.Run Server.OwnUsers Server.start server) :
    server.table.Sound ∧ ∀ cptr anptr,
      (server.table.watch cptr).count anptr = 1 ↔ (server.table.watchers anptr).count cptr = 1 := by
  have kept : server.Kept :=
    run.invariant Server.Kept (fun _ action possible own kept => kept.perform action possible own) Server.kept_start
  refine ⟨kept.sound, fun cptr anptr => ?_⟩
  rw [(kept.sound.mirrored.count cptr anptr).1]

def ownAnn : Client := ⟨"ann".toList, true, true, false, true⟩

def remoteAnn : Client := ⟨"ann".toList, false, true, false, true⟩

/-- A user watches `bob`; the client is one of this server, or of another. -/
def watching (client : Client) : Server :=
  machine.perform (machine.perform Server.start (.connect 1 client)) (.watch 1 "+bob".toList 7 100)

theorem ownAnn_watches : (watching ownAnn).table.watch 1 = [7] ∧ (watching ownAnn).table.Sound := by
  have connected : machine.Run Server.OwnUsers Server.start (machine.perform Server.start (.connect 1 ownAnn)) :=
    .tail (.refl _) ⟨rfl, fun _ => rfl⟩ trivial
  have watched : machine.Run Server.OwnUsers Server.start (watching ownAnn) :=
    .tail connected ⟨⟨ownAnn, rfl, rfl⟩, rfl⟩ fun _ => ⟨ownAnn, rfl, rfl, rfl⟩
  exact ⟨by decide, (watch_sound watched).1⟩

/-- A client of another server is still on the header when it is gone. -/
theorem remoteAnn_dangles :
    ∃ server, machine.Run Machine.Any Server.start server ∧ server.clients 1 = none ∧ server.table.watch 1 = [] ∧
      server.table.hashGetWatch "bob".toList = some 7 ∧ server.table.watchers 7 = [1] ∧ ¬ server.table.Sound := by
  have connected : machine.Run Machine.Any Server.start (machine.perform Server.start (.connect 1 remoteAnn)) :=
    .tail (.refl _) ⟨rfl, fun _ => rfl⟩ trivial
  have watched : machine.Run Machine.Any Server.start (watching remoteAnn) :=
    .tail connected ⟨⟨remoteAnn, rfl, rfl⟩, rfl⟩ trivial
  have gone : machine.Run Machine.Any Server.start (machine.perform (watching remoteAnn) (.exit 1 200)) :=
    .tail watched rfl trivial
  refine ⟨_, gone, rfl, rfl, by decide, rfl, ?_⟩
  intro sound
  have member : 7 ∈ (machine.perform (watching remoteAnn) (.exit 1 200)).table.watch 1 :=
    (sound.mirrored.both 1 7).mpr (by decide)
  exact absurd member (by decide)

end SolidIrcd.Watch
