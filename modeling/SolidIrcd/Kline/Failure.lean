import SolidIrcd.Kline.Persist

/-! A compaction that fails. It leaves the journal closed unless the temporary file could
not be opened while the journal was open, and what comes after is then not written. -/

namespace SolidIrcd.Kline

open Scan (Text)
open UserBan

/-- What `m_kline` and `m_unkline` do to memory and journal. -/
inductive Call where
  | add (ban : Ban)
  | remove (ban : Ban)
  deriving DecidableEq, Repr

def Server.call (server : Server) : Call → Server
  | .add ban =>
    { server with store := (server.store.addHostbasedUserban ban).getD server.store }.klinestoreAdd ban none
  | .remove ban =>
    { server with store := server.store.removeUserban ban.internalEnt }.klinestoreRemove ban none

/-- A K-line that is added is to be stored and has a mask of its own; one that is removed
is there. Neither has a mask that the journal cannot hold. -/
def CallPossible (server : Server) : Call → Prop
  | .add ban => Recorded ban ∧ storable ban = true ∧
      ∀ other, server.store.lists.Holds other → isKline other = true → ¬ ban.Same other
  | .remove ban => server.store.lists.Holds ban ∧ isKline ban = true ∧ Solid ban

def journalMachine : Machine Server Call := ⟨Server.call, CallPossible⟩

/-- After the failure and any calls that work, the next `klinestore_init` finds in the file
the K-lines to be stored. -/
def Durable (server : Server) (fault : Fault) : Prop :=
  ∀ final, journalMachine.Run Machine.Any (server.compact (some fault)) final →
    Replays final.file final.store final.now

/-- The state in which `klinestore_init` of a new process calls `klinestore_compact`. -/
def Server.rebooted (server : Server) (conf : List (Option Text × Text × Option Text)) : Server :=
  { server with
    store := replay server.now server.file.length (confStore conf) server.file
    isOpen := false
    journalcount := 0 }

variable {server : Server}

theorem Kept.call {call : Call} (kept : Kept server) (possible : CallPossible server call) : Kept (server.call call) := by
  cases call with
  | add ban =>
    obtain ⟨recorded, stored, fresh⟩ := possible
    have entered := kept.enter recorded.toGenuine (fun _ => recorded) fresh
    rwa [if_pos stored] at entered
  | remove ban =>
    obtain ⟨held, kline, solid⟩ := possible
    exact Kept.write (kept.sound.discard _) kept.opened (kept.replays.minus kept.sound held kline solid) kept.clock

/-- The one failure that does no harm. -/
theorem Kept.openTemp_durable (kept : Kept server) : Durable server .openTemp := by
  intro final run
  have still : Kept (server.compact (some .openTemp)) := ⟨kept.sound, kept.opened, kept.replays, kept.clock⟩
  exact (run.invariant Kept (fun _ _ possible _ kept => kept.call possible) still).replays

/-- With the journal closed, a call leaves the file as it is until the next compaction. -/
theorem call_closed (closed : server.isOpen = false) (few : server.journalcount < klineStoreCompactThresh)
    (call : Call) : (server.call call).file = server.file ∧ (server.call call).isOpen = false ∧
      (server.call call).journalcount = server.journalcount + 1 ∧ (server.call call).now = server.now := by
  have below : ¬ server.journalcount + 1 > klineStoreCompactThresh := by omega
  cases call <;>
    simp [Server.call, Server.klinestoreAdd, Server.klinestoreRemove, Server.journalWrite, closed, below]

/-- A permanent K-line for `a.b`. -/
def plainKline : Ban :=
  { flags := { isLocal := true, host := true, wilduser := true }
    u := none
    h := some "a.b".toList
    cidr4ip := 0
    cidr4mask := 0
    reason := some "spam".toList
    timeset := 0
    duration := 0
    internalEnt := 0 }

theorem plainKline_recorded : Recorded plainKline where
  read := by decide +kernel
  owner := rfl
  reason := ⟨"spam".toList, rfl, by decide, by decide⟩
  user := by decide
  host := by decide
  positive := by decide
  short := by decide
  solid := ⟨by decide, by decide⟩
  early := by decide

/-- Another K-line with that mask has no blank in it. -/
theorem solid_of_same (genuine : Genuine ban) (same : plainKline.Same ban) : Solid ban := by
  have letters {text other : Text} (alike : mycmp text other = true) (clean : ' ' ∉ other.map toUpper) : ' ' ∉ text := by
    intro member
    have mapped : toUpper ' ' ∈ text.map toUpper := List.mem_map_of_mem member
    rw [mycmp_iff.mp alike] at mapped
    exact clean mapped
  constructor
  case user =>
    obtain ⟨form, -, shape⟩ := Option.map_eq_some_iff.mp genuine.read
    have everyone : isEveryone (some ban.userText) = true := by
      have wild : (form.ban (some ban.userText)).flags.wilduser = true := by
        rw [shape]
        exact same.wilduser.symm
      cases form <;> exact wild
    simp only [isEveryone, Bool.or_eq_true, beq_iff_eq] at everyone
    obtain empty | star := everyone
    · simp [empty]
    · exact letters star (by decide)
  case host =>
    have place : ban.slot = some (.hostBucket 1) := same.slot.symm.trans (by decide +kernel)
    have text : ban.hostText = ban.h.getD [] := by
      unfold Ban.slot at place
      unfold Ban.hostText
      cases big : ban.flags.cidr4big with
      | true => simp [big] at place
      | false =>
        cases small : ban.flags.cidr4 with
        | true => simp [big, small] at place
        | false => rfl
    have alike : mycmp (ban.h.getD []) "a.b".toList = true := by
      rw [mycmp_comm]
      exact same.host
    rw [text]
    exact letters alike (by decide)

/-- One file is good for one set of K-lines only. -/
theorem Replays.agree (first : Replays file store now) (second : Replays file other now) (held : other.lists.Holds ban)
    (stored : storable ban = true) (live : ban.expired now = false) :
    ∃ old, store.lists.Holds old ∧ storable old = true ∧ old.expired now = false ∧ entry old = entry ban := by
  have none : ∀ ban, Store.empty.lists.Holds ban → isKline ban = false := fun ban held => absurd held Shelf.holds_empty
  obtain ⟨-, -, has⟩ := first.replay Sound.empty none (Int.le_refl now)
  obtain ⟨-, -, has'⟩ := second.replay Sound.empty none (Int.le_refl now)
  exact (has (entry ban)).mp ((has' (entry ban)).mpr ⟨ban, held, stored, live, rfl⟩)

private theorem add_holds (sound : Sound server.store)
    (fresh : ∀ other, server.store.lists.Holds other → isKline other = true → ¬ plainKline.Same other) :
    ∃ ent, (server.call (.add plainKline)).store.lists.Holds { plainKline with internalEnt := ent } := by
  obtain ⟨after, added, -, holds⟩ := sound.insert (kind_of_genuine plainKline_recorded.toGenuine)
    (fun _ => plainKline_recorded.toGenuine) (fun _ => plainKline_recorded) (fun _ => fresh)
  refine ⟨server.store.next, ?_⟩
  rw [Server.call, added, Option.getD_some, Server.klinestoreAdd, journalWrite_store]
  exact (holds _).mpr (.inl rfl)

/-- With the journal closed, a K-line that is added is not in the file. -/
theorem add_loses (run : journalMachine.Run Machine.Any start server) (sound : Sound server.store)
    (closed : server.isOpen = false) (few : server.journalcount < klineStoreCompactThresh)
    (fresh : ∀ other, server.store.lists.Holds other → isKline other = true → ¬ plainKline.Same other)
    (replays : Replays server.file store server.now)
    (missing : ∀ old, store.lists.Holds old → storable old = true → old.expired server.now = false →
      ¬ plainKline.Same old) :
    ∃ final, journalMachine.Run Machine.Any start final ∧ ¬ Replays final.file final.store final.now := by
  have onward : journalMachine.Run Machine.Any start (journalMachine.perform server (.add plainKline)) :=
    .tail run ⟨plainKline_recorded, rfl, fresh⟩ trivial
  refine ⟨_, onward, ?_⟩
  intro lying
  obtain ⟨file, -, -, time⟩ := call_closed closed few (.add plainKline)
  change Replays (server.call (.add plainKline)).file _ (server.call (.add plainKline)).now at lying
  rw [file, time] at lying
  obtain ⟨ent, there⟩ := add_holds sound fresh
  obtain ⟨old, held, stored, live, shown⟩ := replays.agree lying there rfl rfl
  exact missing old held stored live (same_of_entry shown.symm)

/-- With the journal closed, two calls are enough to lose something. -/
theorem closed_loses (sound : Sound server.store) (closed : server.isOpen = false) (count : server.journalcount = 0) :
    ∃ final, journalMachine.Run Machine.Any server final ∧ ¬ Replays final.file final.store final.now := by
  by_cases replays : Replays server.file server.store server.now
  case neg => exact ⟨server, .refl server, replays⟩
  have few : server.journalcount < klineStoreCompactThresh := by
    rw [count]
    decide
  by_cases clash : ∃ old, server.store.lists.Holds old ∧ isKline old = true ∧ plainKline.Same old
  case neg =>
    apply add_loses (.refl server) sound closed few _ replays
    · exact fun old held stored _ same => clash ⟨old, held, isKline_of_storable stored, same⟩
    · exact fun other held kline same => clash ⟨other, held, kline, same⟩
  obtain ⟨old, held, kline, same⟩ := clash
  have removed : journalMachine.Run Machine.Any server (journalMachine.perform server (.remove old)) :=
    .tail (.refl server) ⟨held, kline, solid_of_same (sound.genuine old held kline) same⟩ trivial
  obtain ⟨file, still, counted, time⟩ := call_closed closed few (.remove old)
  have after : (server.call (.remove old)).store = server.store.removeUserban old.internalEnt := by
    rw [Server.call, Server.klinestoreRemove, journalWrite_store]
  have gone (other : Ban) (there : (server.call (.remove old)).store.lists.Holds other) (mine : isKline other = true) :
      ¬ plainKline.Same other := by
    intro alike
    rw [after] at there
    obtain ⟨there, other'⟩ := (sound.proper.holds_remove held).mp there
    exact other' (sound.unique other old there held mine kline (alike.symm.trans same))
  by_cases recorded : storable old = true ∧ old.expired server.now = false
  · refine ⟨_, removed, ?_⟩
    intro lying
    change Replays (server.call (.remove old)).file _ (server.call (.remove old)).now at lying
    rw [file, time] at lying
    obtain ⟨other, there, stored, -, shown⟩ := lying.agree replays held recorded.1 recorded.2
    exact gone other there (isKline_of_storable stored) (same.trans (same_of_entry shown).symm)
  · apply add_loses removed _ still (by change Server.journalcount (server.call _) < _; rw [counted, count]; decide) gone
    · change Replays (server.call (.remove old)).file server.store (server.call (.remove old)).now
      rw [file, time]
      exact replays
    · intro other there stored live alike
      obtain rfl := sound.unique other old there held (isKline_of_storable stored) kline (alike.symm.trans same)
      change Ban.expired other (server.call (.remove other)).now = false at live
      rw [time] at live
      exact recorded ⟨stored, live⟩
    · change Sound (server.call (.remove old)).store
      rw [after]
      exact sound.discard _

/-- A failed compaction does no harm exactly when it could not open its temporary file;
but at the start of the server every failure does. -/
theorem compact_durable (kept : Kept server) (fault : Fault) :
    (Durable server fault ↔ fault = .openTemp) ∧ ∀ conf, ¬ Durable (server.rebooted conf) fault := by
  have loses {failed : Server} (sound : Sound failed.store) (closed : (failed.compact (some fault)).isOpen = false) :
      ¬ Durable failed fault := by
    intro durable
    have sound' : Sound (failed.compact (some fault)).store := by rwa [compact_store]
    have count : (failed.compact (some fault)).journalcount = 0 := by cases fault <;> rfl
    obtain ⟨final, run, lost⟩ := closed_loses sound' closed count
    exact lost (durable final run)
  refine ⟨⟨?_, ?_⟩, ?_⟩
  · intro durable
    cases fault with
    | openTemp => rfl
    | rename => exact absurd durable (loses kept.sound rfl)
    | reopen => exact absurd durable (loses kept.sound rfl)
  · rintro rfl
    exact kept.openTemp_durable
  · intro conf
    obtain ⟨base, none⟩ := confStore_sound conf
    have sound := (kept.replays.replay base none (Int.le_refl _)).1
    refine loses sound ?_
    cases fault <;> rfl

/-- The journal holds a K-line, and does so after the failure. -/
theorem spamServer_durable : Durable spamServer .openTemp :=
  (compact_durable (Kept.run spamServer_run) .openTemp).1.mpr rfl

/-- The rename fails, and the next K-line is not recorded. -/
theorem rename_loses : ¬ Durable (Server.start 0) .rename := by
  intro durable
  have sound : Sound ((Server.start 0).compact (some .rename)).store := Sound.empty
  obtain ⟨final, run, lost⟩ := closed_loses sound rfl rfl
  exact lost (durable final run)

end SolidIrcd.Kline
