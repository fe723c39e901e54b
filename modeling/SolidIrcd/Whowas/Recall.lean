import SolidIrcd.Whowas.History

/-! Clients that take names, give them up and leave. What the ring shows is the end of the
whole record: its last NICKNAMEHISTORYLENGTH entries. -/

namespace SolidIrcd.Whowas

open Scan (Text)
open Function (update)

/-- The names of the clients, and the ring. -/
structure Server where
  names : ClientId → Text
  history : History

def Server.start : Server := ⟨fun _ => [], initwhowas⟩

/-- What may happen: a client gets its first name or changes it, or one of the two functions
is called for it. A name keeps NICKLEN characters. -/
inductive Action where
  | name (cptr : ClientId) (nick : Text)
  | nick (sptr : ClientId) (nick : Text) (now : Int)
  | add (cptr : ClientId) (now : Int) (online : Bool)
  | off (cptr : ClientId)
  deriving DecidableEq, Repr

def Server.perform (server : Server) : Action → Server
  | .name cptr nick => { server with names := update server.names cptr (nick.take nickLen) }
  | .nick sptr nick now =>
    { names := update server.names sptr (nick.take nickLen)
      history := server.history.addHistory sptr (server.names sptr) now true }
  | .add cptr now online => { server with history := server.history.addHistory cptr (server.names cptr) now online }
  | .off cptr => { server with history := server.history.offHistory cptr }

def Server.run (actions : List Action) : Server := actions.foldl Server.perform Server.start

/-- The whole record, the newest entry first: nothing is ever dropped from it. -/
structure Record where
  names : ClientId → Text
  log : List Entry

def Record.perform (record : Record) : Action → Record
  | .name cptr nick => { record with names := update record.names cptr (nick.take nickLen) }
  | .nick sptr nick now =>
    { names := update record.names sptr (nick.take nickLen)
      log := given sptr (record.names sptr) now true :: record.log }
  | .add cptr now online => { record with log := given cptr (record.names cptr) now online :: record.log }
  | .off cptr => { record with log := record.log.map (Entry.off cptr) }

def Record.run (actions : List Action) : Record := actions.foldl Record.perform ⟨fun _ => [], []⟩

/-- The server shows the end of the record. -/
structure Server.Follows (server : Server) (record : Record) (ring : Ring) : Prop where
  names : server.names = record.names
  short : ∀ cptr, (record.names cptr).length ≤ nickLen
  keeps : server.history.Keeps ring
  blank : server.history.Blank ring
  ends : ring.map Prod.snd = record.log.take nicknameHistoryLength

theorem Server.Follows.start : Server.start.Follows ⟨fun _ => [], []⟩ [] where
  names := rfl
  short := fun _ => Nat.zero_le _
  keeps :=
    { inside := by decide
      small := Nat.zero_le _
      order := rfl
      filed := fun _ member => absurd member List.not_mem_nil
      table := Chain.Shows.empty
      whowas := Chain.Shows.empty }
  blank := fun _ _ => rfl
  ends := rfl

variable {server : Server} {record : Record} {ring : Ring}

private theorem short_update (short : ∀ cptr : ClientId, (names cptr : Text).length ≤ nickLen) (cptr : ClientId)
    (nick : Text) : ∀ other, (update names cptr (nick.take nickLen) other).length ≤ nickLen := by
  intro other
  by_cases same : other = cptr
  · subst same
    rw [Function.update_self, List.length_take]
    exact Nat.min_le_left ..
  · rw [Function.update_of_ne same]
    exact short other

private theorem Server.Follows.added (follows : server.Follows record ring) (cptr : ClientId) (now : Int)
    (online : Bool) :
    ∃ ring', (server.history.addHistory cptr (server.names cptr) now online).Keeps ring' ∧
      (server.history.addHistory cptr (server.names cptr) now online).Blank ring' ∧
      ring'.map Prod.snd = (given cptr (record.names cptr) now online :: record.log).take nicknameHistoryLength := by
  rw [follows.names]
  obtain ⟨keeps, blank⟩ := follows.keeps.add follows.blank (follows.short cptr) cptr now online
  refine ⟨_, keeps, blank, ?_⟩
  rw [List.map_cons, List.map_take, follows.ends, List.take_take]
  rfl

theorem Server.Follows.perform (follows : server.Follows record ring) (action : Action) :
    ∃ ring', (server.perform action).Follows (record.perform action) ring' := by
  cases action with
  | name cptr nick =>
    refine ⟨ring, ?_, short_update follows.short cptr nick, follows.keeps, follows.blank, follows.ends⟩
    simp only [Server.perform, Record.perform, follows.names]
  | nick sptr nick now =>
    obtain ⟨ring', keeps, blank, ends⟩ := follows.added sptr now true
    refine ⟨ring', ?_, short_update follows.short sptr nick, keeps, blank, ends⟩
    simp only [Server.perform, Record.perform, follows.names]
  | add cptr now online =>
    obtain ⟨ring', keeps, blank, ends⟩ := follows.added cptr now online
    exact ⟨ring', follows.names, follows.short, keeps, blank, ends⟩
  | off cptr =>
    obtain ⟨keeps, blank⟩ := follows.keeps.off follows.blank cptr
    refine ⟨ring.off cptr, follows.names, follows.short, keeps, blank, ?_⟩
    have entries : (ring.off cptr).map Prod.snd = (ring.map Prod.snd).map (Entry.off cptr) := by
      simp [Ring.off]
    rw [entries, follows.ends, List.map_take]
    rfl

theorem Server.Follows.run (follows : server.Follows record ring) (actions : List Action) :
    ∃ ring', (actions.foldl Server.perform server).Follows (actions.foldl Record.perform record) ring' := by
  induction actions generalizing server record ring with
  | nil => exact ⟨ring, follows⟩
  | cons action actions ih =>
    obtain ⟨next, step⟩ := follows.perform action
    exact ih step

/-- The list of a bucket of WHOWASHASH. -/
def History.bucket (history : History) (hashv : Nat) : List Nat :=
  history.table.walk nicknameHistoryLength (history.table.head hashv)

/-- The list `whowas` of a client. -/
def History.clist (history : History) (cptr : ClientId) : List Nat :=
  history.whowas.walk nicknameHistoryLength (history.whowas.head cptr)

/-- How many slots were filled since this one. -/
def History.age (history : History) (slot : Nat) : Nat :=
  (history.whowasNext + nicknameHistoryLength - 1 - slot) % nicknameHistoryLength

/-- Both families of lists are as they should be. -/
structure History.Threaded (history : History) : Prop where
  hashv : ∀ slot hashv, (history.slots slot).hashv = some hashv → hashv = hashWhowasName (history.slots slot).name
  table : ∀ slot hashv, (history.bucket hashv).count slot = if (history.slots slot).hashv = some hashv then 1 else 0
  newest : ∀ hashv, (history.bucket hashv).Pairwise fun first second => history.age first < history.age second
  whowas : ∀ slot cptr, (history.clist cptr).count slot = if (history.slots slot).online = some cptr then 1 else 0

theorem slotOf_slotOf (inside : next < nicknameHistoryLength) (recent : age < nicknameHistoryLength) :
    slotOf next (slotOf next age) = age := by
  rw [slotOf_eq inside (slotOf_lt next age), slotOf_eq inside recent]
  split <;> split <;> omega

section Kept

variable {history : History} (keeps : history.Keeps ring) (blank : history.Blank ring)

include keeps blank

/-- A slot has a key just when it stands in the ring with an entry of that key. -/
private theorem slot_key (key : Entry → Option Nat) (field : Slot → Option Nat)
    (agree : ∀ entry : Entry, field entry.slot = key entry) (none : field ⟨none, [], 0, none⟩ = none)
    (slot wanted : Nat) : field (history.slots slot) = some wanted ↔ slot ∈ ring.listed key wanted := by
  rw [mem_listed]
  constructor
  · intro own
    by_cases used : slot ∈ ring.map Prod.fst
    · obtain ⟨item, member, rfl⟩ := List.mem_map.mp used
      rw [keeps.filed item member, agree] at own
      exact ⟨item.2, member, own⟩
    · rw [blank slot used, none] at own
      cases own
  · rintro ⟨entry, member, own⟩
    rw [keeps.filed _ member, agree]
    exact own

private theorem count_listed (key : Entry → Option Nat) (field : Slot → Option Nat)
    (agree : ∀ entry : Entry, field entry.slot = key entry) (none : field ⟨none, [], 0, none⟩ = none)
    (once : (ring.listed key wanted).Nodup) (slot : Nat) :
    (ring.listed key wanted).count slot = if field (history.slots slot) = some wanted then 1 else 0 := by
  have here := slot_key keeps blank key field agree none slot wanted
  rw [once.count]
  by_cases member : slot ∈ ring.listed key wanted
  · rw [if_pos member, if_pos (here.mpr member)]
  · rw [if_neg member, if_neg fun own => member (here.mp own)]

theorem History.Keeps.threaded : history.Threaded where
  hashv := by
    intro slot hashv own
    by_cases used : slot ∈ ring.map Prod.fst
    · obtain ⟨item, member, rfl⟩ := List.mem_map.mp used
      rw [keeps.filed item member] at own ⊢
      exact (Option.some.inj own).symm
    · rw [blank slot used] at own
      cases own
  table := by
    intro slot hashv
    rw [History.bucket, walk_table keeps]
    exact count_listed keeps blank Entry.hashv Slot.hashv (fun _ => rfl) rfl (keeps.table.once hashv) slot
  newest := by
    intro hashv
    rw [History.bucket, walk_table keeps]
    have sorted : (ring.map Prod.fst).Pairwise fun first second => history.age first < history.age second := by
      rw [keeps.order, List.pairwise_map]
      refine List.pairwise_lt_range.imp_of_mem ?_
      intro first second recent recent' less
      have small := keeps.small
      rw [List.mem_range] at recent recent'
      have one : history.age (slotOf history.whowasNext first) = first :=
        slotOf_slotOf keeps.inside (by omega)
      have two : history.age (slotOf history.whowasNext second) = second :=
        slotOf_slotOf keeps.inside (by omega)
      rw [one, two]
      exact less
    exact sorted.sublist (List.filter_sublist.map Prod.fst)
  whowas := by
    intro slot cptr
    rw [History.clist, walk_whowas keeps]
    exact count_listed keeps blank Entry.online Slot.online (fun _ => rfl) rfl (keeps.whowas.once cptr) slot

/-- After `off_history` no slot refers to the client. -/
theorem off_forgets (cptr : ClientId) (slot : Nat) : ((history.offHistory cptr).slots slot).online ≠ some cptr := by
  obtain ⟨kept, unused⟩ := keeps.off blank cptr
  intro own
  obtain ⟨entry, member, online⟩ :=
    mem_listed.mp ((slot_key kept unused Entry.online Slot.online (fun _ => rfl) rfl slot cptr).mp own)
  obtain ⟨item, -, same⟩ := List.mem_map.mp member
  obtain rfl := (Prod.mk.inj same).2
  unfold Entry.off at online
  split at online
  · cases online
  · contradiction

end Kept

theorem getHistory_run (actions : List Action) (nick : Text) (now timelimit : Int) :
    (Server.run actions).history.getHistory nick now timelimit =
      lastHolder ((Record.run actions).log.take nicknameHistoryLength) nick (now - timelimit) := by
  obtain ⟨ring, follows⟩ := Server.Follows.start.run actions
  rw [Record.run, ← follows.ends]
  exact getHistory_eq follows.keeps nick now timelimit

/-- After every run both families of lists are in order, a client that is off is not referred
to, and `get_history` knows the last NICKNAMEHISTORYLENGTH names that were given up. -/
theorem whowas_run (actions : List Action) :
    (Server.run actions).history.Threaded ∧
      (∀ cptr slot, (((Server.run actions).perform (.off cptr)).history.slots slot).online ≠ some cptr) ∧
      ∀ nick now timelimit, (Server.run actions).history.getHistory nick now timelimit =
        lastHolder ((Record.run actions).log.take nicknameHistoryLength) nick (now - timelimit) := by
  obtain ⟨ring, follows⟩ := Server.Follows.start.run actions
  refine ⟨follows.keeps.threaded follows.blank, ?_, getHistory_run actions⟩
  intro cptr slot
  exact off_forgets follows.keeps follows.blank cptr slot

/-- Client 1 gives up the name `a`, then client 2 changes its name until the ring is full. -/
def fullRing : List Action :=
  .name 1 ['a'] :: .name 2 ['b'] :: .nick 1 ['c'] 0 :: List.replicate nicknameHistoryLength (.nick 2 ['b'] 0)

private theorem replicate_log (count : Nat) (record : Record) (own : record.names 2 = ['b']) :
    ((List.replicate count (Action.nick 2 ['b'] 0)).foldl Record.perform record).log =
      List.replicate count ⟨['b'], 0, some 2⟩ ++ record.log := by
  induction count generalizing record with
  | zero => rfl
  | succ count ih =>
    have still : (record.perform (.nick 2 ['b'] 0)).names 2 = ['b'] := by
      simp only [Record.perform, Function.update_self]
      rfl
    have first : (record.perform (.nick 2 ['b'] 0)).log = ⟨['b'], 0, some 2⟩ :: record.log := by
      simp only [Record.perform, given, own]
      rfl
    rw [List.replicate_succ, List.foldl_cons, ih _ still, first, List.replicate_succ', List.append_assoc]
    rfl

/-- Client 1 has just given up `a` and is online, but its slot is in use again. -/
theorem fullRing_forgets :
    lastHolder (Record.run fullRing).log ['a'] (0 - 90) = some 1 ∧
      (Server.run fullRing).history.getHistory ['a'] 0 90 = none := by
  have log : (Record.run fullRing).log = List.replicate nicknameHistoryLength ⟨['b'], 0, some 2⟩ ++
      [⟨['a'], 0, some 1⟩] := by
    rw [Record.run, fullRing, List.foldl_cons, List.foldl_cons, List.foldl_cons, replicate_log]
    · rfl
    · rfl
  rw [getHistory_run, log]
  have other : mycmp ['a'] ['b'] = false := by decide
  constructor
  · rw [lastHolder, List.find?_append, List.find?_replicate]
    simp [other]
  · rw [lastHolder, List.take_left' (List.length_replicate ..), List.find?_replicate]
    simp [other]

end SolidIrcd.Whowas
