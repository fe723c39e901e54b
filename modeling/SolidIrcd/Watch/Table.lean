import SolidIrcd.Hash
import SolidIrcd.Lib.Mirror
import Mathlib.Logic.Function.Basic

/-! The WATCH lists of `hash.c`: a header for each nickname somebody watches, filed by
its hash, with links both from the header to the watching clients and back. -/

namespace SolidIrcd.Watch

open Scan (Text)
open Function (update)
open Mirror (Mirrored)

/-- An `aClient` pointer. -/
abbrev ClientId := Nat

/-- An `aWatch` pointer. -/
abbrev Addr := Nat

def watchHashSize : Nat := 10007

def maxWatch : Nat := 128

/-- `struct Watch`, without its place in the bucket. -/
structure Header where
  nick : Text
  lasttime : Nat
  watch : List ClientId
  deriving DecidableEq, Repr

/-- `watchTable` with the headers that are allocated, and the two fields of the clients. -/
structure Table where
  watchTable : Nat → List Addr
  headers : Addr → Option Header
  watch : ClientId → List Addr
  watches : ClientId → Int

def Table.empty : Table := ⟨fun _ => [], fun _ => none, fun _ => [], fun _ => 0⟩

/-- The bucket of a nickname. -/
def bucket (nick : Text) : Nat := hashNickName nick % watchHashSize

/-- `hash_get_watch`, and the loop the other functions begin with. -/
def Table.hashGetWatch (table : Table) (name : Text) : Option Addr :=
  (table.watchTable (bucket name)).find? fun anptr => (table.headers anptr).any fun header => mycmp header.nick name

/-- The clients on the list of a header. -/
def Table.watchers (table : Table) (anptr : Addr) : List ClientId :=
  match table.headers anptr with
  | none => []
  | some header => header.watch

def Table.setWatchers (table : Table) (anptr : Addr) (watch : List ClientId) : Table :=
  { table with headers := update table.headers anptr ((table.headers anptr).map fun header => { header with watch }) }

/-- A new header at the front of its bucket, where `MyMalloc` found room for it. -/
def Table.makeHeader (table : Table) (anptr : Addr) (timeofday : Nat) (nick : Text) : Table :=
  { table with
    watchTable := update table.watchTable (bucket nick) (anptr :: table.watchTable (bucket nick))
    headers := update table.headers anptr (some ⟨nick, timeofday, []⟩) }

/-- A header is taken out of a bucket and freed. -/
def Table.dropHeader (table : Table) (hashv : Nat) (anptr : Addr) : Table :=
  { table with
    watchTable := update table.watchTable hashv ((table.watchTable hashv).erase anptr)
    headers := update table.headers anptr none }

/-- A client is put on the list of a header it is not on yet. -/
def Table.enlist (table : Table) (cptr : ClientId) (anptr : Addr) : Table :=
  if cptr ∈ table.watchers anptr then table
  else
    let table := table.setWatchers anptr (cptr :: table.watchers anptr)
    { table with
      watch := update table.watch cptr (anptr :: table.watch cptr)
      watches := update table.watches cptr (table.watches cptr + 1) }

/-- `add_to_watch_hash_table`; `room` is where a new header would be. -/
def Table.addToWatchHashTable (table : Table) (room : Addr) (timeofday : Nat) (nick : Text) (cptr : ClientId) : Table :=
  match table.hashGetWatch nick with
  | some anptr => table.enlist cptr anptr
  | none => (table.makeHeader room timeofday nick).enlist cptr room

/-- A client is taken off the list of a header, which goes when it was the last. -/
def Table.release (table : Table) (cptr : ClientId) (hashv : Nat) (anptr : Addr) : Table :=
  let table := table.setWatchers anptr ((table.watchers anptr).erase cptr)
  if table.watchers anptr = [] then table.dropHeader hashv anptr else table

/-- `del_from_watch_hash_table`. -/
def Table.delFromWatchHashTable (table : Table) (nick : Text) (cptr : ClientId) : Table :=
  match table.hashGetWatch nick with
  | none => table
  | some anptr =>
    if cptr ∈ table.watchers anptr then
      let table := { table with watch := update table.watch cptr ((table.watch cptr).erase anptr) }
      let table := table.release cptr (bucket nick) anptr
      { table with watches := update table.watches cptr (table.watches cptr - 1) }
    else table

/-- One turn of the loop of `hash_del_watch_list`. -/
def Table.breakLink (cptr : ClientId) (table : Table) (anptr : Addr) : Table :=
  match table.headers anptr with
  | none => table
  | some header => if cptr ∈ header.watch then table.release cptr (bucket header.nick) anptr else table

/-- `hash_del_watch_list`. -/
def Table.hashDelWatchList (table : Table) (cptr : ClientId) : Table :=
  match table.watch cptr with
  | [] => table
  | np =>
    let table := np.foldl (Table.breakLink cptr) { table with watch := update table.watch cptr [] }
    { table with watches := update table.watches cptr 0 }

def Table.touch (table : Table) (anptr : Addr) (lasttime : Nat) : Table :=
  { table with headers := update table.headers anptr ((table.headers anptr).map fun header => { header with lasttime }) }

/-- `hash_check_watch`: besides the notices, the time of the last change. -/
def Table.hashCheckWatch (table : Table) (name : Text) (now : Nat) : Table :=
  match table.hashGetWatch name with
  | none => table
  | some anptr => table.touch anptr now

/-- The headers are in the buckets of their nicknames, one for each nickname. -/
structure Table.Filed (table : Table) : Prop where
  filed : ∀ hashv anptr, anptr ∈ table.watchTable hashv ↔
    ∃ header, table.headers anptr = some header ∧ bucket header.nick = hashv
  once : ∀ hashv, (table.watchTable hashv).Nodup
  single : ∀ first second header other, table.headers first = some header → table.headers second = some other →
    mycmp header.nick other.nick = true → first = second

/-- What holds of the table between two commands. -/
structure Table.Sound (table : Table) : Prop extends table.Filed where
  mirrored : Mirrored table.watch table.watchers
  watched : ∀ anptr, table.headers anptr ≠ none → table.watchers anptr ≠ []
  counted : ∀ cptr, table.watches cptr = (table.watch cptr).length

theorem bucket_congr (same : mycmp first second = true) : bucket first = bucket second := by
  rw [bucket, bucket, hashNickName_congr same]

theorem Table.sound_empty : Table.empty.Sound where
  filed := by simp [Table.empty]
  once := fun _ => List.nodup_nil
  single := by simp [Table.empty]
  mirrored := Mirrored.empty
  watched := by simp [Table.empty]
  counted := by simp [Table.empty]

section

variable {table : Table}

theorem watchers_of_some (found : table.headers anptr = some header) : table.watchers anptr = header.watch := by
  rw [Table.watchers, found]

theorem watchers_of_none (missing : table.headers anptr = none) : table.watchers anptr = [] := by
  rw [Table.watchers, missing]

theorem live_of_mem (member : cptr ∈ table.watchers anptr) : ∃ header, table.headers anptr = some header := by
  cases found : table.headers anptr with
  | none =>
    rw [watchers_of_none found] at member
    exact absurd member List.not_mem_nil
  | some header => exact ⟨header, rfl⟩

theorem hashGetWatch_some (found : table.hashGetWatch name = some anptr) :
    ∃ header, table.headers anptr = some header ∧ mycmp header.nick name = true := by
  have test := List.find?_some found
  rwa [Option.any_eq_true] at test

theorem Table.Filed.hashGetWatch_none (filed : table.Filed) (missing : table.hashGetWatch name = none)
    (live : table.headers anptr = some header) : mycmp header.nick name = false := by
  cases same : mycmp header.nick name with
  | false => rfl
  | true =>
    have inside : anptr ∈ table.watchTable (bucket name) :=
      (filed.filed _ _).mpr ⟨header, live, bucket_congr same⟩
    have failed := List.find?_eq_none.mp missing anptr inside
    simp [live, same] at failed

/-! Headers come and go. -/

theorem watchers_makeHeader (free : table.headers room = none) (timeofday : Nat) (nick : Text) :
    (table.makeHeader room timeofday nick).watchers = table.watchers := by
  funext anptr
  by_cases same : anptr = room
  · subst same
    rw [watchers_of_none free]
    simp [Table.watchers, Table.makeHeader]
  · simp [Table.watchers, Table.makeHeader, same]

theorem Table.Filed.makeHeader (filed : table.Filed) (free : table.headers room = none)
    (missing : table.hashGetWatch nick = none) (timeofday : Nat) :
    (table.makeHeader room timeofday nick).Filed := by
  have absent (hashv : Nat) : room ∉ table.watchTable hashv := by
    intro member
    obtain ⟨header, live, -⟩ := (filed.filed _ _).mp member
    rw [free] at live
    exact nomatch live
  refine ⟨?_, ?_, ?_⟩
  · intro hashv anptr
    by_cases same : anptr = room
    · subst same
      by_cases here : hashv = bucket nick
      · subst here
        simp [Table.makeHeader]
      · simp [Table.makeHeader, here, absent hashv, Ne.symm here]
    · have kept : (table.makeHeader room timeofday nick).headers anptr = table.headers anptr := by
        simp [Table.makeHeader, same]
      rw [kept, ← filed.filed]
      by_cases here : hashv = bucket nick
      · subst here
        simp [Table.makeHeader, same]
      · simp [Table.makeHeader, here]
  · intro hashv
    by_cases here : hashv = bucket nick
    · subst here
      simpa [Table.makeHeader] using ⟨absent _, filed.once _⟩
    · simpa [Table.makeHeader, here] using filed.once hashv
  · intro first second header other live liveOther same
    by_cases one : first = room <;> by_cases two : second = room
    · rw [one, two]
    · subst one
      simp only [Table.makeHeader, Function.update_self, Option.some.injEq] at live
      simp only [Table.makeHeader, Function.update_of_ne two] at liveOther
      subst live
      have differ := filed.hashGetWatch_none missing liveOther
      rw [mycmp_comm] at differ
      exact absurd same (by simp [differ])
    · subst two
      simp only [Table.makeHeader, Function.update_self, Option.some.injEq] at liveOther
      simp only [Table.makeHeader, Function.update_of_ne one] at live
      subst liveOther
      have differ := filed.hashGetWatch_none missing live
      exact absurd same (by simp [differ])
    · simp only [Table.makeHeader, Function.update_of_ne one] at live
      simp only [Table.makeHeader, Function.update_of_ne two] at liveOther
      exact filed.single _ _ _ _ live liveOther same

theorem watchers_setWatchers (live : table.headers anptr = some header) (watch : List ClientId) :
    (table.setWatchers anptr watch).watchers = update table.watchers anptr watch := by
  funext other
  by_cases same : other = anptr
  · subst same
    simp [Table.watchers, Table.setWatchers, live]
  · simp [Table.watchers, Table.setWatchers, same]

/-- Where the headers are filed depends on their nicknames alone. -/
theorem Table.Filed.of_nicks {after : Table} (filed : table.Filed) (buckets : after.watchTable = table.watchTable)
    (nicks : ∀ anptr, (after.headers anptr).map Header.nick = (table.headers anptr).map Header.nick) :
    after.Filed := by
  have known {anptr : Addr} {header : Header} (live : after.headers anptr = some header) :
      ∃ old, table.headers anptr = some old ∧ old.nick = header.nick := by
    have same := nicks anptr
    rw [live, Option.map_some] at same
    exact Option.map_eq_some_iff.mp same.symm
  refine ⟨?_, buckets ▸ filed.once, ?_⟩
  · intro hashv anptr
    rw [buckets, filed.filed]
    constructor
    · rintro ⟨header, live, here⟩
      have same := nicks anptr
      rw [live, Option.map_some] at same
      obtain ⟨new, later, equal⟩ := Option.map_eq_some_iff.mp same
      exact ⟨new, later, by rw [equal, here]⟩
    · rintro ⟨header, live, here⟩
      obtain ⟨old, before, same⟩ := known live
      exact ⟨old, before, by rw [same, here]⟩
  · intro first second header other live liveOther same
    obtain ⟨old, before, equal⟩ := known live
    obtain ⟨oldOther, beforeOther, equalOther⟩ := known liveOther
    exact filed.single _ _ _ _ before beforeOther (by rw [equal, equalOther, same])

theorem Table.Filed.setWatchers (filed : table.Filed) (anptr : Addr) (watch : List ClientId) :
    (table.setWatchers anptr watch).Filed := by
  refine filed.of_nicks rfl fun other => ?_
  by_cases same : other = anptr
  · subst same
    cases live : table.headers other <;> simp [Table.setWatchers, live]
  · simp [Table.setWatchers, same]

theorem Table.Filed.dropHeader (filed : table.Filed) (live : table.headers anptr = some header) :
    (table.dropHeader (bucket header.nick) anptr).Filed := by
  have kept {other : Addr} (differ : other ≠ anptr) :
      (table.dropHeader (bucket header.nick) anptr).headers other = table.headers other := by
    simp [Table.dropHeader, differ]
  refine ⟨?_, ?_, ?_⟩
  · intro hashv other
    by_cases same : other = anptr
    · subst same
      by_cases here : hashv = bucket header.nick
      · subst here
        simp [Table.dropHeader, (filed.once _).mem_erase_iff]
      · have absent : other ∉ table.watchTable hashv := by
          intro member
          obtain ⟨found, again, elsewhere⟩ := (filed.filed _ _).mp member
          rw [live, Option.some.injEq] at again
          subst again
          exact here elsewhere.symm
        simp [Table.dropHeader, here, absent]
    · rw [kept same, ← filed.filed]
      by_cases here : hashv = bucket header.nick
      · subst here
        simp [Table.dropHeader, List.mem_erase_of_ne same]
      · simp [Table.dropHeader, here]
  · intro hashv
    by_cases here : hashv = bucket header.nick
    · subst here
      simpa [Table.dropHeader] using (filed.once _).erase anptr
    · simpa [Table.dropHeader, here] using filed.once hashv
  · intro first second header other live liveOther same
    have one : first ≠ anptr := by
      rintro rfl
      simp [Table.dropHeader] at live
    have two : second ≠ anptr := by
      rintro rfl
      simp [Table.dropHeader] at liveOther
    rw [kept one] at live
    rw [kept two] at liveOther
    exact filed.single _ _ _ _ live liveOther same

/-! Clients on and off the lists. -/

theorem enlist_sound (filed : table.Filed) (mirrored : Mirrored table.watch table.watchers)
    (counted : ∀ cptr, table.watches cptr = (table.watch cptr).length)
    (watched : ∀ other, other ≠ anptr → table.headers other ≠ none → table.watchers other ≠ [])
    (live : table.headers anptr = some header) (cptr : ClientId) : (table.enlist cptr anptr).Sound := by
  unfold Table.enlist
  split
  next member =>
    refine ⟨filed, mirrored, ?_, counted⟩
    intro other some
    by_cases same : other = anptr
    · subst same
      exact List.ne_nil_of_mem member
    · exact watched other same some
  next absent =>
    have watchers := watchers_setWatchers live (cptr :: table.watchers anptr)
    have new : anptr ∉ table.watch cptr := fun member => absent ((mirrored.both _ _).mp member)
    refine ⟨?_, ?_, ?_, ?_⟩
    · obtain ⟨filed', once, single⟩ := filed.setWatchers anptr (cptr :: table.watchers anptr)
      exact ⟨filed', once, single⟩
    · apply mirrored.link new
      · simp [Table.setWatchers]
      · intro other differ
        simp [Table.setWatchers, differ]
      · show (Table.watchers (table.setWatchers anptr (cptr :: table.watchers anptr)) anptr).Perm _
        simp [watchers]
      · intro other differ
        show Table.watchers (table.setWatchers anptr (cptr :: table.watchers anptr)) other = _
        simp [watchers, differ]
    · intro other some
      show Table.watchers (table.setWatchers anptr (cptr :: table.watchers anptr)) other ≠ []
      rw [watchers]
      by_cases same : other = anptr
      · simp [same]
      · rw [Function.update_of_ne same]
        refine watched other same fun none => some ?_
        simpa [Table.setWatchers, same] using none
    · intro other
      by_cases same : other = cptr
      · subst same
        simp [Table.setWatchers, counted]
      · simpa [Table.setWatchers, same] using counted other

theorem Table.Sound.addToWatchHashTable (sound : table.Sound) (free : table.headers room = none) (timeofday : Nat)
    (nick : Text) (cptr : ClientId) : (table.addToWatchHashTable room timeofday nick cptr).Sound := by
  unfold Table.addToWatchHashTable
  split
  next anptr found =>
    obtain ⟨header, live, -⟩ := hashGetWatch_some found
    exact enlist_sound sound.toFiled sound.mirrored sound.counted (fun other _ => sound.watched other) live cptr
  next missing =>
    have watchers := watchers_makeHeader free timeofday nick
    have live : (table.makeHeader room timeofday nick).headers room = some ⟨nick, timeofday, []⟩ := by
      simp [Table.makeHeader]
    refine enlist_sound (sound.toFiled.makeHeader free missing timeofday) ?_ sound.counted ?_ live cptr
    · rw [watchers]
      exact sound.mirrored
    · intro other differ some
      rw [watchers]
      refine sound.watched other fun none => some ?_
      simpa [Table.makeHeader, differ] using none

theorem watch_release (table : Table) (cptr : ClientId) (hashv : Nat) (anptr : Addr) :
    (table.release cptr hashv anptr).watch = table.watch ∧ (table.release cptr hashv anptr).watches = table.watches := by
  unfold Table.release
  simp only
  split <;> exact ⟨rfl, rfl⟩

/-- One client leaves one header; `lists` are the lists the clients have by then. -/
theorem release_sound {lists : ClientId → List Addr} (filed : table.Filed) (mirrored : Mirrored lists table.watchers)
    (watched : ∀ anptr, table.headers anptr ≠ none → table.watchers anptr ≠ [])
    (live : table.headers anptr = some header) (cptr : ClientId) :
    (table.release cptr (bucket header.nick) anptr).Filed ∧
      Mirrored (update lists cptr ((lists cptr).erase anptr)) (table.release cptr (bucket header.nick) anptr).watchers ∧
      ∀ anptr', (table.release cptr (bucket header.nick) anptr).headers anptr' ≠ none →
        (table.release cptr (bucket header.nick) anptr).watchers anptr' ≠ [] := by
  have watchers := watchers_setWatchers live ((table.watchers anptr).erase cptr)
  have filed' := filed.setWatchers anptr ((table.watchers anptr).erase cptr)
  have mirrored' : Mirrored (update lists cptr ((lists cptr).erase anptr))
      (table.setWatchers anptr ((table.watchers anptr).erase cptr)).watchers := by
    rw [watchers]
    apply mirrored.unlink
    · exact Function.update_self ..
    · exact fun other differ => Function.update_of_ne differ ..
    · exact Function.update_self ..
    · exact fun other differ => Function.update_of_ne differ ..
  have live' : (table.setWatchers anptr ((table.watchers anptr).erase cptr)).headers anptr =
      some { header with watch := (table.watchers anptr).erase cptr } := by
    simp [Table.setWatchers, live]
  unfold Table.release
  simp only
  split
  next empty =>
    have dropped := filed'.dropHeader live'
    refine ⟨dropped, ?_, ?_⟩
    · refine mirrored'.congr (fun _ => rfl) fun other => ?_
      by_cases same : other = anptr
      · subst same
        rw [empty]
        simp [Table.watchers, Table.dropHeader]
      · simp [Table.watchers, Table.dropHeader, same]
    · intro other some
      by_cases same : other = anptr
      · subst same
        simp [Table.dropHeader] at some
      · have others : table.watchers other ≠ [] := by
          refine watched other fun none => some ?_
          simp [Table.dropHeader, Table.setWatchers, same, none]
        simpa [Table.watchers, Table.dropHeader, Table.setWatchers, same] using others
  next left =>
    refine ⟨filed', mirrored', ?_⟩
    intro other some
    by_cases same : other = anptr
    · subst same
      exact left
    · rw [watchers, Function.update_of_ne same]
      refine watched other fun none => some ?_
      simpa [Table.setWatchers, same] using none

theorem Table.Sound.delFromWatchHashTable (sound : table.Sound) (nick : Text) (cptr : ClientId) :
    (table.delFromWatchHashTable nick cptr).Sound := by
  unfold Table.delFromWatchHashTable
  split
  · exact sound
  next anptr found =>
    split
    next member =>
      obtain ⟨header, live, same⟩ := hashGetWatch_some found
      have inside : anptr ∈ table.watch cptr := (sound.mirrored.both _ _).mpr member
      have filed : Table.Filed { table with watch := update table.watch cptr ((table.watch cptr).erase anptr) } :=
        ⟨sound.filed, sound.once, sound.single⟩
      obtain ⟨⟨filed', once, single⟩, mirrored, watched⟩ := release_sound filed sound.mirrored sound.watched live cptr
      obtain ⟨watch, watches⟩ := watch_release
        { table with watch := update table.watch cptr ((table.watch cptr).erase anptr) } cptr (bucket header.nick) anptr
      rw [← bucket_congr same]
      refine ⟨⟨filed', once, single⟩, ?_, watched, ?_⟩
      · simp only [watch]
        exact mirrored
      · intro other
        simp only [watch, watches]
        by_cases self : other = cptr
        · subst self
          have positive := List.length_pos_of_mem inside
          rw [Function.update_self, Function.update_self, sound.counted, List.length_erase_of_mem inside]
          omega
        · rw [Function.update_of_ne self, Function.update_of_ne self]
          exact sound.counted other
    · exact sound

/-- The loop over the list of a client; `np` is what is left of it. -/
theorem breakLinks_sound (lists : ClientId → List Addr) (np : List Addr) (filed : table.Filed)
    (mirrored : Mirrored (update lists cptr np) table.watchers)
    (watched : ∀ anptr, table.headers anptr ≠ none → table.watchers anptr ≠ []) :
    (np.foldl (Table.breakLink cptr) table).Filed ∧
      Mirrored (update lists cptr []) (np.foldl (Table.breakLink cptr) table).watchers ∧
      (∀ anptr, (np.foldl (Table.breakLink cptr) table).headers anptr ≠ none →
        (np.foldl (Table.breakLink cptr) table).watchers anptr ≠ []) ∧
      (np.foldl (Table.breakLink cptr) table).watch = table.watch ∧
      (np.foldl (Table.breakLink cptr) table).watches = table.watches := by
  induction np generalizing table with
  | nil => exact ⟨filed, mirrored, watched, rfl, rfl⟩
  | cons anptr np ih =>
    have member : cptr ∈ table.watchers anptr := (mirrored.both _ _).mp (by simp)
    obtain ⟨header, live⟩ := live_of_mem member
    have taken : Table.breakLink cptr table anptr = table.release cptr (bucket header.nick) anptr := by
      rw [watchers_of_some live] at member
      simp [Table.breakLink, live, member]
    obtain ⟨filed', mirrored', watched'⟩ := release_sound filed mirrored watched live cptr
    obtain ⟨watch, watches⟩ := watch_release table cptr (bucket header.nick) anptr
    rw [List.foldl_cons, taken, ← watch, ← watches]
    refine ih filed' ?_ watched'
    simpa using mirrored'

/-- The whole list of a client. -/
theorem hashDelWatchList_spec (sound : table.Sound) (cptr : ClientId) :
    (table.hashDelWatchList cptr).Sound ∧ (table.hashDelWatchList cptr).watch = update table.watch cptr [] := by
  unfold Table.hashDelWatchList
  split
  next empty => exact ⟨sound, by rw [← empty, Function.update_eq_self]⟩
  next np _ =>
    have broken : Table.Filed { table with watch := update table.watch cptr [] } :=
      ⟨sound.filed, sound.once, sound.single⟩
    have mirrored : Mirrored (update table.watch cptr (table.watch cptr)) table.watchers := by
      rw [Function.update_eq_self]
      exact sound.mirrored
    obtain ⟨⟨filed, once, single⟩, mirrored', watched, watch, watches⟩ :=
      breakLinks_sound table.watch (table.watch cptr) broken mirrored sound.watched
    refine ⟨⟨⟨filed, once, single⟩, ?_, watched, ?_⟩, watch⟩
    · simp only [watch]
      exact mirrored'
    · intro other
      simp only [watch, watches]
      by_cases self : other = cptr
      · subst self
        simp
      · rw [Function.update_of_ne self, Function.update_of_ne self]
        exact sound.counted other

theorem Table.Sound.hashCheckWatch (sound : table.Sound) (name : Text) (now : Nat) :
    (table.hashCheckWatch name now).Sound := by
  unfold Table.hashCheckWatch
  split
  · exact sound
  next anptr _ =>
    have watchers : (table.touch anptr now).watchers = table.watchers := by
      funext other
      by_cases same : other = anptr
      · subst same
        cases live : table.headers other <;> simp [Table.watchers, Table.touch, live]
      · simp [Table.watchers, Table.touch, same]
    refine ⟨sound.toFiled.of_nicks rfl fun other => ?_, ?_, ?_, sound.counted⟩
    · by_cases same : other = anptr
      · subst same
        cases live : table.headers other <;> simp [Table.touch, live]
      · simp [Table.touch, same]
    · rw [watchers]
      exact sound.mirrored
    · intro other some
      rw [watchers]
      refine sound.watched other fun none => some ?_
      by_cases same : other = anptr
      · subst same
        simp [Table.touch, none]
      · simp [Table.touch, same, none]

end

end SolidIrcd.Watch
