import SolidIrcd.Lib.Machine
import SolidIrcd.Throttle.HashTable
import SolidIrcd.Throttle.Limiter

/-! Where `throttle.c` keeps its records: a hash table and a linked list of pointers, and a counter, which every function
changes by hand. The list of records that the limiter works on is the linked list. -/

namespace SolidIrcd.Throttling

open Function (update)
open Scan (Text)

def throttleHashSize : Nat := 25147

/-- `throttle_hash`, the records that are allocated, `throttles` and `numthrottles`. -/
structure Tables where
  throttleHash : HashTable
  heap : Addr → Option Throttle
  throttles : List Addr
  numthrottles : Int

/-- `throttle_init`. -/
def Tables.init : Tables := ⟨createHashTable throttleHashSize hostIpLen false (· == ·), fun _ => none, [], 0⟩

/-- The key of an entry, as it stands in memory. -/
def key (heap : Addr → Option Throttle) (tp : Addr) : Text := (heap tp).elim [] Throttle.addr

def Tables.hashFind (tables : Tables) (host : Text) : Option Addr := tables.throttleHash.hashFind (key tables.heap) host

/-- A new record, where `throttle_alloc` found room. -/
def Tables.add (tables : Tables) (room : Addr) (tp : Throttle) : Tables :=
  let heap := update tables.heap room (some tp)
  { throttleHash := tables.throttleHash.hashInsert (key heap) room
    heap
    throttles := room :: tables.throttles
    numthrottles := tables.numthrottles + 1 }

/-- A record changes where it stands. -/
def Tables.write (tables : Tables) (place : Addr) (tp : Throttle) : Tables :=
  { tables with heap := update tables.heap place (some tp) }

/-- LIST_REMOVE, `hash_delete` and `throttle_free`. -/
def Tables.drop (tables : Tables) (tp : Addr) : Tables :=
  { throttleHash := tables.throttleHash.hashDelete (key tables.heap) tp
    heap := update tables.heap tp none
    throttles := tables.throttles.erase tp
    numthrottles := tables.numthrottles - 1 }

/-- `throttle_remove`. -/
def Tables.throttleRemove (tables : Tables) (host : Text) : Tables :=
  match tables.hashFind host with
  | none => tables
  | some tp => tables.drop tp

/-- The next connection of the host is refused. -/
def Throttle.forced (tp : Throttle) (now : Int) : Throttle := { tp with conns := -1, last := now, first := now }

/-- `throttle_force`. -/
def Tables.throttleForce (tables : Tables) (room : Addr) (host : Text) (now : Int) : Tables :=
  match tables.hashFind host with
  | none => (tables.add room (.fresh host now)).write room ((Throttle.fresh host now).forced now)
  | some place =>
    match tables.heap place with
    | none => tables
    | some tp => tables.write place (tp.forced now)

/-- `throttle_check`. -/
def Tables.throttleCheck (tables : Tables) (settings : Settings) (throttleEnable : Bool)
    (room : Addr) (host : Text) (isLocal : Bool)
    (now sotime : Int) : Bool × Tables :=
  if throttleEnable = false then (true, tables)
  else if isLocal = false ∧ now - sotime > settings.ttime then (true, tables)
  else
    let sotime := if sotime > now then now else sotime
    match tables.hashFind host with
    | none =>
      let (accepted, tp) := checkEntry settings host isLocal sotime none
      (accepted, (tables.add room (.fresh host sotime)).write room tp)
    | some place =>
      let (accepted, tp) := checkEntry settings host isLocal sotime (tables.heap place)
      (accepted, tables.write place tp)

/-- One turn of the loop of `throttle_timer`. -/
def Tables.expire (settings : Settings) (now : Int) (tables : Tables) (tp : Addr) : Tables :=
  if (tables.heap tp).any (Throttle.stale settings now) then tables.drop tp else tables

/-- `throttle_timer`. -/
def Tables.throttleTimer (tables : Tables) (settings : Settings) (throttleEnable : Bool) (now : Int) : Tables :=
  if throttleEnable = false then tables else tables.throttles.foldl (Tables.expire settings now) tables

/-- `throttle_resize`. -/
def Tables.throttleResize (tables : Tables) (size : Nat) : Tables :=
  { tables with throttleHash := tables.throttleHash.resizeHashTable (key tables.heap) size }

/-- The calls of the functions above; what an operator can set may be different each time. -/
inductive Call where
  | check (settings : Settings) (throttleEnable : Bool) (room : Addr) (host : Text) (isLocal : Bool) (now sotime : Int)
  | force (room : Addr) (host : Text) (now : Int)
  | remove (host : Text)
  | timer (settings : Settings) (throttleEnable : Bool) (now : Int)
  | resize (size : Nat)

def Tables.perform (tables : Tables) : Call → Tables
  | .check settings throttleEnable room host isLocal now sotime =>
    (tables.throttleCheck settings throttleEnable room host isLocal now sotime).2
  | .force room host now => tables.throttleForce room host now
  | .remove host => tables.throttleRemove host
  | .timer settings throttleEnable now => tables.throttleTimer settings throttleEnable now
  | .resize size => tables.throttleResize size

/-- The allocator returns what nobody holds, and `m_set` asks for no table smaller than the first. -/
def Tables.Possible (tables : Tables) : Call → Prop
  | .check _ _ room _ _ _ _ => tables.heap room = none
  | .force room _ _ => tables.heap room = none
  | .remove _ => True
  | .timer _ _ _ => True
  | .resize size => throttleHashSize ≤ size

def throttleMachine : Machine Tables Call := ⟨Tables.perform, Tables.Possible⟩

/-- The hash table, the list, the heap and the counter tell of the same records, one for each address. -/
structure Tables.Sound (tables : Tables) : Prop where
  hash : tables.throttleHash.Sound (key tables.heap)
  compare : tables.throttleHash.cmpfunc = (· == ·)
  filed : ∀ tp, tables.throttleHash.table.Holds tp ↔ tp ∈ tables.throttles
  live : ∀ tp, tp ∈ tables.throttles ↔ tables.heap tp ≠ none
  once : tables.throttles.Nodup
  counted : tables.numthrottles = tables.throttles.length

variable {tables : Tables}

theorem key_of_heap {heap : Addr → Option Throttle} (here : heap place = some tp) : key heap place = tp.addr := by
  rw [key, here, Option.elim_some]

theorem key_update_of_ne (heap : Addr → Option Throttle) (entry : Option Throttle) (differ : other ≠ place) :
    key (update heap place entry) other = key heap other := by
  rw [key, key, Function.update_of_ne differ]

theorem Tables.sound_init : Tables.init.Sound where
  hash := HashTable.sound_create (by decide) _ _
  compare := rfl
  filed tp := by simp [Tables.init, createHashTable, Shelf.holds_empty]
  live tp := by simp [Tables.init]
  once := List.nodup_nil
  counted := rfl

/-- `hash_find` finds what is on the linked list. -/
theorem Tables.Sound.hashFind_iff (sound : tables.Sound) :
    tables.hashFind host = some tp ↔ tp ∈ tables.throttles ∧ key tables.heap tp = host := by
  rw [Tables.hashFind, sound.hash.hashFind_iff, sound.filed, sound.compare, beq_iff_eq]

theorem Tables.Sound.absent (sound : tables.Sound) (free : tables.heap room = none) :
    room ∉ tables.throttles ∧ ¬ tables.throttleHash.table.Holds room := by
  have outside : room ∉ tables.throttles := fun member => (sound.live room).mp member free
  exact ⟨outside, fun holds => outside ((sound.filed room).mp holds)⟩

theorem Tables.Sound.add (sound : tables.Sound) (free : tables.heap room = none) (missing : tables.hashFind tp.addr = none) :
    (tables.add room tp).Sound := by
  obtain ⟨outside, unfiled⟩ := sound.absent free
  have own : key (update tables.heap room (some tp)) room = tp.addr := key_of_heap (Function.update_self ..)
  have same : ∀ ent, tables.throttleHash.table.Holds ent →
    key (update tables.heap room (some tp)) ent = key tables.heap ent := by
    intro ent holds
    exact key_update_of_ne _ _ fun here => unfiled (here ▸ holds)
  have hash := sound.hash.congr same
  have none : tables.throttleHash.hashFind (key (update tables.heap room (some tp)))
      (key (update tables.heap room (some tp)) room) = none := by
    rw [own, hash.hashFind_none]
    intro ent holds
    rw [same ent holds]
    exact sound.hash.hashFind_none.mp missing ent holds
  refine ⟨hash.hashInsert unfiled none, sound.compare, ?_, ?_, List.nodup_cons.mpr ⟨outside, sound.once⟩, ?_⟩
  · intro ent
    rw [Tables.add, HashTable.holds_hashInsert, sound.filed, List.mem_cons]
  · intro ent
    simp only [Tables.add, List.mem_cons]
    by_cases here : ent = room
    · simp [here]
    · rw [Function.update_of_ne here, ← sound.live]
      simp [here]
  · simp only [Tables.add, List.length_cons, sound.counted]
    push_cast
    rfl

theorem Tables.Sound.write (sound : tables.Sound) (here : tables.heap place = some old) (same : tp.addr = old.addr) :
    (tables.write place tp).Sound := by
  refine ⟨sound.hash.congr ?_, sound.compare, sound.filed, ?_, sound.once, sound.counted⟩
  · intro ent _
    by_cases own : ent = place
    · rw [own, key_of_heap here]
      exact (key_of_heap (Function.update_self ..)).trans same
    · exact key_update_of_ne _ _ own
  · intro ent
    simp only [Tables.write]
    by_cases own : ent = place
    · simp [own, sound.live, here]
    · rw [Function.update_of_ne own, sound.live]

theorem Tables.Sound.drop (sound : tables.Sound) (member : tp ∈ tables.throttles) : (tables.drop tp).Sound := by
  have deleted := sound.hash.hashDelete tp
  have gone : ∀ ent, (tables.throttleHash.hashDelete (key tables.heap) tp).table.Holds ent ↔
    ent ∈ tables.throttles ∧ ent ≠ tp := by
    intro ent
    rw [sound.hash.holds_hashDelete, sound.filed]
  refine ⟨deleted.congr ?_, sound.compare, ?_, ?_, sound.once.erase tp, ?_⟩
  · intro ent holds
    exact key_update_of_ne _ _ ((gone ent).mp holds).2
  · intro ent
    rw [Tables.drop, gone, sound.once.mem_erase_iff, and_comm]
  · intro ent
    simp only [Tables.drop]
    rw [sound.once.mem_erase_iff]
    by_cases here : ent = tp
    · simp [here]
    · rw [Function.update_of_ne here, ← sound.live]
      simp [here]
  · have positive := List.length_pos_of_mem member
    simp only [Tables.drop, sound.counted]
    rw [List.length_erase_of_mem member]
    omega

theorem Tables.Sound.throttleRemove (sound : tables.Sound) (host : Text) : (tables.throttleRemove host).Sound := by
  unfold Tables.throttleRemove
  split
  · exact sound
  · rename_i tp found
    exact sound.drop (sound.hashFind_iff.mp found).1

theorem Tables.Sound.addWrite (sound : tables.Sound) (free : tables.heap room = none) (missing : tables.hashFind host = none)
    (new : fresh.addr = host) (same : tp.addr = host) : ((tables.add room fresh).write room tp).Sound := by
  subst new
  exact (sound.add free missing).write (Function.update_self ..) same

/-- An entry that was found has a record with the key. -/
theorem Tables.Sound.record (sound : tables.Sound) (found : tables.hashFind host = some place) :
    ∃ tp, tables.heap place = some tp ∧ tp.addr = host := by
  obtain ⟨member, own⟩ := sound.hashFind_iff.mp found
  obtain ⟨tp, here⟩ := Option.ne_none_iff_exists'.mp ((sound.live place).mp member)
  exact ⟨tp, here, (key_of_heap here).symm.trans own⟩

theorem Tables.Sound.throttleForce (sound : tables.Sound) (free : tables.heap room = none) (host : Text) (now : Int) :
    (tables.throttleForce room host now).Sound := by
  unfold Tables.throttleForce
  split
  · rename_i missing
    exact sound.addWrite free missing rfl rfl
  · rename_i place found
    obtain ⟨tp, here, -⟩ := sound.record found
    rw [here]
    exact sound.write here rfl

theorem Tables.Sound.throttleCheck (sound : tables.Sound) (free : tables.heap room = none)
    (settings : Settings) (throttleEnable : Bool)
    (host : Text) (isLocal : Bool) (now sotime : Int) :
    (tables.throttleCheck settings throttleEnable room host isLocal now sotime).2.Sound := by
  unfold Tables.throttleCheck
  split
  · exact sound
  · split
    · exact sound
    · generalize (if sotime > now then now else sotime) = sotime
      dsimp only
      split
      · rename_i missing
        exact sound.addWrite free missing rfl (checkEntry_addr (by simp) isLocal sotime)
      · rename_i place found
        obtain ⟨tp, here, own⟩ := sound.record found
        refine sound.write here ?_
        rw [own]
        refine checkEntry_addr ?_ isLocal sotime
        rw [here]
        rintro _ ⟨⟩
        exact own

theorem Tables.Sound.expire (sound : tables.Sound) (settings : Settings) (now : Int) (tp : Addr) :
    (tables.expire settings now tp).Sound := by
  unfold Tables.expire
  split
  · rename_i stale
    have live : tables.heap tp ≠ none := by
      intro free
      rw [free] at stale
      cases stale
    exact sound.drop ((sound.live tp).mpr live)
  · exact sound

theorem Tables.Sound.foldl_expire (sound : tables.Sound) (settings : Settings) (now : Int) (items : List Addr) :
    (items.foldl (Tables.expire settings now) tables).Sound := by
  induction items generalizing tables with
  | nil => exact sound
  | cons tp items ih => exact ih (sound.expire settings now tp)

theorem Tables.Sound.perform (sound : tables.Sound) (call : Call) (possible : tables.Possible call) :
    (tables.perform call).Sound := by
  cases call with
  | check settings throttleEnable room host isLocal now sotime =>
    exact sound.throttleCheck possible settings throttleEnable host isLocal now sotime
  | force room host now => exact sound.throttleForce possible host now
  | remove host => exact sound.throttleRemove host
  | timer settings throttleEnable now =>
    simp only [Tables.perform, Tables.throttleTimer]
    split
    · exact sound
    · exact sound.foldl_expire settings now tables.throttles
  | resize size =>
    have positive : 0 < size := Nat.lt_of_lt_of_le (by decide) possible
    refine ⟨sound.hash.resize positive, (HashTable.resize_fields _ _ size).1.trans sound.compare, ?_, sound.live, sound.once,
      sound.counted⟩
    intro tp
    exact sound.hash.holds_resize.trans (sound.filed tp)

theorem Tables.sound_run (run : throttleMachine.Run Machine.Any Tables.init tables) : tables.Sound :=
  run.invariant Tables.Sound (fun _ call possible _ sound => sound.perform call possible) Tables.sound_init

/-! ### The records of the limiter -/

/-- The records in the order of the linked list. -/
def Tables.records (tables : Tables) : List Throttle := tables.throttles.filterMap tables.heap

/-- The call files the host: it is not let through unseen. -/
def Call.Files : Call → Text → Prop
  | .check settings throttleEnable _ host isLocal now sotime, other =>
    host = other ∧ throttleEnable = true ∧ ¬ (isLocal = false ∧ now - sotime > settings.ttime)
  | .force _ host _, other => host = other
  | _, _ => False

/-- The call drops the record of the host. -/
def Tables.LetsGo (tables : Tables) : Call → Text → Prop
  | .remove host, other => host = other
  | .timer settings throttleEnable now, other =>
    throttleEnable = true ∧ (find tables.records other).any (Throttle.stale settings now) = true
  | _, _ => False

/-- What the limiter does in a run of one setting, as a call; `room` is where a new record would go. -/
def Event.call (settings : Settings) (room : Addr) : Event → Call
  | .connect host now => .check settings true room host true now now
  | .timer now => .timer settings true now

namespace Tables.Sound

theorem exists_record (sound : tables.Sound) (member : place ∈ tables.throttles) : ∃ tp, tables.heap place = some tp :=
  Option.ne_none_iff_exists'.mp ((sound.live place).mp member)

/-- No two records are of one address. -/
theorem place_unique (sound : tables.Sound) (here : tables.heap place = some tp) (there : tables.heap place' = some tp')
    (same : tp.addr = tp'.addr) : place = place' := by
  have member : place ∈ tables.throttles := (sound.live place).mpr (here ▸ Option.some_ne_none tp)
  have member' : place' ∈ tables.throttles := (sound.live place').mpr (there ▸ Option.some_ne_none tp')
  have found := sound.hashFind_iff.mpr ⟨member, key_of_heap here⟩
  have found' := sound.hashFind_iff.mpr ⟨member', (key_of_heap there).trans same.symm⟩
  exact Option.some.inj (found.symm.trans found')

theorem nodup_addr (sound : tables.Sound) : (tables.records.map Throttle.addr).Nodup := by
  rw [Tables.records, List.map_filterMap]
  refine List.pairwise_filterMap.mpr (sound.once.imp_of_mem ?_)
  intro first second _ _ differ host here other there same
  obtain ⟨tp, stands, rfl⟩ := Option.map_eq_some_iff.mp here
  obtain ⟨tp', stands', rfl⟩ := Option.map_eq_some_iff.mp there
  exact differ (sound.place_unique stands stands' same)

theorem length_records (sound : tables.Sound) : tables.records.length = tables.throttles.length := by
  rw [Tables.records, List.length_filterMap_eq_countP, List.countP_eq_length]
  intro place member
  exact Option.isSome_iff_ne_none.mpr ((sound.live place).mp member)

/-- The hash table finds what a search of the records finds. -/
theorem find_records (sound : tables.Sound) (host : Text) :
    (tables.hashFind host).bind tables.heap = find tables.records host := by
  cases found : tables.hashFind host with
  | none =>
    refine (List.find?_eq_none.mpr fun tp member own => ?_).symm
    obtain ⟨place, inside, here⟩ := List.mem_filterMap.mp member
    have some' := sound.hashFind_iff.mpr ⟨inside, (key_of_heap here).trans (beq_iff_eq.mp own)⟩
    rw [found] at some'
    cases some'
  | some place =>
    obtain ⟨tp, here, rfl⟩ := sound.record found
    have member : tp ∈ tables.records := List.mem_filterMap.mpr ⟨place, (sound.hashFind_iff.mp found).1, here⟩
    have first : (find tables.records tp.addr).isSome = true := List.find?_isSome.mpr ⟨tp, member, beq_self_eq_true _⟩
    obtain ⟨other, other'⟩ := Option.isSome_iff_exists.mp first
    have same := List.inj_on_of_nodup_map sound.nodup_addr member (List.mem_of_find?_eq_some other') (find_addr other').symm
    rw [Option.bind_some, here, other', same]

theorem isSome_hashFind (sound : tables.Sound) (host : Text) :
    (tables.hashFind host).isSome = (find tables.records host).isSome := by
  rw [← sound.find_records]
  cases found : tables.hashFind host with
  | none => rfl
  | some place =>
    obtain ⟨tp, here, -⟩ := sound.record found
    rw [Option.bind_some, here]
    rfl

/-- A record that changes where it stands changes in the list. -/
theorem records_write (sound : tables.Sound) (here : tables.heap place = some old) (same : tp.addr = old.addr) :
    (tables.write place tp).records = store tables.records tp := by
  have member : place ∈ tables.throttles := (sound.live place).mpr (here ▸ Option.some_ne_none old)
  have found : (find tables.records tp.addr).isSome = true := by
    rw [← sound.isSome_hashFind, sound.hashFind_iff.mpr ⟨member, (key_of_heap here).trans same.symm⟩]
    rfl
  rw [store, if_pos found, Tables.records, Tables.records, List.map_filterMap]
  refine List.filterMap_congr fun other inside => ?_
  obtain ⟨record, there⟩ := sound.exists_record inside
  by_cases own : other = place
  · subst own
    simp [Tables.write, here, same]
  · have differs : record.addr ≠ tp.addr := fun equal => own (sound.place_unique there here (equal.trans same))
    simp [Tables.write, Function.update_of_ne own, there, differs]

/-- A new record comes in front. -/
theorem records_add (sound : tables.Sound) (free : tables.heap room = none) (missing : tables.hashFind host = none)
    (fresh : Throttle) (same : tp.addr = host) :
    ((tables.add room fresh).write room tp).records = store tables.records tp := by
  have unknown : ¬ (find tables.records tp.addr).isSome = true := by
    rw [← sound.isSome_hashFind, same, missing]
    exact Bool.false_ne_true
  have others : tables.throttles.filterMap (update tables.heap room (some tp)) = tables.records :=
    List.filterMap_congr fun place member => Function.update_of_ne (ne_of_mem_of_not_mem member (sound.absent free).1) _ _
  rw [store, if_neg unknown, Tables.records, Tables.write, Tables.add, Function.update_idem]
  rw [List.filterMap_cons_some (Function.update_self ..), others]

/-- A record that is dropped is the one of its address. -/
theorem records_drop (sound : tables.Sound) (here : tables.heap place = some old) :
    (tables.drop place).records = tables.records.filter fun tp => tp.addr != old.addr := by
  rw [Tables.records, Tables.drop, Tables.records, sound.once.erase_eq_filter, List.filterMap_filter, List.filter_filterMap]
  refine List.filterMap_congr fun other inside => ?_
  obtain ⟨record, there⟩ := sound.exists_record inside
  by_cases own : other = place
  · subst own
    obtain rfl := Option.some.inj (there.symm.trans here)
    simp [there, Option.filter]
  · have differs : record.addr ≠ old.addr := fun equal => own (sound.place_unique there here equal)
    simp [own, there, Option.filter, differs]

/-- `throttle_check` does to the records what the limiter does. -/
theorem records_check (sound : tables.Sound) (free : tables.heap room = none) (settings : Settings) (host : Text)
    (isLocal : Bool) (now sotime : Int) :
    ((tables.throttleCheck settings true room host isLocal now sotime).1,
      (tables.throttleCheck settings true room host isLocal now sotime).2.records) =
        Throttling.throttleCheck settings tables.records host isLocal now sotime := by
  unfold Tables.throttleCheck Throttling.throttleCheck
  rw [if_neg (Bool.noConfusion)]
  split
  · rfl
  · generalize (if sotime > now then now else sotime) = sotime
    dsimp only
    rw [← sound.find_records]
    split
    · rename_i missing
      rw [missing, Option.bind_none]
      exact congrArg _ (sound.records_add free missing _ (checkEntry_addr (by simp) isLocal sotime))
    · rename_i place found
      obtain ⟨tp, here, rfl⟩ := sound.record found
      rw [found, Option.bind_some, here]
      refine congrArg _ (sound.records_write here (checkEntry_addr ?_ isLocal sotime))
      rintro _ ⟨⟩
      rfl

theorem records_force (sound : tables.Sound) (free : tables.heap room = none) (host : Text) (now : Int) :
    ∃ tp, tp.addr = host ∧ (tables.throttleForce room host now).records = store tables.records tp := by
  unfold Tables.throttleForce
  split
  · rename_i missing
    exact ⟨_, rfl, sound.records_add free missing _ rfl⟩
  · rename_i place found
    obtain ⟨tp, here, own⟩ := sound.record found
    rw [here]
    exact ⟨tp.forced now, own, sound.records_write here rfl⟩

theorem records_remove (sound : tables.Sound) (host : Text) :
    (tables.throttleRemove host).records = tables.records.filter fun tp => tp.addr != host := by
  unfold Tables.throttleRemove
  split
  · rename_i missing
    refine (List.filter_eq_self.mpr fun tp member => bne_iff_ne.mpr fun own => ?_).symm
    have found : (find tables.records host).isSome = true := List.find?_isSome.mpr ⟨tp, member, beq_iff_eq.mpr own⟩
    rw [← sound.isSome_hashFind, missing] at found
    cases found
  · rename_i place found
    obtain ⟨tp, here, rfl⟩ := sound.record found
    exact sound.records_drop here

/-- A turn of the timer drops the record it looks at, or none. -/
theorem records_expire (sound : tables.Sound) (settings : Settings) (now : Int) (place : Addr) :
    (tables.expire settings now place).records =
        tables.records.filter fun tp => !((tables.heap place == some tp) && tp.stale settings now) := by
  unfold Tables.expire
  cases here : tables.heap place with
  | none => simp
  | some old =>
    have only : ∀ tp ∈ tables.records, tp.addr = old.addr → tp = old := by
      intro tp member same
      obtain ⟨other, _, there⟩ := List.mem_filterMap.mp member
      obtain rfl := sound.place_unique there here same
      exact Option.some.inj (there.symm.trans here)
    split
    · rename_i stale
      rw [sound.records_drop here]
      refine List.filter_congr fun tp member => ?_
      by_cases same : tp = old
      · subst same
        simpa using stale
      · have differs : tp.addr ≠ old.addr := fun equal => same (only tp member equal)
        have apart : (old == tp) = false := beq_eq_false_iff_ne.mpr (Ne.symm same)
        simp [differs, apart]
    · rename_i fine
      refine (List.filter_eq_self.mpr fun tp _ => ?_).symm
      by_cases same : tp = old
      · subst same
        simpa using fine
      · have apart : (old == tp) = false := beq_eq_false_iff_ne.mpr (Ne.symm same)
        simp [apart]

/-- The turns for these places drop the stale records among theirs. -/
theorem records_expires (sound : tables.Sound) (settings : Settings) (now : Int) (places : List Addr) :
    (places.foldl (Tables.expire settings now) tables).records =
      tables.records.filter fun tp => !(tp.stale settings now && places.any fun place => tables.heap place == some tp) := by
  induction places generalizing tables with
  | nil => simp
  | cons place places ih =>
    rw [List.foldl_cons, ih (sound.expire settings now place), sound.records_expire, List.filter_filter]
    refine List.filter_congr fun tp _ => ?_
    cases stale : tp.stale settings now with
    | false => simp
    | true =>
      by_cases own : tables.heap place = some tp
      · simp [own]
      · have later (other : Addr) :
            ((tables.expire settings now place).heap other == some tp) = (tables.heap other == some tp) := by
          unfold Tables.expire
          split
          · by_cases same : other = place
            · simp [Tables.drop, same, own]
            · simp [Tables.drop, Function.update_of_ne same]
          · rfl
        simp [later, Bool.and_comm]

theorem records_timer (sound : tables.Sound) (settings : Settings) (now : Int) :
    (tables.throttleTimer settings true now).records = Throttling.throttleTimer settings tables.records now := by
  rw [Tables.throttleTimer, if_neg (Bool.noConfusion), sound.records_expires, Throttling.throttleTimer]
  refine List.filter_congr fun tp member => ?_
  obtain ⟨place, inside, here⟩ := List.mem_filterMap.mp member
  have among : (tables.throttles.any fun place => tables.heap place == some tp) = true :=
    List.any_eq_true.mpr ⟨place, inside, beq_iff_eq.mpr here⟩
  rw [among, Bool.and_true]

/-- After a call a host is found exactly if the call has filed it, or it was found before and the call lets it stay. -/
theorem found_perform (sound : tables.Sound) (call : Call) (possible : tables.Possible call) (host : Text) :
    ((tables.perform call).hashFind host).isSome = true ↔
      call.Files host ∨ (tables.hashFind host).isSome = true ∧ ¬ tables.LetsGo call host := by
  rw [(sound.perform call possible).isSome_hashFind, sound.isSome_hashFind]
  have stored (tp : Throttle) : (find (store tables.records tp) host).isSome = true ↔
      tp.addr = host ∨ (find tables.records host).isSome = true := by
    rw [find_store]
    split
    · rename_i own
      exact iff_of_true rfl (.inl own)
    · rename_i other
      exact (or_iff_right other).symm
  cases call with
  | check settings throttleEnable room other isLocal now sotime =>
    cases throttleEnable with
    | false => simp [Tables.perform, Tables.throttleCheck, Call.Files, Tables.LetsGo]
    | true =>
      have same : (tables.throttleCheck settings true room other isLocal now sotime).2.records = _ :=
        congrArg Prod.snd (sound.records_check possible settings other isLocal now sotime)
      simp only [Tables.perform, same, Throttling.throttleCheck, Call.Files, Tables.LetsGo]
      split
      · rename_i late
        simp [late]
      · rename_i seen
        rw [stored, checkEntry_addr (fun _ found => find_addr found)]
        simp [seen]
  | force room other now =>
    obtain ⟨tp, own, same⟩ := sound.records_force possible other now
    simp only [Tables.perform, same, stored, own, Call.Files, Tables.LetsGo, not_false_iff, and_true]
  | remove other =>
    simp only [Tables.perform, sound.records_remove, Call.Files, Tables.LetsGo, false_or]
    by_cases own : other = host
    · subst own
      simp [find, List.find?_filter]
    · have passes (tp : Throttle) : decide ((tp.addr != other) = true ∧ (tp.addr == host) = true) = (tp.addr == host) := by
        by_cases here : tp.addr = host
        · simp [here, Ne.symm own]
        · simp [here]
      have kept : find (tables.records.filter fun tp => tp.addr != other) host = find tables.records host := by
        simp only [find, List.find?_filter, passes]
      simp [kept, own]
  | timer settings throttleEnable now =>
    cases throttleEnable with
    | false => simp [Tables.perform, Tables.throttleTimer, Call.Files, Tables.LetsGo]
    | true =>
      simp only [Tables.perform, sound.records_timer, find_timer sound.nodup_addr, Call.Files, Tables.LetsGo]
      cases find tables.records host with
      | none => simp
      | some tp => simp [Option.filter]
  | resize size =>
    exact iff_of_eq (by simp [Tables.perform, Tables.throttleResize, Tables.records, Call.Files, Tables.LetsGo])

/-- The records go through the run that the limiter's bounds are about. -/
theorem records_event (sound : tables.Sound) (event : Event) (possible : tables.Possible (event.call settings room))
    (accepted : List (Text × Int)) :
    (tables.perform (event.call settings room)).records =
      (State.perform settings ⟨tables.records, accepted⟩ event).throttles := by
  cases event with
  | connect host now => exact congrArg Prod.snd (sound.records_check possible settings host true now now)
  | timer now => exact sound.records_timer settings now

theorem records_run (sound : tables.Sound) (settings : Settings) (events : List (Event × Addr)) (accepted : List (Text × Int))
    (allows : throttleMachine.Allows Machine.Any tables (events.map fun item => item.1.call settings item.2)) :
    ((events.map fun item => item.1.call settings item.2).foldl Tables.perform tables).records =
      (State.run settings ⟨tables.records, accepted⟩ (events.map Prod.fst)).throttles := by
  induction events generalizing tables accepted with
  | nil => rfl
  | cons item events ih =>
    obtain ⟨possible, -, later⟩ := allows
    have same := sound.records_event item.1 possible accepted
    rw [List.map_cons, List.foldl_cons, ih (sound.perform _ possible) _ later, same]
    rfl

end Tables.Sound

/-! ### Every run -/

/-- Through every run of the functions of `throttle.c` each address has one record, which stands once in the hash table and
once on the list, and is found there; the counter is the length of the list; a host is found from the call that files it
to the one that drops it; and a hash table of any other size would answer every search alike. -/
theorem throttle_tables (run : throttleMachine.Run Machine.Any Tables.init tables) :
    (tables.records.map Throttle.addr).Nodup ∧ tables.records.length = tables.throttles.length ∧
      tables.throttleHash.entries.Nodup ∧ tables.throttleHash.entries.Perm tables.throttles ∧
      (∀ host tp, tables.hashFind host = some tp ↔
        tp ∈ tables.throttles ∧ (tables.heap tp).map Throttle.addr = some host) ∧
      tables.numthrottles = tables.throttles.length ∧
      (∀ call, tables.Possible call → ∀ host, ((tables.perform call).hashFind host).isSome = true ↔
        call.Files host ∨ (tables.hashFind host).isSome = true ∧ ¬ tables.LetsGo call host) ∧
      ∀ size, 0 < size → ∀ host, (tables.throttleResize size).hashFind host = tables.hashFind host := by
  have sound := Tables.sound_run run
  have same : tables.throttleHash.entries.Perm tables.throttles := by
    rw [List.perm_ext_iff_of_nodup sound.hash.nodup_entries sound.once]
    intro tp
    rw [sound.hash.mem_entries, sound.filed]
  refine ⟨sound.nodup_addr, sound.length_records, sound.hash.nodup_entries, same, ?_, sound.counted, sound.found_perform, ?_⟩
  · intro host tp
    rw [sound.hashFind_iff]
    refine and_congr_right fun member => ?_
    obtain ⟨record, here⟩ := Option.ne_none_iff_exists'.mp ((sound.live tp).mp member)
    rw [key_of_heap here, here, Option.map_some, Option.some.injEq]
  · intro size positive host
    exact sound.hash.hashFind_resize positive host

/-- Three hosts connect, one of them is forgotten, the table grows, and the timer runs. -/
def someCalls : List Call :=
  [.check ⟨3, 15, 1800⟩ true 1 "10.0.0.1".toList true 100 100, .force 2 "10.0.0.2".toList 101,
    .check ⟨3, 15, 1800⟩ true 3 "10.0.0.3".toList false 102 101, .remove "10.0.0.1".toList, .resize 30011,
    .timer ⟨3, 15, 1800⟩ true 200]

theorem throttle_tables_someCalls :
    let tables := someCalls.foldl throttleMachine.perform Tables.init
    (tables.records.map Throttle.addr).Nodup ∧ tables.records.length = tables.throttles.length ∧
      tables.throttleHash.entries.Nodup ∧ tables.throttleHash.entries.Perm tables.throttles ∧
      (∀ host tp, tables.hashFind host = some tp ↔
        tp ∈ tables.throttles ∧ (tables.heap tp).map Throttle.addr = some host) ∧
      tables.numthrottles = tables.throttles.length ∧
      (∀ call, tables.Possible call → ∀ host, ((tables.perform call).hashFind host).isSome = true ↔
        call.Files host ∨ (tables.hashFind host).isSome = true ∧ ¬ tables.LetsGo call host) ∧
      ∀ size, 0 < size → ∀ host, (tables.throttleResize size).hashFind host = tables.hashFind host := by
  intro tables
  have allows : throttleMachine.Allows Machine.Any Tables.init someCalls :=
    ⟨rfl, trivial, rfl, trivial, rfl, trivial, trivial, trivial,
      (by decide : throttleHashSize ≤ 30011), trivial, trivial, trivial, trivial⟩
  exact throttle_tables (.of_list someCalls (.refl _) allows)

end SolidIrcd.Throttling
