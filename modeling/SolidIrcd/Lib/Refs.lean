import Mathlib.Data.List.Nodup

/-! Objects that count the references to them. One that is no longer wanted stays until nobody holds it. -/

namespace SolidIrcd.Refs

/-- A kind of object: its address, its count of references, and whether it is to go as it is. -/
structure Kind (ω κ : Type) where
  key : ω → κ
  count : ω → Int
  gone : ω → Bool
  put : ω → Int → ω
  key_put : ∀ object number, key (put object number) = key object
  count_put : ∀ object number, count (put object number) = number
  gone_count : ∀ object, gone object = true → count object ≤ 0

variable {ω κ : Type}

/-- All that is to go goes. -/
def Kind.sweep (kind : Kind ω κ) (objects : List ω) : List ω := objects.filter fun object => !kind.gone object

/-- Every count is the number of those that hold the object, and what is held is there. -/
structure Kind.Held (kind : Kind ω κ) (objects : List ω) (held : κ → Int) : Prop where
  distinct : (objects.map kind.key).Nodup
  live : ∀ key, held key ≠ 0 → key ∈ objects.map kind.key
  counted : ∀ object ∈ objects, kind.count object = held (kind.key object)

section

variable {kind : Kind ω κ} {objects : List ω} {held : κ → Int}

/-- Nothing is left that is to go. -/
def Kind.Tidy (kind : Kind ω κ) (objects : List ω) : Prop := ∀ object ∈ objects, kind.gone object = false

theorem tidy_sweep (kind : Kind ω κ) (objects : List ω) : kind.Tidy (kind.sweep objects) := by
  intro object member
  simpa using (List.mem_filter.mp member).2

/-- What is taken out of the list is held by nobody. -/
theorem Kind.Held.filter (holds : kind.Held objects held) (stays : ω → Bool)
    (free : ∀ object ∈ objects, stays object = false → held (kind.key object) = 0) :
    kind.Held (objects.filter stays) held := by
  refine ⟨holds.distinct.sublist (List.filter_sublist.map _), fun other holder => ?_,
    fun object member => holds.counted object (List.mem_of_mem_filter member)⟩
  obtain ⟨object, member, rfl⟩ := List.mem_map.mp (holds.live other holder)
  refine List.mem_map.mpr ⟨object, List.mem_filter.mpr ⟨member, ?_⟩, rfl⟩
  by_contra leaves
  exact holder (free object member (Bool.not_eq_true _ ▸ leaves))

theorem Kind.Held.sweep (holds : kind.Held objects held) (some : ∀ other, 0 ≤ held other) :
    kind.Held (kind.sweep objects) held := by
  apply holds.filter
  intro object member leaves
  have count := kind.gone_count object (by simpa using leaves)
  rw [holds.counted object member] at count
  exact Int.le_antisymm count (some _)

/-- An object that nobody holds yet can be added. -/
theorem Kind.Held.add (holds : kind.Held objects held) (object : ω) (fresh : kind.key object ∉ objects.map kind.key)
    (none : kind.count object = 0) : kind.Held (object :: objects) held := by
  refine ⟨List.nodup_cons.mpr ⟨fresh, holds.distinct⟩, fun other holder => ?_, fun other member => ?_⟩
  · exact List.mem_cons_of_mem _ (holds.live other holder)
  · rcases List.mem_cons.mp member with rfl | member
    · rw [none]
      by_contra holder
      exact fresh (holds.live _ (Ne.symm holder))
    · exact holds.counted other member

/-- All that matters are the keys and the counts. -/
theorem Kind.Held.view (holds : kind.Held objects held)
    (same : after.map (fun object => (kind.key object, kind.count object)) =
      objects.map fun object => (kind.key object, kind.count object)) : kind.Held after held := by
  have keys : after.map kind.key = objects.map kind.key := by
    simpa [Function.comp_def] using congrArg (List.map Prod.fst) same
  refine ⟨keys ▸ holds.distinct, fun other holder => keys ▸ holds.live other holder, fun object member => ?_⟩
  obtain ⟨old, inside, equal⟩ := List.mem_map.mp
    (same ▸ List.mem_map_of_mem (f := fun object => (kind.key object, kind.count object)) member)
  simp only [Prod.mk.injEq] at equal
  rw [← equal.1, ← equal.2, holds.counted old inside]

/-- What is not the count can be changed. -/
theorem Kind.Held.map (holds : kind.Held objects held) (change : ω → ω)
    (same : ∀ object ∈ objects, kind.key (change object) = kind.key object ∧
      kind.count (change object) = kind.count object) : kind.Held (objects.map change) held := by
  have keys : (objects.map change).map kind.key = objects.map kind.key := by
    rw [List.map_map]
    exact List.map_congr_left fun object member => (same object member).1
  refine ⟨keys ▸ holds.distinct, fun other holder => keys ▸ holds.live other holder, fun object member => ?_⟩
  obtain ⟨old, inside, rfl⟩ := List.mem_map.mp member
  rw [(same old inside).1, (same old inside).2, holds.counted old inside]

variable [DecidableEq κ] {key : κ}

/-- One is added to the count of an object, or taken from it. -/
def Kind.adjust (kind : Kind ω κ) (key : κ) (more : Int) (objects : List ω) : List ω :=
  objects.map fun object => if kind.key object = key then kind.put object (kind.count object + more) else object

/-- A reference is given up, and with the last one the object goes where it is to. -/
def Kind.release (kind : Kind ω κ) (key : κ) (objects : List ω) : List ω :=
  (kind.adjust key (-1) objects).filter fun object => !(decide (kind.key object = key) && kind.gone object)

theorem keys_adjust (kind : Kind ω κ) (key : κ) (more : Int) (objects : List ω) :
    (kind.adjust key more objects).map kind.key = objects.map kind.key := by
  rw [Kind.adjust, List.map_map]
  apply List.map_congr_left
  intro object _
  by_cases same : kind.key object = key <;> simp [same, kind.key_put]

theorem mem_adjust (member : object ∈ kind.adjust key more objects) :
    ∃ old ∈ objects, kind.key old = kind.key object ∧
      kind.count object = kind.count old + if kind.key old = key then more else 0 := by
  obtain ⟨old, present, rfl⟩ := List.mem_map.mp member
  by_cases same : kind.key old = key
  · exact ⟨old, present, by simp [same, kind.key_put], by simp [same, kind.count_put]⟩
  · exact ⟨old, present, by simp [same], by simp [same]⟩

theorem Kind.Held.adjust (holds : kind.Held objects held) (held' : κ → Int) (present : key ∈ objects.map kind.key)
    (more : Int) (same : ∀ other, held' other = held other + if other = key then more else 0) :
    kind.Held (kind.adjust key more objects) held' := by
  refine ⟨keys_adjust kind key more objects ▸ holds.distinct, fun other holder => ?_, fun object member => ?_⟩
  · rw [keys_adjust]
    by_cases equal : other = key
    · exact equal ▸ present
    · exact holds.live other (by simpa [same, equal] using holder)
  · obtain ⟨old, inside, equal, count⟩ := mem_adjust member
    rw [count, holds.counted old inside, same, equal]

/-- A new reference to an object that is there. -/
theorem Kind.Held.hold (holds : kind.Held objects held) (held' : κ → Int) (present : key ∈ objects.map kind.key)
    (same : ∀ other, held' other = held other + if other = key then 1 else 0) :
    kind.Held (kind.adjust key 1 objects) held' :=
  holds.adjust held' present 1 same

theorem Kind.Held.release (holds : kind.Held objects held) (held' : κ → Int) (present : key ∈ objects.map kind.key)
    (same : ∀ other, held other = held' other + if other = key then 1 else 0) (some : ∀ other, 0 ≤ held' other) :
    kind.Held (kind.release key objects) held' := by
  have less := holds.adjust held' present (-1) fun other => by
    have := same other
    split_ifs at this ⊢ <;> omega
  apply less.filter
  intro object member leaves
  have gone : kind.gone object = true := by
    simp only [Bool.not_eq_false', Bool.and_eq_true] at leaves
    exact leaves.2
  have count := kind.gone_count object gone
  rw [less.counted object member] at count
  exact Int.le_antisymm count (some _)

theorem Kind.Tidy.release (tidy : kind.Tidy objects) (key : κ) : kind.Tidy (kind.release key objects) := by
  intro object member
  obtain ⟨present, stays⟩ := List.mem_filter.mp member
  obtain ⟨old, inside, rfl⟩ := List.mem_map.mp present
  by_cases same : kind.key old = key
  · simpa [same, kind.key_put] using stays
  · simpa [same] using tidy old inside

/-- What is held has not to go. -/
theorem Kind.Held.tidy_hold (holds : kind.Held objects held) (tidy : kind.Tidy objects)
    (some : ∀ other, 0 ≤ held other) :
    kind.Tidy (kind.adjust key 1 objects) := by
  intro object member
  obtain ⟨old, inside, rfl⟩ := List.mem_map.mp member
  by_cases same : kind.key old = key
  · rw [if_pos same]
    by_contra gone
    have count := kind.gone_count _ (Bool.not_eq_false _ ▸ gone)
    rw [kind.count_put, holds.counted old inside] at count
    have := some (kind.key old)
    omega
  · rw [if_neg same]
    exact tidy old inside

end

end SolidIrcd.Refs
