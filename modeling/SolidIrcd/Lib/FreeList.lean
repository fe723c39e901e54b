import Mathlib.Data.List.Perm.Basic
import Mathlib.Data.List.Range

/-! Objects that are made in blocks, handed out one by one and given back to a list of free
ones, with the statistics of how many there are and how many are in use. -/

namespace SolidIrcd

/-- The objects are numbered as they are made; `total` have been. -/
structure FreeList where
  pool : List Nat
  total : Nat
  used : Int
  deriving DecidableEq, Repr

namespace FreeList

def empty : FreeList := ⟨[], 0, 0⟩

/-- One more block. -/
def grow (list : FreeList) (count : Nat) : FreeList :=
  { list with
    pool := List.range' list.total count ++ list.pool
    total := list.total + count }

/-- The first that is free, from a new block when none is. -/
def take (list : FreeList) (count : Nat) : Nat × FreeList :=
  let list := if list.pool = [] then list.grow count else list
  (list.pool.headD list.total, { list with pool := list.pool.tail, used := list.used + 1 })

def give (list : FreeList) (item : Nat) : FreeList := { list with pool := item :: list.pool, used := list.used - 1 }

/-- The free objects are those that exist and are not out, each listed once. -/
structure Balanced (list : FreeList) (out : Nat → Prop) : Prop where
  once : list.pool.Nodup
  free : ∀ item, item ∈ list.pool ↔ item < list.total ∧ ¬ out item
  made : ∀ item, out item → item < list.total
  used : list.used + list.pool.length = list.total

variable {list : FreeList} {out out' : Nat → Prop}

theorem Balanced.empty (none : ∀ item, ¬ out item) : FreeList.empty.Balanced out where
  once := List.nodup_nil
  free := by simp [FreeList.empty]
  made := fun item here => absurd here (none item)
  used := rfl

theorem Balanced.congr (balanced : list.Balanced out) (same : ∀ item, out' item ↔ out item) : list.Balanced out' where
  once := balanced.once
  free := by
    intro item
    rw [same, balanced.free]
  made := fun item here => balanced.made item ((same item).mp here)
  used := balanced.used

theorem Balanced.grow (balanced : list.Balanced out) (count : Nat) : (list.grow count).Balanced out where
  once := by
    refine List.nodup_append.mpr ⟨List.nodup_range', balanced.once, ?_⟩
    rintro first new second old rfl
    have below := ((balanced.free first).mp old).1
    rw [List.mem_range'_1] at new
    omega
  free := by
    intro item
    simp only [FreeList.grow, List.mem_append, List.mem_range'_1, balanced.free]
    constructor
    · rintro (new | ⟨old, inside⟩)
      · refine ⟨by omega, fun here => ?_⟩
        have := balanced.made item here
        omega
      · exact ⟨by omega, inside⟩
    · rintro ⟨below, inside⟩
      by_cases old : item < list.total
      · exact .inr ⟨old, inside⟩
      · exact .inl (by omega)
  made := fun item here => Nat.lt_of_lt_of_le (balanced.made item here) (Nat.le_add_right ..)
  used := by
    have used := balanced.used
    simp only [FreeList.grow, List.length_append, List.length_range']
    omega

private theorem Balanced.pop (balanced : list.Balanced out) (some : list.pool ≠ [])
    (more : ∀ item, out' item ↔ out item ∨ item = list.pool.headD list.total) :
    ¬ out (list.pool.headD list.total) ∧
      FreeList.Balanced { list with pool := list.pool.tail, used := list.used + 1 } out' := by
  obtain ⟨pool, total, used⟩ := list
  cases pool with
  | nil => exact absurd rfl some
  | cons first rest =>
    obtain ⟨once, free, made, sum⟩ := balanced
    obtain ⟨absent, once⟩ := List.nodup_cons.mp once
    obtain ⟨below, inside⟩ := (free first).mp List.mem_cons_self
    simp only [List.headD_cons, List.tail_cons] at more ⊢
    refine ⟨inside, once, ?_, ?_, ?_⟩
    · intro item
      have mem := free item
      rw [List.mem_cons] at mem
      rw [more, not_or, ← and_assoc, ← mem]
      constructor
      · intro member
        refine ⟨.inr member, ?_⟩
        rintro rfl
        exact absent member
      · rintro ⟨same | member, differs⟩
        · exact absurd same differs
        · exact member
    · intro item here
      obtain old | rfl := (more item).mp here
      · exact made item old
      · exact below
    · simp only [List.length_cons] at sum
      change used + 1 + (rest.length : Int) = total
      omega

/-- What is handed out was not out before. -/
theorem Balanced.take (balanced : list.Balanced out) {count : Nat} (some : 0 < count)
    (more : ∀ item, out' item ↔ out item ∨ item = (list.take count).1) :
    ¬ out (list.take count).1 ∧ (list.take count).2.Balanced out' := by
  unfold FreeList.take at more ⊢
  dsimp only at more ⊢
  by_cases none : list.pool = []
  · rw [if_pos none] at more ⊢
    refine (balanced.grow count).pop ?_ more
    obtain ⟨count, rfl⟩ : ∃ rest, count = rest + 1 := ⟨count - 1, by omega⟩
    simp [FreeList.grow, List.range'_succ]
  · rw [if_neg none] at more ⊢
    exact balanced.pop none more

/-- Only what is out is given back. -/
theorem Balanced.give (balanced : list.Balanced out) (here : out given)
    (fewer : ∀ item, out' item ↔ out item ∧ item ≠ given) : (list.give given).Balanced out' where
  once := by
    refine List.nodup_cons.mpr ⟨fun member => ?_, balanced.once⟩
    exact ((balanced.free given).mp member).2 here
  free := by
    intro item
    rw [FreeList.give, List.mem_cons, balanced.free, fewer, not_and_not_right]
    constructor
    · rintro (rfl | ⟨below, inside⟩)
      · exact ⟨balanced.made item here, fun _ => rfl⟩
      · exact ⟨below, fun member => absurd member inside⟩
    · rintro ⟨below, only⟩
      by_cases member : out item
      · exact .inl (only member)
      · exact .inr ⟨below, member⟩
  made := fun item left => balanced.made item ((fewer item).mp left).1
  used := by
    have used := balanced.used
    simp only [FreeList.give, List.length_cons]
    omega

/-- The statistics are the true counts. -/
theorem Balanced.counts [DecidablePred out] (balanced : list.Balanced out) :
    list.used = ((List.range list.total).filter fun item => out item).length ∧
      (list.total : Int) - list.used = list.pool.length := by
  have used := balanced.used
  have free : list.pool.Perm ((List.range list.total).filter fun item => !decide (out item)) := by
    refine (List.perm_ext_iff_of_nodup balanced.once (List.nodup_range.filter _)).mpr fun item => ?_
    simp [balanced.free item]
  have parts := List.length_eq_length_filter_add (l := List.range list.total) fun item => decide (out item)
  rw [List.length_range, ← free.length_eq] at parts
  constructor
  · omega
  · omega

end FreeList

end SolidIrcd
