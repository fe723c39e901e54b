import Mathlib.Data.List.Nodup
import Mathlib.Data.List.Perm.Basic

/-! Two families of lists that name each other: `b` is on the list of `a` when `a` is
on the list of `b`, and nobody is on a list twice. -/

namespace SolidIrcd.Mirror

variable {α β : Type}

structure Mirrored (there : α → List β) (back : β → List α) : Prop where
  once : ∀ a, (there a).Nodup
  onceBack : ∀ b, (back b).Nodup
  both : ∀ a b, b ∈ there a ↔ a ∈ back b

theorem Mirrored.empty : Mirrored (fun _ : α => ([] : List β)) (fun _ : β => ([] : List α)) :=
  ⟨fun _ => List.nodup_nil, fun _ => List.nodup_nil, by simp⟩

variable {there there' : α → List β} {back back' : β → List α}

theorem Mirrored.symm (mirrored : Mirrored there back) : Mirrored back there :=
  ⟨mirrored.onceBack, mirrored.once, fun b a => (mirrored.both a b).symm⟩

theorem Mirrored.congr (mirrored : Mirrored there back) (same : ∀ a, there' a = there a)
    (sameBack : ∀ b, back' b = back b) : Mirrored there' back' := by
  have first : there' = there := funext same
  have second : back' = back := funext sameBack
  rw [first, second]
  exact mirrored

/-- Putting two on each other's lists. -/
theorem Mirrored.link [DecidableEq α] [DecidableEq β] (mirrored : Mirrored there back) {a : α} {b : β}
    (new : b ∉ there a) (self : (there' a).Perm (b :: there a)) (others : ∀ x, x ≠ a → there' x = there x)
    (selfBack : (back' b).Perm (a :: back b)) (othersBack : ∀ y, y ≠ b → back' y = back y) :
    Mirrored there' back' := by
  have newBack : a ∉ back b := fun member => new ((mirrored.both a b).mpr member)
  refine ⟨?_, ?_, ?_⟩
  · intro x
    by_cases same : x = a
    · subst same
      exact self.nodup_iff.mpr (List.nodup_cons.mpr ⟨new, mirrored.once x⟩)
    · rw [others x same]
      exact mirrored.once x
  · intro y
    by_cases same : y = b
    · subst same
      exact selfBack.nodup_iff.mpr (List.nodup_cons.mpr ⟨newBack, mirrored.onceBack y⟩)
    · rw [othersBack y same]
      exact mirrored.onceBack y
  · intro x y
    by_cases sameX : x = a <;> by_cases sameY : y = b
    · subst sameX sameY
      simp [self.mem_iff, selfBack.mem_iff]
    · subst sameX
      rw [self.mem_iff, List.mem_cons, othersBack y sameY, ← mirrored.both]
      simp [sameY]
    · subst sameY
      rw [selfBack.mem_iff, List.mem_cons, others x sameX, mirrored.both]
      simp [sameX]
    · rw [others x sameX, othersBack y sameY]
      exact mirrored.both x y

/-- Taking two off each other's lists. -/
theorem Mirrored.unlink [DecidableEq α] [DecidableEq β] (mirrored : Mirrored there back) {a : α} {b : β}
    (self : there' a = (there a).erase b) (others : ∀ x, x ≠ a → there' x = there x)
    (selfBack : back' b = (back b).erase a) (othersBack : ∀ y, y ≠ b → back' y = back y) :
    Mirrored there' back' := by
  refine ⟨?_, ?_, ?_⟩
  · intro x
    by_cases same : x = a
    · subst same
      rw [self]
      exact (mirrored.once x).erase b
    · rw [others x same]
      exact mirrored.once x
  · intro y
    by_cases same : y = b
    · subst same
      rw [selfBack]
      exact (mirrored.onceBack y).erase a
    · rw [othersBack y same]
      exact mirrored.onceBack y
  · intro x y
    by_cases sameX : x = a <;> by_cases sameY : y = b
    · subst sameX sameY
      simp [self, selfBack, (mirrored.once x).mem_erase_iff, (mirrored.onceBack y).mem_erase_iff]
    · subst sameX
      rw [self, (mirrored.once x).mem_erase_iff, othersBack y sameY, ← mirrored.both]
      simp [sameY]
    · subst sameY
      rw [selfBack, (mirrored.onceBack y).mem_erase_iff, others x sameX, mirrored.both]
      simp [sameX]
    · rw [others x sameX, othersBack y sameY]
      exact mirrored.both x y

/-- One that goes away empties its list and is taken off all the others. -/
theorem Mirrored.drop [DecidableEq α] (mirrored : Mirrored there back) (a : α) (gone : there' a = [])
    (others : ∀ x, x ≠ a → there' x = there x) (filtered : ∀ y, back' y = (back y).filter (· ≠ a)) :
    Mirrored there' back' := by
  refine ⟨?_, ?_, ?_⟩
  · intro x
    by_cases same : x = a
    · rw [same, gone]
      exact List.nodup_nil
    · rw [others x same]
      exact mirrored.once x
  · intro y
    rw [filtered]
    exact (mirrored.onceBack y).filter _
  · intro x y
    rw [filtered, List.mem_filter, ← mirrored.both]
    by_cases same : x = a
    · rw [same, gone]
      simp
    · rw [others x same]
      simp [same]

/-- Each names the other once, or neither does at all. -/
theorem Mirrored.count [DecidableEq α] [DecidableEq β] (mirrored : Mirrored there back) (a : α) (b : β) :
    (there a).count b = (back b).count a ∧ (there a).count b ≤ 1 := by
  rw [(mirrored.once a).count, (mirrored.onceBack b).count]
  by_cases member : b ∈ there a
  · simp [member, (mirrored.both a b).mp member]
  · have absent : a ∉ back b := fun other => member ((mirrored.both a b).mpr other)
    simp [member, absent]

end SolidIrcd.Mirror
