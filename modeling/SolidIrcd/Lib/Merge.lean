import Mathlib.Order.Lattice

/-! Merging as the least upper bound of ranks: where a merge takes the supremum in some join
semilattice and equal ranks are equal values, the order of merges does not matter. -/

namespace SolidIrcd.Merge

/-- On the good values the merge is the supremum of the ranks. -/
structure Ranked {α β : Type} [SemilatticeSup β] (good : α → Prop) (merge : α → α → α) (rank : α → β) : Prop where
  closed : ∀ a b, good a → good b → good (merge a b)
  sup : ∀ a b, good a → good b → rank (merge a b) = rank a ⊔ rank b
  inj : ∀ a b, good a → good b → rank a = rank b → a = b

/-- The laws of a merge on a family of values, and what they are for: any order of merges
gives the same. -/
structure Laws {α : Type} (family : α → Prop) (merge : α → α → α) : Prop where
  comm : ∀ a b, family a → family b → merge a b = merge b a
  assoc : ∀ a b c, family a → family b → family c → merge (merge a b) c = merge a (merge b c)
  idem : ∀ a, family a → merge a a = a
  order : ∀ (start : α) (first second : List α), family start → (∀ a ∈ first, family a) → first.Perm second →
    first.foldl merge start = second.foldl merge start

variable {α β : Type} [SemilatticeSup β] {good : α → Prop} {merge : α → α → α} {rank : α → β}

theorem Ranked.comm (ranked : Ranked good merge rank) (one : good a) (two : good b) : merge a b = merge b a := by
  apply ranked.inj _ _ (ranked.closed a b one two) (ranked.closed b a two one)
  rw [ranked.sup a b one two, ranked.sup b a two one, sup_comm]

theorem Ranked.assoc (ranked : Ranked good merge rank) (one : good a) (two : good b) (three : good c) :
    merge (merge a b) c = merge a (merge b c) := by
  have front := ranked.closed a b one two
  have back := ranked.closed b c two three
  apply ranked.inj _ _ (ranked.closed _ c front three) (ranked.closed a _ one back)
  rw [ranked.sup _ c front three, ranked.sup a b one two, ranked.sup a _ one back, ranked.sup b c two three, sup_assoc]

theorem Ranked.idem (ranked : Ranked good merge rank) (one : good a) : merge a a = a := by
  apply ranked.inj _ _ (ranked.closed a a one one) one
  rw [ranked.sup a a one one, sup_idem]

theorem Ranked.right_comm (ranked : Ranked good merge rank) (one : good a) (two : good b) (three : good c) :
    merge (merge a b) c = merge (merge a c) b := by
  rw [ranked.assoc one two three, ranked.comm two three, ← ranked.assoc one three two]

theorem Ranked.order (ranked : Ranked good merge rank) (start : α) {first second : List α} (begun : good start)
    (all : ∀ a ∈ first, good a) (perm : first.Perm second) : first.foldl merge start = second.foldl merge start := by
  induction perm generalizing start with
  | nil => rfl
  | cons a perm ih =>
    have here := all a (List.mem_cons_self ..)
    exact ih (merge start a) (ranked.closed start a begun here) fun b member => all b (List.mem_cons_of_mem _ member)
  | swap a b rest =>
    have swapped := ranked.right_comm begun (all b (by simp)) (all a (by simp))
    rw [List.foldl_cons, List.foldl_cons, List.foldl_cons, List.foldl_cons, swapped]
  | trans perm perm' ih ih' =>
    exact (ih start begun all).trans (ih' start begun fun a member => all a (perm.mem_iff.mpr member))

theorem Ranked.laws (ranked : Ranked good merge rank) : Laws good merge where
  comm _ _ := ranked.comm
  assoc _ _ _ := ranked.assoc
  idem _ := ranked.idem
  order start _ _ := ranked.order start

theorem Laws.mono {family : α → Prop} (laws : Laws good merge) (smaller : ∀ a, family a → good a) : Laws family merge where
  comm a b one two := laws.comm a b (smaller a one) (smaller b two)
  assoc a b c one two three := laws.assoc a b c (smaller a one) (smaller b two) (smaller c three)
  idem a one := laws.idem a (smaller a one)
  order start first second begun all :=
    laws.order start first second (smaller start begun) fun a member => smaller a (all a member)

end SolidIrcd.Merge
