import Mathlib.Data.Fin.Basic

/-! Trees, by the neighbour of each node that leads to another. -/

namespace SolidIrcd

/-- `next a b` is the neighbour of `a` that leads to `b`. Every link has each node on one of its sides. -/
structure Tree (ν : Type) where
  next : ν → ν → ν
  hops : ν → ν → Nat
  leaves : ∀ a b, a ≠ b → next a b ≠ a
  near : ∀ a b, a ≠ b → next a (next a b) = next a b
  closer : ∀ a b, a ≠ b → hops (next a b) b < hops a b
  sides : ∀ a c, c ≠ a → next a c = c → ∀ x, (x ≠ a ∧ next a x = c ↔ ¬ (x ≠ c ∧ next c x = a))

namespace Tree

variable {ν : Type}

section Sides

variable {tree : Tree ν}

/-- Seen from `a`, the node `x` is behind its neighbour `c`. -/
def Behind (tree : Tree ν) (a c x : ν) : Prop := x ≠ a ∧ tree.next a x = c

theorem Behind.unique (behind : tree.Behind a c x) (other : tree.Behind a d x) : c = d :=
  behind.2.symm.trans other.2

theorem behind_next (apart : x ≠ a) : tree.Behind a (tree.next a x) x := ⟨apart, rfl⟩

/-- A node that has something behind it is a neighbour. -/
theorem Behind.joined (behind : tree.Behind a c x) : tree.Behind a c c := by
  obtain ⟨apart, next⟩ := behind
  subst next
  exact ⟨tree.leaves a x apart.symm, tree.near a x apart.symm⟩

theorem Behind.sides (joined : tree.Behind a c y) : tree.Behind a c x ↔ ¬ tree.Behind c a x := by
  obtain ⟨apart, next⟩ := joined.joined
  exact tree.sides a c apart next x

theorem Behind.symm (joined : tree.Behind a c x) : tree.Behind c a a := by
  have self : ¬ tree.Behind a c a := fun behind => behind.1 rfl
  exact not_not.mp fun other => self (joined.sides.mpr other)

/-- A path goes on behind the link that it comes over. -/
theorem Behind.before (ahead : tree.Behind b c x) (back : tree.Behind c b o) (apart : o ≠ b) :
    tree.Behind (tree.next b o) b x := by
  have joined : tree.Behind b (tree.next b o) o := behind_next apart
  refine joined.symm.sides.mpr fun behind => ?_
  have same : tree.next b o = c := behind.unique ahead
  exact back.sides.mp back (same ▸ joined)

/-- What holds between neighbours on the way from `speaker` to `hearer` holds along it. -/
theorem follow (tree : Tree ν) (Related : α → α → Prop) (refl : ∀ {a}, Related a a)
    (trans : ∀ {a b c}, Related a b → Related b c → Related a c) (said : ν → α)
    (hearer : ν) (each : ∀ a b, tree.Behind b a speaker → tree.Behind a b hearer → Related (said b) (said a)) (here : ν)
    (way : here ≠ speaker → tree.Behind (tree.next here speaker) here hearer) :
    Related (said here) (said speaker) := by
  induction steps : tree.hops here speaker using Nat.strongRecOn generalizing here with
  | ind steps ih =>
    by_cases done : here = speaker
    · rw [done]
      exact refl
    · have back : tree.Behind here (tree.next here speaker) speaker := behind_next (Ne.symm done)
      have before := ih _ (steps ▸ tree.closer here speaker done) (tree.next here speaker)
        (fun on => (way done).before back (Ne.symm on)) rfl
      exact trans (each _ here back (way done)) before

end Sides

/-- Three nodes in a row. -/
def row : Tree (Fin 3) where
  next a b := if a < b then a + 1 else if b < a then a - 1 else a
  hops a b := (a.val - b.val) + (b.val - a.val)
  leaves := by decide
  near := by decide
  closer := by decide
  sides := by decide

end Tree

end SolidIrcd
