import Mathlib.Logic.Function.Basic

/-! Marks that are all wiped by counting on: a key is marked when its stamp is the current
serial. The table is only cleared when the serials are used up. -/

namespace SolidIrcd

open Function (update)

structure Stamps (κ : Type) where
  table : κ → Nat
  serial : Nat

namespace Stamps

variable {κ : Type}

def start : Stamps κ := ⟨fun _ => 0, 0⟩

/-- The next serial, at most `highest`. -/
def next (stamps : Stamps κ) (highest : Nat) : Stamps κ :=
  if stamps.serial = highest then ⟨fun _ => 0, 1⟩ else { stamps with serial := stamps.serial + 1 }

def marked (stamps : Stamps κ) (key : κ) : Bool := stamps.table key == stamps.serial

/-- No stamp is from a serial to come. -/
structure Sound (stamps : Stamps κ) (highest : Nat) : Prop where
  serial : stamps.serial ≤ highest
  table : ∀ key, stamps.table key ≤ stamps.serial

variable {stamps : Stamps κ}

theorem sound_start : (start : Stamps κ).Sound highest := ⟨Nat.zero_le _, fun _ => Nat.le_refl 0⟩

theorem Sound.next (sound : stamps.Sound highest) (positive : 0 < highest) : (stamps.next highest).Sound highest := by
  have serial := sound.serial
  unfold Stamps.next
  split
  · exact ⟨positive, fun _ => Nat.zero_le 1⟩
  next fewer =>
    exact ⟨Nat.lt_of_le_of_ne serial fewer, fun key => Nat.le_succ_of_le (sound.table key)⟩

/-- Counting on wipes every mark. -/
theorem Sound.unmarked_next (sound : stamps.Sound highest) (key : κ) : (stamps.next highest).marked key = false := by
  have old := sound.table key
  unfold Stamps.next marked
  split
  · rfl
  · simp only [beq_eq_false_iff_ne, ne_eq]
    omega

variable [DecidableEq κ]

def mark (stamps : Stamps κ) (key : κ) : Stamps κ := { stamps with table := update stamps.table key stamps.serial }

theorem Sound.mark (sound : stamps.Sound highest) (key : κ) : (stamps.mark key).Sound highest := by
  refine ⟨sound.serial, fun other => ?_⟩
  unfold Stamps.mark
  by_cases same : other = key
  · simp [same]
  · simpa [same] using sound.table other

@[simp] theorem marked_mark (stamps : Stamps κ) (key other : κ) :
    (stamps.mark key).marked other = (decide (other = key) || stamps.marked other) := by
  unfold mark marked
  by_cases same : other = key
  · simp [same]
  · simp [same]

end Stamps

end SolidIrcd
