import Mathlib.Data.List.Count

/-! A clock that every charged event moves forward, and that must not be far ahead of the time when the next event
is let through. -/

namespace SolidIrcd

/-- The events that were let through, the newest first: when, and whether they were charged. -/
inductive Meter (burst cost : Nat) : Nat → List (Nat × Bool) → Prop where
  | start (clock : Nat) : Meter burst cost clock []
  | advance (meter : Meter burst cost clock log) (forward : clock ≤ later) : Meter burst cost later log
  | free (meter : Meter burst cost clock log) (now : Nat) : Meter burst cost clock ((now, false) :: log)
  | charge (meter : Meter burst cost clock log) (timely : now ≤ clock) (soon : clock < now + burst)
      (paid : clock + cost ≤ later) : Meter burst cost later ((now, true) :: log)

namespace Meter

/-- A charged event of an interval. -/
def during (first length : Nat) (event : Nat × Bool) : Bool :=
  event.2 && decide (first ≤ event.1 ∧ event.1 ≤ first + length)

private theorem count_le (meter : Meter burst cost clock log) (positive : 0 < cost) (first length : Nat) :
    (log.countP (during first length) = 0 ∨ first + log.countP (during first length) * cost ≤ clock) ∧
      log.countP (during first length) * cost < burst + length + cost := by
  induction meter with
  | start clock => exact ⟨.inl rfl, by simp; omega⟩
  | advance _ forward ih => exact ⟨ih.1.imp_right fun before => Nat.le_trans before forward, ih.2⟩
  | free _ now ih => simpa [during] using ih
  | @charge clock log now later _ timely soon paid ih =>
    obtain ⟨before, below⟩ := ih
    by_cases inside : first ≤ now ∧ now ≤ first + length
    · rw [List.countP_cons_of_pos (by simp [during, inside]), Nat.succ_mul]
      generalize log.countP (during first length) = events at before ⊢
      have behind : first + events * cost ≤ clock := by
        rcases before with rfl | before
        · omega
        · exact before
      omega
    · rw [List.countP_cons_of_neg (by simp [during, inside])]
      exact ⟨before.imp_right fun before => by omega, below⟩

/-- What an interval can see of charged events. -/
theorem bound (meter : Meter burst cost clock log) (positive : 0 < cost) (first length : Nat) :
    log.countP (during first length) ≤ (burst + length) / cost + 1 := by
  have below := (meter.count_le positive first length).2
  have rounded := Nat.lt_div_mul_add (a := burst + length) positive
  apply Nat.le_of_lt_succ
  apply Nat.lt_of_mul_lt_mul_right (a := cost)
  calc log.countP (during first length) * cost
    _ < burst + length + cost := below
    _ < (burst + length) / cost * cost + cost + cost := by omega
    _ = ((burst + length) / cost + 2) * cost := by rw [Nat.add_mul]; omega

end Meter

end SolidIrcd
