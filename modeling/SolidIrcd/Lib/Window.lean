import Mathlib.Data.List.Count

/-! A window of fixed length that starts anew with the first event after its end, and lets
a number of events through. Times and counts are integers. -/

namespace SolidIrcd

/-- The events that were let through, the newest first, and what is kept of them: when the
window started, and how many were let through since. -/
inductive Window (most length : Int) : Int → Int → List Int → Prop where
  | start (first : Int) : Window most length first 0 []
  | enter (window : Window most length first count log) (room : count < most) (after : first ≤ now)
      (inside : now ≤ first + length) : Window most length first (count + 1) (now :: log)
  | renew (window : Window most length first count log) (ended : first + length < now) : Window most length now 0 log

namespace Window

/-- The events of an interval. -/
def events (low high : Int) (log : List Int) : Int := log.countP fun time => low ≤ time ∧ time ≤ high

theorem events_cons (low high now : Int) (log : List Int) :
    events low high (now :: log) = events low high log + if low ≤ now ∧ now ≤ high then 1 else 0 := by
  unfold events
  rw [List.countP_cons]
  split
  next inside => simp only [decide_eq_true_eq] at inside; simp [inside]
  next outside => simp only [decide_eq_true_eq] at outside; simp [outside]

theorem count_le (window : Window most length first count log) (positive : 0 ≤ most) : count ≤ most := by
  cases window with
  | start => exact positive
  | enter _ room _ _ => omega
  | renew => exact positive

/-- All events lie before the end of the window. -/
theorem le_end (window : Window most length first count log) (positive : 0 ≤ length) :
    ∀ time ∈ log, time ≤ first + length := by
  induction window with
  | start => simp
  | enter _ _ _ inside ih => exact List.forall_mem_cons.mpr ⟨inside, ih⟩
  | renew _ ended ih =>
    intro time member
    have before := ih time member
    omega

/-- The count is how many events there were since the window started. -/
theorem events_since (window : Window most length first count log) (positive : 0 ≤ length) :
    (log.countP fun time => first ≤ time : Int) = count := by
  induction window with
  | start => rfl
  | enter _ _ after _ ih =>
    rw [List.countP_cons_of_pos (by simpa using after)]
    omega
  | @renew first count log now window ended ih =>
    have none : log.countP (fun time => decide (now ≤ time)) = 0 := by
      rw [List.countP_eq_zero]
      intro time member
      have before := window.le_end positive time member
      simp only [decide_eq_true_eq]
      omega
    rw [none]
    rfl

/-- An interval no longer than a window meets two of them at most. -/
theorem events_le (window : Window most length first count log) (some : 0 ≤ most) (positive : 0 ≤ length) (low : Int) :
    events low (low + length) log ≤ 2 * most ∧
      (first ≤ low + length → events low (low + length) log ≤ most + count) := by
  induction window with
  | start => simp [events]; omega
  | @enter first count log now window room after inside ih =>
    rw [events_cons]
    split
    next within =>
      have less := ih.2 (by omega)
      omega
    next => exact ⟨by omega, fun meets => by have less := ih.2 meets; omega⟩
  | @renew first count log now window ended ih =>
    refine ⟨ih.1, fun meets => ?_⟩
    have since := window.events_since positive
    have few := window.count_le some
    have all : events low (low + length) log ≤ (log.countP fun time => first ≤ time : Int) := by
      apply Int.ofNat_le.mpr
      apply List.countP_mono_left
      intro time _ inside
      simp only [decide_eq_true_eq] at inside ⊢
      omega
    omega

end Window

end SolidIrcd
