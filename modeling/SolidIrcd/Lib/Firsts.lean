import Mathlib.Data.List.Basic

/-! The first item of every class, in order: `List.eraseDupsBy` as a loop builds it, one item after the other behind
those it keeps. -/

namespace SolidIrcd.Firsts

variable {α : Type} {same : α → α → Bool}

/-- An item comes behind the kept ones unless it is the same as one of them. -/
def keep (same : α → α → Bool) (kept : List α) (item : α) : List α :=
  if kept.any (same item) then kept else kept ++ [item]

/-- No item is the same as one in front of it. -/
def Distinct (same : α → α → Bool) (items : List α) : Prop := items.Pairwise fun before item => same item before = false

theorem loop_eq_foldl (same : α → α → Bool) (items kept : List α) :
    List.eraseDupsBy.loop same items kept.reverse = items.foldl (keep same) kept := by
  induction items generalizing kept with
  | nil => simp [List.eraseDupsBy.loop]
  | cons item items ih =>
    rw [List.foldl_cons, List.eraseDupsBy.loop, List.any_reverse, keep]
    split
    · rename_i held
      rw [if_pos held, ih]
    · rename_i fresh
      have behind := ih (kept ++ [item])
      rw [List.reverse_append, List.reverse_singleton, List.singleton_append] at behind
      rw [if_neg (by simp [fresh]), behind]

theorem eraseDupsBy_eq_foldl (same : α → α → Bool) (items : List α) :
    items.eraseDupsBy same = items.foldl (keep same) [] :=
  loop_eq_foldl same items []

theorem distinct_keep (distinct : Distinct same kept) (item : α) : Distinct same (keep same kept item) := by
  unfold keep
  split
  · exact distinct
  · rename_i fresh
    refine List.pairwise_append.mpr ⟨distinct, List.pairwise_singleton _ _, ?_⟩
    intro before member other last
    rw [List.mem_singleton.mp last]
    exact Bool.eq_false_iff.mpr fun held => fresh (List.any_eq_true.mpr ⟨before, member, held⟩)

theorem distinct_foldl (distinct : Distinct same kept) (items : List α) :
    Distinct same (items.foldl (keep same) kept) := by
  induction items generalizing kept with
  | nil => exact distinct
  | cons item items ih => exact ih (distinct_keep distinct item)

theorem foldl_sublist (same : α → α → Bool) (kept items : List α) :
    (items.foldl (keep same) kept).Sublist (kept ++ items) := by
  induction items generalizing kept with
  | nil => simp
  | cons item items ih =>
    have later := ih (keep same kept item)
    refine later.trans ?_
    unfold keep
    split
    · exact (List.Sublist.refl kept).append (List.sublist_cons_self item items)
    · simp

/-- Items that are all different are all kept. -/
theorem foldl_of_distinct (distinct : Distinct same (kept ++ items)) :
    items.foldl (keep same) kept = kept ++ items := by
  induction items generalizing kept with
  | nil => simp
  | cons item items ih =>
    have fresh : kept.any (same item) = false := List.any_eq_false.mpr fun before member =>
      Bool.eq_false_iff.mp ((List.pairwise_append.mp distinct).2.2 before member item List.mem_cons_self)
    have split : kept ++ item :: items = (kept ++ [item]) ++ items := by simp
    rw [List.foldl_cons, keep, fresh, if_neg Bool.false_ne_true, ih (split ▸ distinct), ← split]

theorem distinct_eraseDupsBy (same : α → α → Bool) (items : List α) : Distinct same (items.eraseDupsBy same) := by
  rw [eraseDupsBy_eq_foldl]
  exact distinct_foldl List.Pairwise.nil items

theorem eraseDupsBy_sublist (same : α → α → Bool) (items : List α) : (items.eraseDupsBy same).Sublist items := by
  rw [eraseDupsBy_eq_foldl]
  exact foldl_sublist same [] items

theorem eraseDupsBy_eraseDupsBy (same : α → α → Bool) (items : List α) :
    (items.eraseDupsBy same).eraseDupsBy same = items.eraseDupsBy same := by
  rw [eraseDupsBy_eq_foldl same (items.eraseDupsBy same)]
  exact foldl_of_distinct (distinct_eraseDupsBy same items)

end SolidIrcd.Firsts
