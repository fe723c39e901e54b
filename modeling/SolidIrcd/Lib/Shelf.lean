/-! A store that keeps its items in slots: an item is put into the slot that is computed
from it, and a search looks through a few slots only. -/

namespace SolidIrcd

/-- What each slot holds, the newest item first. -/
abbrev Shelf (σ α : Type) := σ → List α

namespace Shelf

variable {σ α : Type} {shelf : Shelf σ α} {place : α → Option σ}

def empty : Shelf σ α := fun _ => []

def put [DecidableEq σ] (shelf : Shelf σ α) (slot : σ) (item : α) : Shelf σ α := fun other =>
  if other = slot then item :: shelf other else shelf other

/-- Every item for which `gone` holds leaves its slot. -/
def discard (shelf : Shelf σ α) (gone : α → Bool) : Shelf σ α := fun slot =>
  (shelf slot).filter fun item => !gone item

/-- Every item of the chosen slots is changed in its place. -/
def revise (shelf : Shelf σ α) (slots : σ → Bool) (change : α → α) : Shelf σ α := fun slot =>
  if slots slot then (shelf slot).map change else shelf slot

/-- The first item that passes the test is changed in its place, or goes. -/
def replaceFirst (test : α → Bool) (change : α → Option α) : List α → List α
  | [] => []
  | item :: items => if test item then (change item).toList ++ items else item :: replaceFirst test change items

def amend [DecidableEq σ] (shelf : Shelf σ α) (slot : σ) (test : α → Bool) (change : α → Option α) : Shelf σ α :=
  fun other => if other = slot then replaceFirst test change (shelf other) else shelf other

/-- The first item that passes the test of its slot. -/
def search (shelf : Shelf σ α) (slots : List (σ × (α → Bool))) : Option α :=
  slots.findSome? fun (slot, test) => (shelf slot).find? test

def Holds (shelf : Shelf σ α) (item : α) : Prop := ∃ slot, item ∈ shelf slot

/-- Every item is in its own slot. -/
def Filed (place : α → Option σ) (shelf : Shelf σ α) : Prop := ∀ slot, ∀ item ∈ shelf slot, place item = some slot

theorem Filed.empty : Filed place (Shelf.empty : Shelf σ α) := by
  intro slot item member
  cases member

theorem Filed.put [DecidableEq σ] (filed : Filed place shelf) (here : place item = some slot) :
    Filed place (shelf.put slot item) := by
  intro slot' other member
  unfold Shelf.put at member
  split at member
  next same =>
    obtain rfl | old := List.mem_cons.mp member
    · rw [here, same]
    · exact filed slot' other old
  next => exact filed slot' other member

theorem Filed.discard (filed : Filed place shelf) (gone : α → Bool) : Filed place (shelf.discard gone) := by
  intro slot item member
  exact filed slot item (List.mem_filter.mp member).1

theorem holds_empty : ¬ (Shelf.empty : Shelf σ α).Holds item := by
  intro ⟨slot, member⟩
  cases member

theorem holds_put [DecidableEq σ] : (shelf.put slot item).Holds other ↔ other = item ∨ shelf.Holds other := by
  unfold Holds put
  constructor
  · intro ⟨place, member⟩
    split at member
    · obtain rfl | old := List.mem_cons.mp member
      · exact .inl rfl
      · exact .inr ⟨place, old⟩
    · exact .inr ⟨place, member⟩
  · rintro (rfl | ⟨place, member⟩)
    · exact ⟨slot, by simp⟩
    · refine ⟨place, ?_⟩
      split
      · exact List.mem_cons_of_mem _ member
      · exact member

/-- An item leaves one slot. -/
def remove [DecidableEq σ] [DecidableEq α] (shelf : Shelf σ α) (slot : σ) (item : α) : Shelf σ α := fun other =>
  if other = slot then (shelf other).erase item else shelf other

theorem Filed.remove [DecidableEq σ] [DecidableEq α] (filed : Filed place shelf) (slot : σ) (item : α) :
    Filed place (shelf.remove slot item) := by
  intro slot' other member
  unfold Shelf.remove at member
  split at member
  next => exact filed slot' other (List.mem_of_mem_erase member)
  next => exact filed slot' other member

/-- An item that is in no other slot, and there but once, is gone. -/
theorem holds_remove [DecidableEq σ] [DecidableEq α] (filed : Filed place shelf) (here : place item = some slot)
    (once : (shelf slot).Nodup) : (shelf.remove slot item).Holds other ↔ shelf.Holds other ∧ other ≠ item := by
  constructor
  · intro ⟨slot', member⟩
    unfold Shelf.remove at member
    split at member
    next same =>
      rw [same, once.mem_erase_iff] at member
      exact ⟨⟨slot, member.2⟩, member.1⟩
    next differ =>
      refine ⟨⟨slot', member⟩, ?_⟩
      rintro rfl
      exact differ (Option.some.inj ((filed slot' other member).symm.trans here))
  · intro ⟨⟨slot', member⟩, differ⟩
    refine ⟨slot', ?_⟩
    unfold Shelf.remove
    split
    · exact (List.mem_erase_of_ne differ).mpr member
    · exact member

/-- One item after the other is put into its slot. -/
def refile [DecidableEq σ] (slot : α → σ) (shelf : Shelf σ α) (items : List α) : Shelf σ α :=
  items.foldl (fun shelf item => shelf.put (slot item) item) shelf

theorem refile_apply [DecidableEq σ] (slot : α → σ) (shelf : Shelf σ α) (items : List α) (here : σ) :
    refile slot shelf items here = (items.filter fun item => slot item = here).reverse ++ shelf here := by
  induction items generalizing shelf with
  | nil => rfl
  | cons item items ih =>
    have later := ih (shelf.put (slot item) item)
    rw [refile] at later ⊢
    rw [List.foldl_cons, later, put]
    by_cases same : slot item = here
    · rw [if_pos same.symm, List.filter_cons_of_pos (by simpa using same)]
      simp
    · rw [if_neg (Ne.symm same), List.filter_cons_of_neg (by simpa using same)]

theorem holds_discard : (shelf.discard gone).Holds item ↔ shelf.Holds item ∧ gone item = false := by
  simp only [Holds, discard, List.mem_filter, Bool.not_eq_true', exists_and_right]

theorem Filed.revise (filed : Filed place shelf) (same : ∀ item, place (change item) = place item) (slots : σ → Bool) :
    Filed place (shelf.revise slots change) := by
  intro slot item member
  unfold Shelf.revise at member
  split at member
  next =>
    obtain ⟨old, here, rfl⟩ := List.mem_map.mp member
    rw [same, filed slot old here]
  next => exact filed slot item member

theorem holds_revise : (shelf.revise slots change).Holds item ↔
    ∃ slot, ∃ old ∈ shelf slot, (if slots slot then change old else old) = item := by
  unfold Holds revise
  refine exists_congr fun slot => ?_
  split
  next => exact List.mem_map
  next => simp

/-- The place where the first item that passes stands. -/
theorem replaceFirst_split (change : α → Option α) {items : List α} (found : items.find? test = some item) :
    ∃ front back, items = front ++ item :: back ∧ (∀ other ∈ front, test other = false) ∧
      replaceFirst test change items = front ++ ((change item).toList ++ back) := by
  induction items with
  | nil => simp at found
  | cons first items ih =>
    cases passes : test first with
    | true =>
      obtain rfl : first = item := by simpa [passes] using found
      exact ⟨[], items, rfl, by simp, by simp [replaceFirst, passes]⟩
    | false =>
      obtain ⟨front, back, split, none, replaced⟩ := ih (by simpa [passes] using found)
      refine ⟨first :: front, back, by simp [split], ?_, by simp [replaceFirst, passes, replaced]⟩
      intro other member
      obtain rfl | later := List.mem_cons.mp member
      · exact passes
      · exact none other later

theorem mem_replaceFirst {items : List α} (member : other ∈ replaceFirst test change items) :
    other ∈ items ∨ ∃ item ∈ items, test item = true ∧ change item = some other := by
  induction items with
  | nil => cases member
  | cons first items ih =>
    unfold replaceFirst at member
    split at member
    next passes =>
      obtain new | old := List.mem_append.mp member
      · exact .inr ⟨first, List.mem_cons_self .., passes, Option.mem_toList.mp new⟩
      · exact .inl (List.mem_cons_of_mem _ old)
    next =>
      obtain rfl | later := List.mem_cons.mp member
      · exact .inl (List.mem_cons_self ..)
      · obtain old | ⟨item, here, passes, changed⟩ := ih later
        · exact .inl (List.mem_cons_of_mem _ old)
        · exact .inr ⟨item, List.mem_cons_of_mem _ here, passes, changed⟩

theorem Filed.amend [DecidableEq σ] (filed : Filed place shelf)
    (same : ∀ item other, test item = true → change item = some other → place other = place item) (slot : σ) :
    Filed place (shelf.amend slot test change) := by
  intro slot' other member
  unfold Shelf.amend at member
  split at member
  next =>
    obtain old | ⟨item, here, passes, changed⟩ := mem_replaceFirst member
    · exact filed slot' other old
    · rw [same item other passes changed, filed slot' item here]
  next => exact filed slot' other member

/-- What a search returns stands in one of its slots and passed the test there. -/
theorem search_some (found : shelf.search slots = some item) :
    ∃ slot test, (slot, test) ∈ slots ∧ item ∈ shelf slot ∧ test item = true := by
  obtain ⟨⟨slot, test⟩, member, here⟩ := List.exists_of_findSome?_eq_some found
  exact ⟨slot, test, member, List.mem_of_find?_eq_some here, List.find?_some here⟩

theorem search_isSome (member : (slot, test) ∈ slots) (here : item ∈ shelf slot) (passes : test item = true) :
    (shelf.search slots).isSome := by
  rw [search, List.findSome?_isSome_iff]
  refine ⟨(slot, test), member, ?_⟩
  rw [List.find?_isSome]
  exact ⟨item, here, passes⟩

end Shelf

end SolidIrcd
