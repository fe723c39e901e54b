import Mathlib.Data.List.Nodup

/-! What the entries of a list add up to, when each has a key of its own. -/

namespace SolidIrcd.Census

variable {α κ : Type} {weight : α → Int} {entries : List α}

/-- The sum of the weights. -/
def total (weight : α → Int) : List α → Int
  | [] => 0
  | entry :: entries => weight entry + total weight entries

theorem total_eq_zero (none : ∀ entry ∈ entries, weight entry = 0) : total weight entries = 0 := by
  induction entries with
  | nil => rfl
  | cons entry entries ih =>
    rw [total, none entry List.mem_cons_self, ih fun next member => none next (List.mem_cons_of_mem _ member)]
    rfl

variable [DecidableEq κ] {key : α → κ} {entry : α}

theorem filter_of_not_mem (absent : key entry ∉ entries.map key) :
    entries.filter (fun other => key other ≠ key entry) = entries := by
  apply List.filter_eq_self.mpr
  intro other member
  have differs : key other ≠ key entry := fun same => absent (List.mem_map.mpr ⟨other, member, same⟩)
  simpa using differs

/-- Taking out an entry takes out its weight. -/
theorem total_remove (nodup : (entries.map key).Nodup) (member : entry ∈ entries) :
    total weight (entries.filter fun other => key other ≠ key entry) = total weight entries - weight entry := by
  induction entries with
  | nil => simp at member
  | cons first rest ih =>
    obtain ⟨fresh, nodup⟩ := List.nodup_cons.mp nodup
    rcases List.mem_cons.mp member with rfl | later
    · rw [List.filter_cons_of_neg (by simp), filter_of_not_mem fresh, total]
      omega
    · have differs : key first ≠ key entry := fun same => fresh (same ▸ List.mem_map_of_mem later)
      rw [List.filter_cons_of_pos (by simpa using differs), total, total, ih nodup later]
      omega

/-- Another entry takes the place of one. -/
def replace (key : α → κ) (entry : α) (entries : List α) : List α :=
  entries.map fun other => if key other = key entry then entry else other

theorem keys_replace (key : α → κ) (entry : α) (entries : List α) :
    (replace key entry entries).map key = entries.map key := by
  rw [replace, List.map_map]
  apply List.map_congr_left
  intro other _
  by_cases same : key other = key entry <;> simp [same]

theorem mem_replace (member : other ∈ replace key entry entries) :
    other = entry ∨ (other ∈ entries ∧ key other ≠ key entry) := by
  obtain ⟨old, present, same⟩ := List.mem_map.mp member
  split at same
  · exact .inl same.symm
  next differs => exact .inr ⟨same ▸ present, same ▸ differs⟩

theorem replace_replace {other : α} (same : key other = key entry) :
    replace key entry (replace key other entries) = replace key entry entries := by
  rw [replace, replace, List.map_map, replace]
  apply List.map_congr_left
  intro old _
  by_cases equal : key old = key other
  · simp [equal, same]
  · simp [equal, same ▸ equal]

/-- What the new entry shares with the old one stays. -/
theorem map_replace {β : Type} {old : α} (view : α → β) (nodup : (entries.map key).Nodup) (member : old ∈ entries)
    (same : key old = key entry) (kept : view entry = view old) :
    (replace key entry entries).map view = entries.map view := by
  rw [replace, List.map_map]
  apply List.map_congr_left
  intro other inside
  by_cases equal : key other = key entry
  · have : other = old := List.inj_on_of_nodup_map nodup inside member (equal.trans same.symm)
    rw [Function.comp_apply, if_pos equal, kept, this]
  · rw [Function.comp_apply, if_neg equal]

theorem replace_of_not_mem (absent : key entry ∉ entries.map key) : replace key entry entries = entries := by
  refine (List.map_congr_left fun other member => ?_).trans (List.map_id entries)
  exact if_neg fun same => absent (List.mem_map.mpr ⟨other, member, same⟩)

theorem total_replace {old : α} (nodup : (entries.map key).Nodup) (member : old ∈ entries) (same : key old = key entry) :
    total weight (replace key entry entries) = total weight entries - weight old + weight entry := by
  induction entries with
  | nil => simp at member
  | cons first rest ih =>
    obtain ⟨fresh, nodup⟩ := List.nodup_cons.mp nodup
    rcases List.mem_cons.mp member with rfl | later
    · have kept : replace key entry rest = rest := replace_of_not_mem (same ▸ fresh)
      rw [replace] at kept ⊢
      rw [List.map_cons, if_pos same, kept, total, total]
      omega
    · have differs : key first ≠ key entry := fun equal => fresh ((equal.trans same.symm) ▸ List.mem_map_of_mem later)
      have rest := ih nodup later
      rw [replace] at rest ⊢
      rw [List.map_cons, if_neg differs, total, total, rest]
      omega

end SolidIrcd.Census
