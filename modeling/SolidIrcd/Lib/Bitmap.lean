import Mathlib.Data.List.Count
import Mathlib.Data.List.Range

/-! Bitmaps kept in words of sixty-four bits. -/

namespace SolidIrcd.Bitmap

abbrev Words := List (BitVec 64)

/-- The bits are numbered through all words. -/
def bit (map : Words) (index : Nat) : Bool := (map.getD (index / 64) 0).getLsbD (index % 64)

/-- How many of the first bits are clear. -/
def clears (map : Words) (count : Nat) : Nat := (List.range count).countP fun index => !bit map index

/-- One bit is set in its word. -/
def mark (map : Words) (unit ctr : Nat) : Words := map.set unit (map.getD unit 0 ||| 1#64 <<< ctr)

/-- One bit is cleared in its word. -/
def unmark (map : Words) (unit ctr : Nat) : Words := map.set unit (map.getD unit 0 &&& ~~~(1#64 <<< ctr))

variable {map : Words} {unit ctr count : Nat}

theorem getLsbD_mask (small : ctr < 64) (index : Nat) : (1#64 <<< ctr).getLsbD index = decide (index = ctr) := by
  rw [BitVec.getLsbD_shiftLeft, BitVec.getLsbD_one]
  by_cases same : index = ctr
  · subst same
    simp [small]
  · by_cases less : index < ctr
    · simp [less, same]
    · have beyond : index - ctr ≠ 0 := by omega
      simp [same, beyond]

theorem mask_eq_zero : 1#64 <<< ctr = 0#64 ↔ 64 ≤ ctr := by
  constructor
  · intro zero
    by_contra small
    have set := getLsbD_mask (Nat.lt_of_not_le small) ctr
    rw [zero] at set
    simp at set
  · exact BitVec.shiftLeft_eq_zero

theorem mask_and_eq_zero (small : ctr < 64) (word : BitVec 64) :
    1#64 <<< ctr &&& word = 0#64 ↔ word.getLsbD ctr = false := by
  constructor
  · intro zero
    have at' := congrArg (fun word => word.getLsbD ctr) zero
    simpa [getLsbD_mask small] using at'
  · intro clear
    apply BitVec.eq_of_getLsbD_eq
    intro index inside
    rw [BitVec.getLsbD_and, getLsbD_mask small]
    by_cases same : index = ctr
    · simp [same, clear]
    · simp [same]

/-- The bits of one word, and the other words. -/
theorem bit_set (inside : unit < map.length) (word : BitVec 64) (index : Nat) :
    bit (map.set unit word) index = if index / 64 = unit then word.getLsbD (index % 64) else bit map index := by
  unfold bit
  split
  next same =>
    subst same
    simp [List.getD_eq_getElem?_getD, inside]
  next differs =>
    rw [List.getD_eq_getElem?_getD, List.getElem?_set_ne (Ne.symm differs), ← List.getD_eq_getElem?_getD]

theorem bit_mark (inside : unit < map.length) (small : ctr < 64) (index : Nat) :
    bit (mark map unit ctr) index = (bit map index || decide (index = unit * 64 + ctr)) := by
  rw [mark, bit_set inside]
  split
  next same =>
    subst same
    have here : index % 64 = ctr ↔ index = index / 64 * 64 + ctr := by omega
    rw [BitVec.getLsbD_or, getLsbD_mask small, bit]
    simp only [here]
  next differs =>
    have elsewhere : index ≠ unit * 64 + ctr := by omega
    simp [elsewhere]

theorem bit_unmark (inside : unit < map.length) (small : ctr < 64) (index : Nat) :
    bit (unmark map unit ctr) index = (bit map index && !decide (index = unit * 64 + ctr)) := by
  rw [unmark, bit_set inside]
  split
  next same =>
    subst same
    have here : index % 64 = ctr ↔ index = index / 64 * 64 + ctr := by omega
    have below : index % 64 < 64 := Nat.mod_lt _ (by decide)
    rw [BitVec.getLsbD_and, BitVec.getLsbD_not, getLsbD_mask small, bit]
    simp [here, below]
  next differs =>
    have elsewhere : index ≠ unit * 64 + ctr := by omega
    simp [elsewhere]

/-- Two tests that differ at one number only. -/
theorem countP_range_of_ne {first second : Nat → Bool} (below : index < count) (yes : first index = true)
    (no : second index = false) (same : ∀ other, other ≠ index → first other = second other) :
    (List.range count).countP first = (List.range count).countP second + 1 := by
  induction count with
  | zero => cases below
  | succ count ih =>
    rw [List.range_succ, List.countP_append, List.countP_append]
    by_cases last : index = count
    · subst last
      have before : (List.range index).countP first = (List.range index).countP second := by
        refine List.countP_congr fun other member => ?_
        rw [same other (Nat.ne_of_lt (List.mem_range.mp member))]
      simp [before, yes, no]
    · rw [ih (by omega)]
      simp only [List.countP_singleton, same count (Ne.symm last)]
      omega

theorem clears_mark (inside : unit < map.length) (small : ctr < 64) (below : unit * 64 + ctr < count)
    (clear : bit map (unit * 64 + ctr) = false) : clears map count = clears (mark map unit ctr) count + 1 := by
  refine countP_range_of_ne below (by simp [clear]) (by simp [bit_mark inside small]) fun other differs => ?_
  simp [bit_mark inside small, differs]

theorem clears_unmark (inside : unit < map.length) (small : ctr < 64) (below : unit * 64 + ctr < count)
    (here : bit map (unit * 64 + ctr) = true) : clears (unmark map unit ctr) count = clears map count + 1 := by
  refine countP_range_of_ne below (by simp [bit_unmark inside small]) (by simp [here]) fun other differs => ?_
  simp [bit_unmark inside small, differs]

theorem exists_clear (some : 0 < clears map count) : ∃ index < count, bit map index = false := by
  obtain ⟨index, member, clear⟩ := List.countP_pos_iff.mp some
  exact ⟨index, List.mem_range.mp member, by simpa using clear⟩

theorem clears_eq (none : ∀ index < count, bit map index = false) : clears map count = count := by
  rw [clears, List.countP_eq_length.mpr, List.length_range]
  intro index member
  simp [none index (List.mem_range.mp member)]

/-- The first clear bit from a place on, as long as a word is below `units`. A word that is
full is passed at once. -/
def scan (map : Words) (units unit ctr : Nat) : Option (Nat × Nat) :=
  if unit < units then
    if 1#64 <<< ctr = 1#64 ∧ map.getD unit 0 = BitVec.allOnes 64 then scan map units (unit + 1) 0
    else if 1#64 <<< ctr &&& map.getD unit 0 = 0#64 then some (unit, ctr)
    else if _last : 1#64 <<< (ctr + 1) = 0#64 then scan map units (unit + 1) 0
    else scan map units unit (ctr + 1)
  else none
termination_by (units - unit, 64 - ctr)
decreasing_by
  · exact .left _ _ (by omega)
  · exact .left _ _ (by omega)
  · have more : ctr + 1 < 64 := by
      by_contra beyond
      exact _last (mask_eq_zero.mpr (by omega))
    exact .right _ (by omega)

/-- The first clear bit from `start` on is in the word `unit`. -/
structure First (map : Words) (units start unit ctr : Nat) : Prop where
  below : unit < units
  small : ctr < 64
  clear : bit map (unit * 64 + ctr) = false
  least : ∀ index, start ≤ index → bit map index = false → unit * 64 + ctr ≤ index

private theorem First.earlier (first : First map units later unit ctr)
    (skipped : ∀ index, start ≤ index → bit map index = false → later ≤ index) : First map units start unit ctr :=
  ⟨first.below, first.small, first.clear, fun index from' clear => first.least index (skipped index from' clear) clear⟩

private theorem bit_at (map : Words) (unit : Nat) (small : ctr < 64) :
    bit map (unit * 64 + ctr) = (map.getD unit 0).getLsbD ctr := by
  have word : (unit * 64 + ctr) / 64 = unit := by omega
  have place : (unit * 64 + ctr) % 64 = ctr := by omega
  rw [bit, word, place]

private theorem beyond_set (set : bit map here = true) {index : Nat} (from' : here ≤ index)
    (clear : bit map index = false) : here + 1 ≤ index := by
  have differs : index ≠ here := by
    rintro rfl
    rw [clear] at set
    cases set
  omega

/-- A scan that can find a clear bit finds the first. -/
theorem scan_spec (map : Words) (units unit ctr : Nat) (small : ctr < 64)
    (exist : ∃ index, unit * 64 + ctr ≤ index ∧ index / 64 < units ∧ bit map index = false) :
    ∃ unit' ctr', scan map units unit ctr = some (unit', ctr') ∧ First map units (unit * 64 + ctr) unit' ctr' := by
  obtain ⟨index, from', low, clear⟩ := exist
  fun_induction scan map units unit ctr with
  | case1 unit ctr below full ih =>
    have zero : ctr = 0 := by
      have set := getLsbD_mask small ctr
      rw [full.1, BitVec.getLsbD_one] at set
      simpa using set
    subst zero
    have skipped (index : Nat) (from' : unit * 64 + 0 ≤ index) (clear : bit map index = false) :
        (unit + 1) * 64 + 0 ≤ index := by
      by_contra less
      have word : index / 64 = unit := by omega
      have inside : index % 64 < 64 := Nat.mod_lt _ (by decide)
      rw [bit, word, full.2, BitVec.getLsbD_allOnes] at clear
      exact absurd inside (of_decide_eq_false clear)
    obtain ⟨unit', ctr', found, first⟩ := ih (by decide) (skipped index from' clear)
    exact ⟨unit', ctr', found, first.earlier skipped⟩
  | case2 unit ctr below full free =>
    refine ⟨unit, ctr, rfl, below, small, ?_, fun index from' _ => from'⟩
    rw [bit_at map unit small]
    exact (mask_and_eq_zero small _).mp free
  | case3 unit ctr below full taken last ih =>
    have edge : ctr = 63 := by
      have beyond := mask_eq_zero.mp last
      omega
    have set : bit map (unit * 64 + ctr) = true := by
      rw [bit_at map unit small]
      exact Bool.of_not_eq_false fun clear => taken ((mask_and_eq_zero small _).mpr clear)
    have skipped (index : Nat) (from' : unit * 64 + ctr ≤ index) (clear : bit map index = false) :
        (unit + 1) * 64 + 0 ≤ index := by
      have beyond := beyond_set set from' clear
      omega
    obtain ⟨unit', ctr', found, first⟩ := ih (by decide) (skipped index from' clear)
    exact ⟨unit', ctr', found, first.earlier skipped⟩
  | case4 unit ctr below full taken more ih =>
    have within : ctr + 1 < 64 := by
      by_contra beyond
      exact more (mask_eq_zero.mpr (by omega))
    have set : bit map (unit * 64 + ctr) = true := by
      rw [bit_at map unit small]
      exact Bool.of_not_eq_false fun clear => taken ((mask_and_eq_zero small _).mpr clear)
    have skipped (index : Nat) (from' : unit * 64 + ctr ≤ index) (clear : bit map index = false) :
        unit * 64 + (ctr + 1) ≤ index := beyond_set set from' clear
    obtain ⟨unit', ctr', found, first⟩ := ih within (skipped index from' clear)
    exact ⟨unit', ctr', found, first.earlier skipped⟩
  | case5 unit ctr above => omega

end SolidIrcd.Bitmap
