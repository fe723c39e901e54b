import Mathlib.Data.Finset.Card
import Mathlib.Data.List.Dedup

/-! The answer to a question about the items of a list: what is wanted, once for each key,
and how long such an answer is. -/

namespace SolidIrcd.Answer

variable {α κ : Type} {key : α → κ} {wanted known : α → Bool} {all found : List α}

/-- The found items are wanted ones, and stand for every wanted one by its key. -/
structure Covers (key : α → κ) (wanted : α → Bool) (all found : List α) : Prop where
  once : (found.map key).Nodup
  sound : ∀ item ∈ found, item ∈ all ∧ wanted item = true
  complete : ∀ item ∈ all, wanted item = true → ∃ other ∈ found, key other = key item

/-- How many answers there are. -/
def due [DecidableEq κ] (key : α → κ) (wanted : α → Bool) (all : List α) : Nat :=
  ((all.filter wanted).map key).toFinset.card

theorem Covers.keys [DecidableEq κ] (covers : Covers key wanted all found) :
    (found.map key).toFinset = ((all.filter wanted).map key).toFinset := by
  ext value
  simp only [List.mem_toFinset, List.mem_map, List.mem_filter]
  constructor
  · rintro ⟨item, member, rfl⟩
    exact ⟨item, covers.sound item member, rfl⟩
  · rintro ⟨item, ⟨member, want⟩, rfl⟩
    exact covers.complete item member want

theorem Covers.length [DecidableEq κ] (covers : Covers key wanted all found) : found.length = due key wanted all := by
  rw [due, ← covers.keys, List.toFinset_card_of_nodup covers.once, List.length_map]

theorem Covers.congr (covers : Covers key wanted all found) (same : ∀ item ∈ all, wanted item = known item) :
    Covers key known all found where
  once := covers.once
  sound item member := ⟨(covers.sound item member).1, same item (covers.sound item member).1 ▸ (covers.sound item member).2⟩
  complete item member want := covers.complete item member (same item member ▸ want)

/-- Nothing is lost by asking for the known ones only, when there are no others. -/
theorem due_known_iff [DecidableEq κ] (told : ∀ item other, key item = key other → known item = known other) :
    due key wanted all ≤ due key (fun item => wanted item && known item) all ↔
      ∀ item ∈ all, wanted item = true → known item = true := by
  have fewer : ((all.filter fun item => wanted item && known item).map key).toFinset ⊆
    ((all.filter wanted).map key).toFinset := by
    intro value
    simp only [List.mem_toFinset, List.mem_map, List.mem_filter, Bool.and_eq_true]
    rintro ⟨item, ⟨member, want, -⟩, rfl⟩
    exact ⟨item, ⟨member, want⟩, rfl⟩
  constructor
  · intro enough item member want
    have same := Finset.eq_of_subset_of_card_le fewer enough
    have listed : key item ∈ ((all.filter fun item => wanted item && known item).map key).toFinset := by
      rw [same, List.mem_toFinset]
      exact List.mem_map_of_mem (List.mem_filter.mpr ⟨member, want⟩)
    simp only [List.mem_toFinset, List.mem_map, List.mem_filter, Bool.and_eq_true] at listed
    obtain ⟨other, ⟨-, -, knows⟩, equal⟩ := listed
    rw [← told other item equal, knows]
  · intro every
    have same : all.filter (fun item => wanted item && known item) = all.filter wanted := by
      refine List.filter_congr fun item member => ?_
      cases want : wanted item with
      | false => rfl
      | true => rw [every item member want, Bool.and_self]
    rw [due, due, same]

/-- Where every item has a key of its own, the wanted items are the answer. -/
theorem Covers.of_filter (distinct : all.Nodup) (apart : ∀ item ∈ all, ∀ other ∈ all, key item = key other → item = other) :
    Covers key wanted all (all.filter wanted) where
  once := by
    refine (distinct.filter _).map_on ?_
    intro item member other member' same
    exact apart item (List.mem_of_mem_filter member) other (List.mem_of_mem_filter member') same
  sound item member := List.mem_filter.mp member
  complete item member want := ⟨item, List.mem_filter.mpr ⟨member, want⟩, rfl⟩

/-- What a limit leaves of a number of items. -/
def cap (limit : Option Nat) (count : Nat) : Nat := limit.elim count (min · count)

/-- What a limit leaves of a list. -/
def upTo (limit : Option Nat) (items : List α) : List α := limit.elim items (items.take ·)

@[simp] theorem length_upTo (limit : Option Nat) (items : List α) : (upTo limit items).length = cap limit items.length := by
  cases limit <;> simp [upTo, cap]

theorem upTo_subset (limit : Option Nat) (items : List α) : upTo limit items ⊆ items := by
  cases limit with
  | none => exact List.Subset.refl items
  | some limit => exact List.take_subset limit items

theorem upTo_nodup (limit : Option Nat) {items : List α} (distinct : items.Nodup) : (upTo limit items).Nodup := by
  cases limit with
  | none => exact distinct
  | some limit => exact distinct.sublist (List.take_sublist limit items)

/-- What is left of a limit for what comes next. -/
theorem upTo_append (limit : Option Nat) (first second : List α) :
    upTo limit (first ++ second) = upTo limit first ++ upTo (limit.map (· - first.length)) second := by
  cases limit with
  | none => rfl
  | some limit => exact List.take_append

/-- The wanted items once each, as many as a limit allows. -/
structure Capped (limit : Option Nat) (wanted : α → Bool) (all found : List α) : Prop where
  once : found.Nodup
  sound : ∀ item ∈ found, item ∈ all ∧ wanted item = true
  length : found.length = cap limit (all.countP wanted)

section Reached

variable {reached : List α} (within : ∀ item ∈ reached, item ∈ all)
  (every : ∀ item ∈ all, wanted item = true → item ∈ reached) (distinct : all.Nodup)

include within every distinct

/-- An answer that has every wanted item is right when it has no other, and none twice. -/
theorem countP_eq_of_reached (once : reached.Nodup) (sound : ∀ item ∈ reached, wanted item = true) :
    reached.length = all.countP wanted := by
  rw [List.countP_eq_length_filter]
  refine List.Perm.length_eq ((List.perm_ext_iff_of_nodup once (distinct.filter _)).mpr fun item => ?_)
  rw [List.mem_filter]
  exact ⟨fun member => ⟨within item member, sound item member⟩, fun ⟨member, want⟩ => every item member want⟩

/-- So it is with as many as the limit leaves of it. -/
theorem capped_upTo_iff (limit : Option Nat) : Capped limit wanted all (upTo limit reached) ↔
    (upTo limit reached).Nodup ∧ ∀ item ∈ upTo limit reached, wanted item = true := by
  constructor
  · intro capped
    exact ⟨capped.once, fun item member => (capped.sound item member).2⟩
  · rintro ⟨once, sound⟩
    refine ⟨once, fun item member => ⟨within item (upTo_subset limit reached member), sound item member⟩, ?_⟩
    by_cases room : cap limit reached.length = reached.length
    · have whole : upTo limit reached = reached := by
        cases limit with
        | none => rfl
        | some limit => exact List.take_of_length_le (min_eq_right_iff.mp room)
      rw [whole] at once sound ⊢
      rw [← countP_eq_of_reached within every distinct once sound, room]
    · have fewer : (upTo limit reached).Subperm (all.filter wanted) :=
        once.subperm fun item here => List.mem_filter.mpr ⟨within item (upTo_subset limit reached here), sound item here⟩
      have most := fewer.length_le
      rw [← List.countP_eq_length_filter, length_upTo] at most
      rw [length_upTo]
      cases limit with
      | none => exact absurd rfl room
      | some limit =>
        simp only [cap, Option.elim_some] at most room ⊢
        omega

/-- And where nothing heeds the limit, it is right if the limit is not reached. -/
theorem capped_iff (limit : Option Nat) : Capped limit wanted all reached ↔
    reached.Nodup ∧ (∀ item ∈ reached, wanted item = true) ∧ cap limit (all.countP wanted) = all.countP wanted := by
  constructor
  · intro capped
    have sound : ∀ item ∈ reached, wanted item = true := fun item member => (capped.sound item member).2
    refine ⟨capped.once, sound, ?_⟩
    rw [← capped.length, countP_eq_of_reached within every distinct capped.once sound]
  · rintro ⟨once, sound, room⟩
    refine ⟨once, fun item member => ⟨within item member, sound item member⟩, ?_⟩
    rw [room, countP_eq_of_reached within every distinct once sound]

end Reached

end SolidIrcd.Answer
