import Mathlib.Data.List.Nodup
import Mathlib.Logic.Function.Basic

/-! Items that stand in a list, the last used one first, and in the chain of their slot. -/

namespace SolidIrcd.Recency

variable {α σ : Type} {items : List α} {item other : α} {stamp : α → Nat}
  {place : α → σ} {chains : σ → List α}

/-- An item moves to the front. -/
def touch [DecidableEq α] (item : α) (items : List α) : List α := item :: items.filter (· ≠ item)

theorem mem_touch [DecidableEq α] (here : item ∈ items) : other ∈ touch item items ↔ other ∈ items := by
  simp only [touch, List.mem_cons, List.mem_filter, decide_eq_true_eq]
  constructor
  · rintro (rfl | ⟨member, _⟩)
    · exact here
    · exact member
  · intro member
    by_cases same : other = item
    · exact .inl same
    · exact .inr ⟨member, same⟩

theorem nodup_touch [DecidableEq α] (nodup : items.Nodup) : (touch item items).Nodup := by
  apply List.nodup_cons.mpr
  refine ⟨fun member => ?_, nodup.filter _⟩
  simp at member

theorem length_filter_ne [DecidableEq α] (nodup : items.Nodup) (here : item ∈ items) :
    (items.filter (· ≠ item)).length = items.length - 1 := by
  have erased : items.filter (· ≠ item) = items.erase item := by
    rw [nodup.erase_eq_filter]
    exact List.filter_congr fun other _ => by simp [bne, ← Bool.beq_eq_decide_eq]
  rw [erased, List.length_erase_of_mem here]

theorem length_touch [DecidableEq α] (nodup : items.Nodup) (here : item ∈ items) :
    (touch item items).length = items.length := by
  rw [touch, List.length_cons, length_filter_ne nodup here]
  have : 0 < items.length := List.length_pos_of_mem here
  omega

/-! The order of last use -/

/-- An item stands before those that were used before it. -/
def Ordered (stamp : α → Nat) (items : List α) : Prop := items.Pairwise fun first second => stamp second < stamp first

theorem Ordered.filter (ordered : Ordered stamp items) (keep : α → Bool) : Ordered stamp (items.filter keep) :=
  List.Pairwise.filter keep ordered

theorem Ordered.update [DecidableEq α] (ordered : Ordered stamp items) (absent : item ∉ items) (now : Nat) :
    Ordered (Function.update stamp item now) items := by
  refine List.Pairwise.imp_of_mem ?_ ordered
  intro first second inFirst inSecond before
  rwa [Function.update_of_ne (ne_of_mem_of_not_mem inFirst absent),
    Function.update_of_ne (ne_of_mem_of_not_mem inSecond absent)]

/-- The item that is used now comes before all that were used earlier. -/
theorem Ordered.cons [DecidableEq α] (ordered : Ordered stamp items) (absent : item ∉ items)
    (earlier : ∀ other ∈ items, stamp other < now) :
    Ordered (Function.update stamp item now) (item :: items) := by
  apply List.pairwise_cons.mpr
  refine ⟨fun other member => ?_, ordered.update absent now⟩
  rw [Function.update_self, Function.update_of_ne (ne_of_mem_of_not_mem member absent)]
  exact earlier other member

theorem Ordered.touch [DecidableEq α] (ordered : Ordered stamp items) (earlier : ∀ other ∈ items, stamp other < now) :
    Ordered (Function.update stamp item now) (touch item items) := by
  apply (ordered.filter _).cons
  · simp
  · exact fun other member => earlier other (List.mem_filter.mp member).1

/-- The last item is the one that has not been used for the longest time. -/
theorem Ordered.getLast? (ordered : Ordered stamp items) (last : items.getLast? = some item) (member : other ∈ items)
    (differ : other ≠ item) : stamp item < stamp other := by
  obtain ⟨before, rfl⟩ := List.getLast?_eq_some_iff.mp last
  rcases List.mem_append.mp member with inside | same
  · exact (List.pairwise_append.mp ordered).2.2 other inside item (.head _)
  · exact absurd (List.mem_singleton.mp same) differ

/-! The chains -/

/-- The list and the chains hold the same items, each once. -/
structure Indexed (place : α → σ) (items : List α) (chains : σ → List α) : Prop where
  nodup : items.Nodup
  chain : ∀ slot, (chains slot).Nodup
  mem : ∀ slot item, item ∈ chains slot ↔ item ∈ items ∧ place item = slot

theorem Indexed.empty : Indexed place ([] : List α) fun _ => [] :=
  ⟨.nil, fun _ => .nil, fun _ _ => by simp⟩

theorem Indexed.touch [DecidableEq α] (indexed : Indexed place items chains) (here : item ∈ items) :
    Indexed place (touch item items) chains :=
  ⟨nodup_touch indexed.nodup, indexed.chain, fun slot other => by rw [indexed.mem, mem_touch here]⟩

theorem Indexed.cons [DecidableEq α] [DecidableEq σ] (indexed : Indexed place items chains) (absent : item ∉ items) :
    Indexed place (item :: items) (Function.update chains (place item) (item :: chains (place item))) := by
  refine ⟨List.nodup_cons.mpr ⟨absent, indexed.nodup⟩, fun slot => ?_, fun slot other => ?_⟩
  · rw [Function.update_apply]
    split
    · refine List.nodup_cons.mpr ⟨fun member => absent ((indexed.mem _ _).mp member).1, indexed.chain _⟩
    · exact indexed.chain slot
  · rw [Function.update_apply, List.mem_cons]
    split
    · rename_i same
      rw [List.mem_cons, indexed.mem, same]
      constructor
      · rintro (rfl | ⟨member, at'⟩)
        · exact ⟨.inl rfl, rfl⟩
        · exact ⟨.inr member, at'⟩
      · rintro ⟨rfl | member, at'⟩
        · exact .inl rfl
        · exact .inr ⟨member, at'⟩
    · rename_i differ
      rw [indexed.mem]
      constructor
      · exact fun ⟨member, at'⟩ => ⟨.inr member, at'⟩
      · rintro ⟨rfl | member, at'⟩
        · exact absurd at'.symm differ
        · exact ⟨member, at'⟩

theorem Indexed.remove [DecidableEq α] [DecidableEq σ] (indexed : Indexed place items chains) (item : α) :
    Indexed place (items.filter (· ≠ item))
      (Function.update chains (place item) ((chains (place item)).filter (· ≠ item))) := by
  refine ⟨indexed.nodup.filter _, fun slot => ?_, fun slot other => ?_⟩
  · rw [Function.update_apply]
    split
    · exact (indexed.chain _).filter _
    · exact indexed.chain slot
  · rw [Function.update_apply]
    split
    · rename_i same
      subst same
      rw [List.mem_filter, List.mem_filter, indexed.mem]
      constructor
      · exact fun ⟨⟨member, at'⟩, differ⟩ => ⟨⟨member, differ⟩, at'⟩
      · exact fun ⟨⟨member, differ⟩, at'⟩ => ⟨⟨member, at'⟩, differ⟩
    · rename_i elsewhere
      rw [List.mem_filter, indexed.mem]
      constructor
      · rintro ⟨member, at'⟩
        refine ⟨⟨member, ?_⟩, at'⟩
        simp only [decide_eq_true_eq]
        rintro rfl
        exact elsewhere at'.symm
      · exact fun ⟨⟨member, _⟩, at'⟩ => ⟨member, at'⟩

end SolidIrcd.Recency
