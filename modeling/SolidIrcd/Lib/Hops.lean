import Mathlib.Data.List.Forall2
import Mathlib.Data.Set.Insert

/-! Nodes in a row that hand on what they are told: a node takes one message after the other, and what it sends on
while it does is what the next node is told. -/

namespace SolidIrcd.Hops

variable {σ μ ι κ : Type}

/-- A node takes the messages in their order; with what it sends on. -/
def hear (take : σ → μ → σ × List μ) : σ → List μ → σ × List μ
  | node, [] => (node, [])
  | node, message :: messages =>
    ((hear take (take node message).1 messages).1,
      (take node message).2 ++ (hear take (take node message).1 messages).2)

/-- The nodes of a path, when the first of them has been told the messages. -/
def pass (take : σ → μ → σ × List μ) : List σ → List μ → List σ
  | [], _ => []
  | node :: path, messages => (hear take node messages).1 :: pass take path (hear take node messages).2

/-- On fit nodes, the message says one thing and is sent on as it came. -/
structure Carries (take : σ → μ → σ × List μ) (Fit : σ → Prop) (view : σ → Set κ) (message : μ) (key : κ) : Prop where
  fit : ∀ node, Fit node → Fit (take node message).1
  view : ∀ node, Fit node → view (take node message).1 = insert key (view node)
  sent : ∀ node, Fit node → (take node message).2 = [message]

variable {take : σ → μ → σ × List μ} {Fit : σ → Prop} {view : σ → Set κ} {line : ι → μ} {key : ι → κ} {items : List ι}

/-- A node learns what all the messages say, and sends all of them on. -/
theorem hear_carries (each : ∀ item ∈ items, Carries take Fit view (line item) (key item)) (fit : Fit node) :
    view (hear take node (items.map line)).1 = view node ∪ { said | ∃ item ∈ items, key item = said } ∧
      (hear take node (items.map line)).2 = items.map line := by
  induction items generalizing node with
  | nil => simp [hear]
  | cons item items ih =>
    have carried := each item (List.mem_cons_self ..)
    obtain ⟨learned, sent⟩ := ih (fun other member => each other (List.mem_cons_of_mem _ member)) (carried.fit node fit)
    rw [List.map_cons, hear]
    constructor
    · rw [learned, carried.view node fit]
      ext said
      simp only [Set.mem_union, Set.mem_insert_iff, Set.mem_ofPred_eq, List.exists_mem_cons_iff, eq_comm (a := said)]
      rw [or_assoc, or_left_comm]
    · rw [sent, carried.sent node fit]
      rfl

/-- What the messages say comes to every node of a path. -/
theorem pass_carries (each : ∀ item ∈ items, Carries take Fit view (line item) (key item))
    (fit : ∀ node ∈ path, Fit node) :
    List.Forall₂ (fun before after => view after = view before ∪ { said | ∃ item ∈ items, key item = said }) path
      (pass take path (items.map line)) := by
  induction path with
  | nil => exact .nil
  | cons node path ih =>
    obtain ⟨learned, sent⟩ := hear_carries each (fit node (List.mem_cons_self ..))
    rw [pass, sent]
    exact .cons learned (ih fun other member => fit other (List.mem_cons_of_mem _ member))

end SolidIrcd.Hops
