import Mathlib.Logic.Relation

/-! Two parties joined by a pair of first-in-first-out queues. Either party may
take the next message of its inbox at any time; what it answers is queued for
the other. A run is any interleaving of such steps. -/

namespace SolidIrcd.Link

/-- A link: the states of the two ends and the messages on their way to each. -/
structure Wire (σ μ : Type) where
  left : σ
  right : σ
  toLeft : List μ
  toRight : List μ

variable {σ μ : Type}

/-- One end takes the message at the head of its inbox. -/
inductive Step (receive : σ → μ → σ × List μ) : Wire σ μ → Wire σ μ → Prop where
  | left (left right : σ) (message : μ) (rest toRight : List μ) :
      Step receive ⟨left, right, message :: rest, toRight⟩
        ⟨(receive left message).1, right, rest, toRight ++ (receive left message).2⟩
  | right (left right : σ) (message : μ) (toLeft rest : List μ) :
      Step receive ⟨left, right, toLeft, message :: rest⟩
        ⟨left, (receive right message).1, toLeft ++ (receive right message).2, rest⟩

/-- Any number of steps of either end, in any order. -/
def Run (receive : σ → μ → σ × List μ) : Wire σ μ → Wire σ μ → Prop :=
  Relation.ReflTransGen (Step receive)

/-- Nothing is on its way any more. -/
def Wire.Quiet (wire : Wire σ μ) : Prop := wire.toLeft = [] ∧ wire.toRight = []

/-- What one end makes of a whole inbox when nothing is added to it. -/
def drain (receive : σ → μ → σ × List μ) (state : σ) (inbox : List μ) : σ :=
  inbox.foldl (fun state message => (receive state message).1) state

/-- What a list of messages weighs. -/
def load (weight : μ → Nat) : List μ → Nat
  | [] => 0
  | message :: rest => weight message + load weight rest

theorem load_append (weight : μ → Nat) (first second : List μ) :
    load weight (first ++ second) = load weight first + load weight second := by
  induction first with
  | nil => simp [load]
  | cons message rest ih => simp only [List.cons_append, load, ih, Nat.add_assoc]

/-- The invariant rule: what every step keeps holds after every run. -/
theorem Run.preserves {receive : σ → μ → σ × List μ} (Good : Wire σ μ → Prop)
    (kept : ∀ before after, Step receive before after → Good before → Good after)
    (run : Run receive start final) (good : Good start) : Good final := by
  induction run with
  | refl => exact good
  | tail _ step ih => exact kept _ _ step ih

/-- An invariant may be proved end by end: `Side` speaks of one end and its
inbox, `Mirror` of the other. -/
theorem Run.preserves_sides {receive : σ → μ → σ × List μ} (Side Mirror : σ → List μ → Prop)
    (takeLeft : ∀ state message rest, Side state (message :: rest) →
      Side (receive state message).1 rest ∧
        ∀ other inbox, Mirror other inbox → Mirror other (inbox ++ (receive state message).2))
    (takeRight : ∀ state message rest, Mirror state (message :: rest) →
      Mirror (receive state message).1 rest ∧
        ∀ other inbox, Side other inbox → Side other (inbox ++ (receive state message).2))
    (run : Run receive start final)
    (sides : Side start.left start.toLeft ∧ Mirror start.right start.toRight) :
    Side final.left final.toLeft ∧ Mirror final.right final.toRight := by
  refine Run.preserves (fun wire => Side wire.left wire.toLeft ∧ Mirror wire.right wire.toRight)
    ?_ run sides
  intro before after step holds
  cases step with
  | left left right message rest toRight =>
    obtain ⟨next, others⟩ := takeLeft left message rest holds.1
    exact ⟨next, others right toRight holds.2⟩
  | right left right message toLeft rest =>
    obtain ⟨next, others⟩ := takeRight right message rest holds.2
    exact ⟨others left toLeft holds.1, next⟩

/-- When an answer weighs less than its message, some run uses everything up. -/
theorem exists_quiet {receive : σ → μ → σ × List μ} (weight : μ → Nat)
    (lighter : ∀ state message, load weight (receive state message).2 < weight message)
    (start : Wire σ μ) : ∃ final, Run receive start final ∧ final.Quiet := by
  generalize bound : load weight start.toLeft + load weight start.toRight = total
  induction total using Nat.strongRecOn generalizing start with
  | ind total ih =>
    obtain ⟨left, right, toLeft, toRight⟩ := start
    cases toLeft with
    | cons message rest =>
      have less := lighter left message
      obtain ⟨final, run, quiet⟩ := ih _ (by simp only [load, load_append] at bound ⊢; omega)
        ⟨(receive left message).1, right, rest, toRight ++ (receive left message).2⟩ rfl
      exact ⟨final, Relation.ReflTransGen.head (Step.left ..) run, quiet⟩
    | nil =>
      cases toRight with
      | cons message rest =>
        have less := lighter right message
        obtain ⟨final, run, quiet⟩ := ih _ (by simp only [load, load_append] at bound ⊢; omega)
          ⟨left, (receive right message).1, [] ++ (receive right message).2, rest⟩ rfl
        exact ⟨final, Relation.ReflTransGen.head (Step.right ..) run, quiet⟩
      | nil => exact ⟨_, Relation.ReflTransGen.refl, rfl, rfl⟩

/-- Where nothing is ever answered, every interleaving that empties the queues
ends with each end having drained the inbox it started with. -/
theorem Run.quiet_drained {receive : σ → μ → σ × List μ}
    (silent : ∀ state message, (receive state message).2 = [])
    (run : Run receive start final) (quiet : final.Quiet) :
    final.left = drain receive start.left start.toLeft ∧
      final.right = drain receive start.right start.toRight := by
  have sides := Run.preserves_sides
    (fun state inbox => drain receive state inbox = drain receive start.left start.toLeft)
    (fun state inbox => drain receive state inbox = drain receive start.right start.toRight)
    (fun state message rest same => ⟨same, fun _ _ other => by rwa [silent, List.append_nil]⟩)
    (fun state message rest same => ⟨same, fun _ _ other => by rwa [silent, List.append_nil]⟩)
    run ⟨rfl, rfl⟩
  rw [quiet.1, quiet.2] at sides
  exact sides

end SolidIrcd.Link
