/-! Items that are gathered in a buffer, which is sent when one more does not fit or when it
is full. -/

namespace SolidIrcd.Batch

variable {α β : Type}

/-- `push` puts an item into a buffer and may send one; `close` sends what is left. -/
def loop (push : β → α → Option β × β) (close : β → List β) : β → List α → List β
  | buf, [] => close buf
  | buf, item :: items => (push buf item).1.toList ++ loop push close (push buf item).2 items

/-- What may come of one more item: `Pending` are the batches a buffer can hold on to, and
`Ready` those that can be sent. -/
inductive Pushed (render : List α → β) (Pending Ready : List α → Prop) (batch : List α) (item : α) :
    Option β × β → Prop where
  | kept (pending : Pending (batch ++ [item])) : Pushed render Pending Ready batch item (none, render (batch ++ [item]))
  | full (ready : Ready (batch ++ [item])) (pending : Pending []) :
      Pushed render Pending Ready batch item (some (render (batch ++ [item])), render [])
  | overflow (ready : Ready batch) (pending : Pending [item]) :
      Pushed render Pending Ready batch item (some (render batch), render [item])

/-- What is sent at the end. -/
inductive Closed (render : List α → β) (Ready : List α → Prop) : List α → List β → Prop where
  | nothing : Closed render Ready [] []
  | rest (ready : Ready batch) : Closed render Ready batch [render batch]

variable {render : List α → β} {Pending Ready : List α → Prop}

/-- The items are sent in batches, in their order, each of them once. -/
theorem loop_batches (push : β → α → Option β × β) (close : β → List β) (items : List α)
    (pushes : ∀ batch, Pending batch → ∀ item ∈ items, Pushed render Pending Ready batch item (push (render batch) item))
    (closes : ∀ batch, Pending batch → Closed render Ready batch (close (render batch)))
    (pending : Pending batch) :
    ∃ batches : List (List α), batches.flatten = batch ++ items ∧ (∀ one ∈ batches, Ready one) ∧
      loop push close (render batch) items = batches.map render := by
  induction items generalizing batch with
  | nil =>
    generalize ended : close (render batch) = lines
    have closed := ended ▸ closes batch pending
    rw [loop, ended]
    cases closed with
    | nothing => exact ⟨[], rfl, by simp, rfl⟩
    | rest ready => exact ⟨[batch], by simp, by simpa using ready, rfl⟩
  | cons item items ih =>
    have later := fun batch pending item member => pushes batch pending item (List.mem_cons_of_mem _ member)
    generalize step : push (render batch) item = answer
    have pushed := step ▸ pushes batch pending item (List.mem_cons_self ..)
    rw [loop, step]
    cases pushed with
    | kept pending' =>
      obtain ⟨batches, split, ready, lines⟩ := ih later pending'
      refine ⟨batches, ?_, ready, ?_⟩
      · rw [split, List.append_assoc, List.singleton_append]
      · simpa using lines
    | full ready' pending' =>
      obtain ⟨batches, split, ready, lines⟩ := ih later pending'
      refine ⟨(batch ++ [item]) :: batches, ?_, ?_, ?_⟩
      · rw [List.flatten_cons, split, List.nil_append, List.append_assoc, List.singleton_append]
      · exact List.forall_mem_cons.mpr ⟨ready', ready⟩
      · simpa using lines
    | overflow ready' pending' =>
      obtain ⟨batches, split, ready, lines⟩ := ih later pending'
      refine ⟨batch :: batches, ?_, ?_, ?_⟩
      · rw [List.flatten_cons, split, List.singleton_append]
      · exact List.forall_mem_cons.mpr ⟨ready', ready⟩
      · simpa using lines

end SolidIrcd.Batch
