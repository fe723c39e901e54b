/-! Partial assignments to the places of a store, and two stores that send each other what is
assigned to them. -/

namespace SolidIrcd.Overlay

variable {P : Type} {V : P → Type}

abbrev Store (V : P → Type) := (place : P) → V place

/-- New values for some of the places. -/
abbrev Update (V : P → Type) := (place : P) → Option (V place)

def Update.apply (update : Update V) (store : Store V) : Store V := fun place => (update place).getD (store place)

/-- One update after the other. -/
def drain (store : Store V) (updates : List (Update V)) : Store V :=
  updates.foldl (fun store update => update.apply store) store

/-- The updates of a list as one: the last value counts. -/
def combine : List (Update V) → Update V
  | [] => fun _ => none
  | update :: updates => fun place => (combine updates place).or (update place)

/-- No place gets two values. -/
def Update.Agrees (first second : Update V) : Prop :=
  ∀ place value other, first place = some value → second place = some other → value = other

theorem drain_eq_apply (store : Store V) (updates : List (Update V)) :
    drain store updates = (combine updates).apply store := by
  induction updates generalizing store with
  | nil => rfl
  | cons update updates ih =>
    rw [drain, List.foldl_cons]
    refine (ih _).trans ?_
    funext place
    simp only [Update.apply, combine]
    cases combine updates place <;> simp

theorem drain_append (store : Store V) (first second : List (Update V)) :
    drain store (first ++ second) = drain (drain store first) second :=
  List.foldl_append

theorem drain_replicate (store : Store V) (update : Update V) (times : Nat) :
    drain store (List.replicate times update) = if times = 0 then store else update.apply store := by
  induction times with
  | zero => rfl
  | succ times ih =>
    rw [List.replicate_succ', drain_append, ih]
    split
    · rfl
    · funext place
      simp only [drain, List.foldl_cons, List.foldl_nil, Update.apply, Nat.add_eq_zero_iff, Nat.one_ne_zero, and_false,
        if_false]
      cases update place <;> rfl

theorem Update.Agrees.symm {first second : Update V} (agrees : first.Agrees second) : second.Agrees first :=
  fun place value other one two => (agrees place other value two one).symm

theorem apply_comm {first second : Update V} (agrees : first.Agrees second) (store : Store V) :
    first.apply (second.apply store) = second.apply (first.apply store) := by
  funext place
  simp only [Update.apply]
  cases one : first place with
  | none => rfl
  | some value =>
    cases two : second place with
    | none => rfl
    | some other => exact agrees place value other one two

/-- An assignment may come before or after the updates it agrees with. -/
theorem drain_apply {update : Update V} {inbox : List (Update V)} (agrees : ∀ other ∈ inbox, update.Agrees other)
    (store : Store V) : drain (update.apply store) inbox = update.apply (drain store inbox) := by
  induction inbox generalizing store with
  | nil => rfl
  | cons other inbox ih =>
    rw [drain, List.foldl_cons, apply_comm (agrees other List.mem_cons_self).symm]
    exact ih (fun next member => agrees next (List.mem_cons_of_mem _ member)) _

/-- Two stores that will be one when everything has arrived stay so: one is assigned something
that agrees with what is on its way there, and the other hears of it. -/
theorem drain_send {own other : Store V} {inbox outbox sent : List (Update V)}
    (agree : drain own inbox = drain other outbox) (agrees : ∀ update ∈ inbox, (combine sent).Agrees update) :
    drain (drain own sent) inbox = drain other (outbox ++ sent) := by
  rw [drain_append, ← agree, drain_eq_apply own, drain_eq_apply (drain own inbox), drain_apply agrees]

end SolidIrcd.Overlay
