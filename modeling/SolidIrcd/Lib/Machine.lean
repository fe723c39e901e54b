/-! Machines that take one action after the other, and the runs in which every action
meets a condition. -/

namespace SolidIrcd

/-- What an action does in a state, and when it can happen at all. -/
structure Machine (σ ι : Type) where
  perform : σ → ι → σ
  possible : σ → ι → Prop

variable {σ ι : Type}

/-- A run whose actions all meet `meets` where they happen. -/
inductive Machine.Run (machine : Machine σ ι) (meets : σ → ι → Prop) : σ → σ → Prop where
  | refl (state : σ) : Run machine meets state state
  | tail {start state : σ} {action : ι} (before : Run machine meets start state)
      (possible : machine.possible state action) (met : meets state action) :
      Run machine meets start (machine.perform state action)

/-- Any run at all. -/
abbrev Machine.Any (_ : σ) (_ : ι) : Prop := True

/-- Every action of the list can happen and meets the condition where its turn comes. -/
def Machine.Allows (machine : Machine σ ι) (meets : σ → ι → Prop) : σ → List ι → Prop
  | _, [] => True
  | state, action :: actions =>
    machine.possible state action ∧ meets state action ∧ machine.Allows meets (machine.perform state action) actions

/-- The actions of a list, one after the other, make a run. -/
theorem Machine.Run.of_list {machine : Machine σ ι} {meets : σ → ι → Prop} (actions : List ι)
    (run : machine.Run meets start state) (allows : machine.Allows meets state actions) :
    machine.Run meets start (actions.foldl machine.perform state) := by
  induction actions generalizing state with
  | nil => exact run
  | cons action actions ih =>
    obtain ⟨possible, met, allows⟩ := allows
    exact ih (.tail run possible met) allows

/-- What every action keeps holds after every run. -/
theorem Machine.Run.invariant {machine : Machine σ ι} {meets : σ → ι → Prop} (Good : σ → Prop)
    (kept : ∀ state action, machine.possible state action → meets state action → Good state →
      Good (machine.perform state action))
    (run : machine.Run meets start final) (good : Good start) : Good final := by
  induction run with
  | refl => exact good
  | tail _ possible met ih => exact kept _ _ possible met ih

/-- A run goes on where another has ended. -/
theorem Machine.Run.trans {machine : Machine σ ι} {meets : σ → ι → Prop} (first : machine.Run meets start state)
    (second : machine.Run meets state final) : machine.Run meets start final := by
  induction second with
  | refl => exact first
  | tail _ possible met ih => exact .tail ih possible met

theorem Machine.Run.mono {machine : Machine σ ι} {meets wider : σ → ι → Prop}
    (weaker : ∀ state action, meets state action → wider state action) (run : machine.Run meets start final) :
    machine.Run wider start final := by
  induction run with
  | refl => exact .refl start
  | tail _ possible met ih => exact .tail ih possible (weaker _ _ met)

end SolidIrcd
