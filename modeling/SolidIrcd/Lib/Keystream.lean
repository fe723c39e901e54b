import Mathlib.Data.List.Basic

/-! Stream ciphers: a generator gives one key byte after the other, and a text is mixed with them.
How a text is cut makes no difference, and mixing with the same key bytes again undoes it. -/

namespace SolidIrcd.Keystream

variable {σ β : Type} (next : σ → σ × β) (mix : β → β → β)

/-- A text goes through the cipher; the generator moves on by its length. -/
def process : σ → List β → σ × List β
  | state, [] => (state, [])
  | state, byte :: rest =>
    let (state', key) := next state
    let (final, mixed) := process state' rest
    (final, mix byte key :: mixed)

variable {next mix} {state : σ}

theorem process_append (first second : List β) :
    process next mix state (first ++ second) =
      ((process next mix (process next mix state first).1 second).1,
        (process next mix state first).2 ++ (process next mix (process next mix state first).1 second).2) := by
  induction first generalizing state with
  | nil => rfl
  | cons byte first ih => simp only [List.cons_append, process, ih]

theorem length_process (text : List β) : (process next mix state text).2.length = text.length := by
  induction text generalizing state with
  | nil => rfl
  | cons byte text ih => simp only [process, List.length_cons, ih]

/-- Who has the same generator reads what was written. -/
theorem process_process (undo : ∀ byte key, mix (mix byte key) key = byte) (text : List β) :
    process next mix state (process next mix state text).2 = ((process next mix state text).1, text) := by
  induction text generalizing state with
  | nil => rfl
  | cons byte text ih => simp only [process, ih, undo]

end SolidIrcd.Keystream
