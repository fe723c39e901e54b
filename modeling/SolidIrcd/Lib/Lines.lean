import Mathlib.Data.List.Basic
import Mathlib.Data.List.TakeWhile

/-! Complete lines of a stream that arrives in pieces. A line is a non-empty run
of items with a terminator behind it; `current` is what a piece continues. -/

namespace SolidIrcd.Lines

variable {α : Type} (isEnd : α → Bool)

/-- The lines a stream completes. -/
def linesFrom : (current : List α) → List α → List (List α)
  | _, [] => []
  | current, item :: rest =>
    if isEnd item then
      if current.isEmpty then linesFrom [] rest else current :: linesFrom [] rest
    else linesFrom (current ++ [item]) rest

/-- What the stream leaves unfinished. -/
def pendingFrom : (current : List α) → List α → List α
  | current, [] => current
  | current, item :: rest =>
    if isEnd item then pendingFrom [] rest else pendingFrom (current ++ [item]) rest

def lines (stream : List α) : List (List α) := linesFrom isEnd [] stream

def pending (stream : List α) : List α := pendingFrom isEnd [] stream

/-- No item of the text ends a line. -/
def Endless (text : List α) : Prop := ∀ item ∈ text, isEnd item = false

variable {isEnd}

@[simp] theorem lines_nil : lines isEnd [] = [] := rfl

theorem linesFrom_append (current front rest : List α) :
    linesFrom isEnd current (front ++ rest) =
      linesFrom isEnd current front ++ linesFrom isEnd (pendingFrom isEnd current front) rest := by
  induction front generalizing current with
  | nil => simp [linesFrom, pendingFrom]
  | cons item front ih =>
    simp only [List.cons_append, linesFrom, pendingFrom]
    split
    · split
      · exact ih []
      · rw [ih, List.cons_append]
    · exact ih _

theorem pendingFrom_append (current front rest : List α) :
    pendingFrom isEnd current (front ++ rest) =
      pendingFrom isEnd (pendingFrom isEnd current front) rest := by
  induction front generalizing current with
  | nil => simp [pendingFrom]
  | cons item front ih =>
    simp only [List.cons_append, pendingFrom]
    split
    · exact ih []
    · exact ih _

theorem linesFrom_endless {text : List α} (endless : Endless isEnd text) (current : List α) :
    linesFrom isEnd current text = [] := by
  induction text generalizing current with
  | nil => rfl
  | cons item rest ih =>
    have open_ := endless item List.mem_cons_self
    simpa [linesFrom, open_] using ih (fun item member => endless item (List.mem_cons_of_mem _ member)) _

theorem pendingFrom_endless {text : List α} (endless : Endless isEnd text) (current : List α) :
    pendingFrom isEnd current text = current ++ text := by
  induction text generalizing current with
  | nil => simp [pendingFrom]
  | cons item rest ih =>
    have open_ := endless item List.mem_cons_self
    simpa [pendingFrom, open_] using
      ih (fun item member => endless item (List.mem_cons_of_mem _ member)) (current ++ [item])

theorem linesFrom_line {line : List α} (endless : Endless isEnd line) (stop : isEnd item = true)
    (current rest : List α) (filled : current ++ line ≠ []) :
    linesFrom isEnd current (line ++ item :: rest) = (current ++ line) :: lines isEnd rest := by
  rw [linesFrom_append, linesFrom_endless endless, pendingFrom_endless endless]
  simp only [linesFrom, stop, ↓reduceIte, List.nil_append, List.isEmpty_iff, filled, lines]

theorem pendingFrom_line (line : List α) (stop : isEnd item = true) (current rest : List α) :
    pendingFrom isEnd current (line ++ item :: rest) = pending isEnd rest := by
  rw [pendingFrom_append]
  simp only [pendingFrom, stop, ↓reduceIte, pending]

theorem endless_takeWhile (text : List α) : Endless isEnd (text.takeWhile (!isEnd ·)) := by
  intro item member
  simpa using List.mem_takeWhile_imp member

/-- A text with a terminator splits at the first one. -/
theorem split_first {text : List α} (ended : ¬ Endless isEnd text) :
    ∃ item rest, isEnd item = true ∧ text = text.takeWhile (!isEnd ·) ++ item :: rest := by
  have parts := List.takeWhile_append_dropWhile (p := (!isEnd ·)) (l := text)
  cases left : text.dropWhile (!isEnd ·) with
  | nil =>
    rw [left, List.append_nil] at parts
    exact absurd (parts ▸ endless_takeWhile text) ended
  | cons item rest =>
    have stopped := List.head?_dropWhile_not (!isEnd ·) text
    rw [left] at stopped parts
    exact ⟨item, rest, by simpa using stopped, parts.symm⟩

theorem lines_dropWhile (stream : List α) : lines isEnd (stream.dropWhile isEnd) = lines isEnd stream := by
  induction stream with
  | nil => rfl
  | cons item rest ih =>
    by_cases stop : isEnd item = true
    · simpa [lines, linesFrom, stop] using ih
    · simp [stop]

theorem pending_dropWhile (stream : List α) :
    pending isEnd (stream.dropWhile isEnd) = pending isEnd stream := by
  induction stream with
  | nil => rfl
  | cons item rest ih =>
    by_cases stop : isEnd item = true
    · simpa [pending, pendingFrom, stop] using ih
    · simp [stop]

/-- Continuing something can only complete more lines than starting fresh. -/
theorem length_linesFrom_le {current other : List α} (filled : current ≠ [] → other ≠ [])
    (stream : List α) :
    (linesFrom isEnd current stream).length ≤ (linesFrom isEnd other stream).length := by
  induction stream generalizing current other with
  | nil => simp [linesFrom]
  | cons item rest ih =>
    simp only [linesFrom]
    split
    · by_cases empty : other = []
      · have both : current = [] := by
          by_contra some_
          exact filled some_ empty
        simp [both, empty]
      · by_cases fresh : current = []
        · simp [fresh, empty]
        · simp [fresh, empty]
    · exact ih (by simp)

theorem pendingFrom_filled {current other : List α} (filled : current ≠ [] → other ≠ [])
    (stream : List α) :
    pendingFrom isEnd current stream ≠ [] → pendingFrom isEnd other stream ≠ [] := by
  induction stream generalizing current other with
  | nil => exact filled
  | cons item rest ih =>
    simp only [pendingFrom]
    split
    · exact id
    · exact ih (by simp)

/-- A terminator completes what was pending, as long as that may be. -/
theorem exists_long_line {current stream : List α} (filled : current ≠ [])
    (ended : ¬ Endless isEnd stream) :
    ∃ line ∈ linesFrom isEnd current stream, current.length ≤ line.length := by
  induction stream generalizing current with
  | nil => exact absurd (fun item member => by simp at member) ended
  | cons item rest ih =>
    simp only [linesFrom]
    split
    · refine ⟨current, ?_, Nat.le_refl _⟩
      simp [filled]
    · rename_i open_
      have later : ¬ Endless isEnd rest := fun endless => ended (by
        intro other member
        rcases List.mem_cons.mp member with rfl | inside
        · simpa using open_
        · exact endless other inside)
      obtain ⟨line, member, long⟩ := @ih (current ++ [item]) (by simp) later
      refine ⟨line, member, ?_⟩
      simp only [List.length_append, List.length_singleton] at long
      omega

private theorem exists_split_from {line : List α} (current stream : List α)
    (member : line ∈ linesFrom isEnd current stream) :
    (∃ front item rest, stream = front ++ item :: rest ∧ Endless isEnd front ∧ isEnd item = true ∧
      line = current ++ front) ∨
    (∃ before item rest, stream = before ++ line ++ item :: rest ∧ Endless isEnd line ∧
      isEnd item = true ∧ pendingFrom isEnd current before = []) := by
  induction stream generalizing current with
  | nil => simp [linesFrom] at member
  | cons item rest ih =>
    simp only [linesFrom] at member
    split at member
    · rename_i stop
      -- the terminator either completes the line, or the line lies behind it
      have behind (inside : line ∈ linesFrom isEnd [] rest) :
          ∃ before item' rest', item :: rest = before ++ line ++ item' :: rest' ∧ Endless isEnd line ∧
            isEnd item' = true ∧ pendingFrom isEnd current before = [] := by
        rcases ih [] inside with ⟨front, item', rest', split, endless, stop', same⟩ |
          ⟨before, item', rest', split, endless, stop', done⟩
        · simp only [List.nil_append] at same
          subst same
          exact ⟨[item], item', rest', by simp [split], endless, stop', by simp [pendingFrom, stop]⟩
        · exact ⟨item :: before, item', rest', by simp [split], endless, stop', by
            simpa [pendingFrom, stop] using done⟩
      split at member
      · exact .inr (behind member)
      · rcases List.mem_cons.mp member with rfl | inside
        · exact .inl ⟨[], item, rest, rfl, by simp [Endless], stop, by simp⟩
        · exact .inr (behind inside)
    · rename_i open_
      rcases ih (current ++ [item]) member with ⟨front, item', rest', split, endless, stop, same⟩ |
        ⟨before, item', rest', split, endless, stop, done⟩
      · refine .inl ⟨item :: front, item', rest', by simp [split], ?_, stop, by simp [same]⟩
        intro other inside
        rcases List.mem_cons.mp inside with rfl | later
        · simpa using open_
        · exact endless other later
      · exact .inr ⟨item :: before, item', rest', by simp [split], endless, stop, by
          simpa [pendingFrom, open_] using done⟩

/-- Around one of its lines a stream splits into what was finished before and what follows. -/
theorem exists_split {line stream : List α} (member : line ∈ lines isEnd stream) :
    ∃ before item rest, stream = before ++ line ++ item :: rest ∧ Endless isEnd line ∧
      isEnd item = true ∧ pending isEnd before = [] := by
  rcases exists_split_from [] stream member with ⟨front, item, rest, split, endless, stop, same⟩ | found
  · simp only [List.nil_append] at same
    subst same
    exact ⟨[], item, rest, by simpa using split, endless, stop, rfl⟩
  · exact found

theorem length_le_of_mem_lines {line stream : List α} (member : line ∈ lines isEnd stream) :
    line.length ≤ stream.length := by
  obtain ⟨before, item, rest, rfl, -, -, -⟩ := exists_split member
  simp only [List.length_append]
  omega

end SolidIrcd.Lines
