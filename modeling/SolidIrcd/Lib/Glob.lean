import Mathlib.Data.List.Basic

/-! Wildcard patterns over any alphabet: a run of anything, any one letter, or a letter
that fits. Which words a pattern reads, and when two patterns read the same ones. -/

namespace SolidIrcd.Glob

inductive Atom (α : Type) where
  | run
  | any
  | one (c : α)

def Atom.isAny : Atom α → Bool
  | .any => true
  | _ => false

inductive Reads {α : Type} (fits : α → α → Prop) : List (Atom α) → List α → Prop where
  | nil : Reads fits [] []
  | run (front : List α) (rest : Reads fits pattern word) : Reads fits (.run :: pattern) (front ++ word)
  | any (c : α) (rest : Reads fits pattern word) : Reads fits (.any :: pattern) (c :: word)
  | one (same : fits c d) (rest : Reads fits pattern word) : Reads fits (.one c :: pattern) (d :: word)

variable {α : Type} {fits : α → α → Prop} {pattern pattern' : List (Atom α)} {word : List α}

@[simp] theorem reads_nil : Reads fits [] word ↔ word = [] := by
  constructor
  · intro reads
    cases reads
    rfl
  · rintro rfl
    exact .nil

theorem reads_run : Reads fits (.run :: pattern) word ↔ ∃ front rest, word = front ++ rest ∧ Reads fits pattern rest := by
  constructor
  · intro reads
    cases reads with
    | run front rest => exact ⟨front, _, rfl, rest⟩
  · rintro ⟨front, rest, rfl, reads⟩
    exact .run front reads

@[simp] theorem reads_any_cons : Reads fits (.any :: pattern) (d :: word) ↔ Reads fits pattern word := by
  constructor
  · intro reads
    cases reads
    assumption
  · exact .any d

@[simp] theorem not_reads_any_nil : ¬ Reads fits (.any :: pattern) [] := by
  intro reads
  cases reads

@[simp] theorem reads_one_cons :
    Reads fits (.one c :: pattern) (d :: word) ↔ fits c d ∧ Reads fits pattern word := by
  constructor
  · intro reads
    cases reads
    exact ⟨‹_›, ‹_›⟩
  · rintro ⟨same, rest⟩
    exact .one same rest

@[simp] theorem not_reads_one_nil : ¬ Reads fits (.one c :: pattern) [] := by
  intro reads
  cases reads

/-- A last run reads everything. -/
@[simp] theorem reads_run_last : Reads fits [.run] word :=
  reads_run.mpr ⟨word, [], by simp, .nil⟩

/-- A run starts right here, or one letter further on. -/
theorem reads_run_cons :
    Reads fits (.run :: pattern) (d :: word) ↔ Reads fits pattern (d :: word) ∨ Reads fits (.run :: pattern) word := by
  simp only [reads_run]
  constructor
  · rintro ⟨front, rest, split, reads⟩
    cases front with
    | nil =>
      obtain rfl : d :: word = rest := split
      exact .inl reads
    | cons c front =>
      obtain ⟨rfl, rfl⟩ : d = c ∧ word = front ++ rest := by simpa using split
      exact .inr ⟨front, rest, rfl, reads⟩
  · rintro (reads | ⟨front, rest, rfl, reads⟩)
    · exact ⟨[], d :: word, rfl, reads⟩
    · exact ⟨d :: front, rest, rfl, reads⟩

@[simp] theorem reads_run_nil : Reads fits (.run :: pattern) [] ↔ Reads fits pattern [] := by
  rw [reads_run]
  constructor
  · rintro ⟨front, rest, split, reads⟩
    obtain ⟨rfl, rfl⟩ : front = [] ∧ rest = [] := by simpa using split.symm
    exact reads
  · intro reads
    exact ⟨[], [], rfl, reads⟩

/-- Patterns that read the same words go on doing so behind an atom. -/
theorem Reads.behind (atom : Atom α) (same : ∀ word, Reads fits pattern word → Reads fits pattern' word)
    (reads : Reads fits (atom :: pattern) word) : Reads fits (atom :: pattern') word := by
  cases reads with
  | run front rest => exact .run front (same _ rest)
  | any c rest => exact .any c (same _ rest)
  | one fit rest => exact .one fit (same _ rest)

theorem reads_behind (atom : Atom α) (same : ∀ word, Reads fits pattern word ↔ Reads fits pattern' word)
    (word : List α) : Reads fits (atom :: pattern) word ↔ Reads fits (atom :: pattern') word :=
  ⟨Reads.behind atom fun word => (same word).mp, Reads.behind atom fun word => (same word).mpr⟩

/-- Two runs are one. -/
theorem reads_run_run (word : List α) :
    Reads fits (.run :: .run :: pattern) word ↔ Reads fits (.run :: pattern) word := by
  constructor
  · intro reads
    obtain ⟨front, rest, rfl, inner⟩ := reads_run.mp reads
    obtain ⟨front', rest', rfl, reads'⟩ := reads_run.mp inner
    exact reads_run.mpr ⟨front ++ front', rest', by simp, reads'⟩
  · exact Reads.run []

/-- A run changes places with any one letter. -/
theorem reads_run_any (word : List α) :
    Reads fits (.run :: .any :: pattern) word ↔ Reads fits (.any :: .run :: pattern) word := by
  cases word with
  | nil => simp
  | cons d word =>
    induction word generalizing d with
    | nil => simp [reads_run_cons]
    | cons e word ih => simp only [reads_run_cons, reads_any_cons, ih]

/-- Among the wildcards behind a run only the single letters count. -/
theorem reads_run_wild (wild : List (Atom α)) (wildcards : ∀ atom ∈ wild, atom = .run ∨ atom = .any)
    (word : List α) : Reads fits (.run :: (wild ++ pattern)) word ↔
      Reads fits (.run :: (wild.filter Atom.isAny ++ pattern)) word := by
  induction wild generalizing word with
  | nil => rfl
  | cons atom wild ih =>
    have ih' := ih fun other member => wildcards other (List.mem_cons_of_mem _ member)
    rcases wildcards atom (List.mem_cons_self ..) with rfl | rfl
    · exact (reads_run_run word).trans (ih' word)
    · calc Reads fits (.run :: .any :: (wild ++ pattern)) word
        _ ↔ Reads fits (.any :: .run :: (wild ++ pattern)) word := reads_run_any word
        _ ↔ Reads fits (.any :: .run :: (wild.filter Atom.isAny ++ pattern)) word := reads_behind .any ih' word
        _ ↔ Reads fits (.run :: .any :: (wild.filter Atom.isAny ++ pattern)) word := (reads_run_any word).symm

end SolidIrcd.Glob
