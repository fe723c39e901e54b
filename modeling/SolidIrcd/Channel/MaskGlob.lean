import SolidIrcd.Channel.MaskMatch
import SolidIrcd.Lib.Glob

/-! What a mask stands for, and that `match` finds just that as long as its shortcuts
have only one place to jump to; `collapse` leaves the meaning alone. -/

namespace SolidIrcd.Mask

open Scan (Text)
open Glob

def atom (c : Char) : Atom Char :=
  if c = '*' then .run else if c = '?' then .any else .one c

def Fits (c d : Char) : Prop := toUpper d = toUpper c

/-- The standard meaning of a mask, where a backslash is a character like any other. -/
def Means (mask string : Text) : Prop := Reads Fits (mask.map atom) string

/-- Where a mask speaks of a mark that the shortcuts jump to, the string has it once at most. -/
def Single (mask string : Text) : Prop :=
  ('!' ∈ mask → string.count '!' ≤ 1) ∧ ('@' ∈ mask → string.count '@' ≤ 1)

theorem atom_plain (plain : isWild c = false) : atom c = .one c := by
  simp only [isWild, Bool.or_eq_false_iff, beq_eq_false_iff_ne] at plain
  simp [atom, plain]

theorem Single.mono (single : Single mask string) (part : mask' ⊆ mask) (sub : string'.Sublist string) :
    Single mask' string' :=
  ⟨fun member => Nat.le_trans (sub.count_le _) (single.1 (part member)),
    fun member => Nat.le_trans (sub.count_le _) (single.2 (part member))⟩

theorem Single.suffix (single : Single mask string) (tail : mask' <:+ mask) (tail' : string' <:+ string) :
    Single mask' string' := single.mono tail.subset tail'.sublist

/-- A mask without wildcards means itself, up to the case of letters. -/
theorem means_plain {mask : Text} (plain : ∀ c ∈ mask, isWild c = false) (string : Text) :
    Means mask string ↔ mycmp mask string = true := by
  rw [mycmp_iff]
  induction mask generalizing string with
  | nil => simp [Means, eq_comm]
  | cons c mask ih =>
    have rest := ih fun d member => plain d (List.mem_cons_of_mem _ member)
    rw [Means, List.map_cons, atom_plain (plain c (List.mem_cons_self ..))]
    cases string with
    | nil => simp
    | cons d string =>
      rw [reads_one_cons, List.map_cons, List.map_cons, List.cons.injEq, Fits, eq_comm]
      exact and_congr_right fun _ => rest string

section Skip

variable {wild wild' string string' : Text}

theorem skipCommon_suffix (skipped : skipCommon wanted wild string = some (wild', string')) :
    wild' <:+ wild ∧ string' <:+ string := by
  unfold skipCommon at skipped
  split at skipped
  next c rest =>
    split at skipped
    · obtain ⟨⟨before, after⟩, found, same⟩ := Option.map_eq_some_iff.mp skipped
      obtain ⟨rfl, rfl⟩ : rest = wild' ∧ after = string' := by simpa using same
      refine ⟨⟨['*', c], rfl⟩, ⟨before ++ [wanted], ?_⟩⟩
      simpa using splitFirst_text found
    · obtain ⟨rfl, rfl⟩ : _ = wild' ∧ string = string' := by simpa using skipped
      exact ⟨List.suffix_rfl, List.suffix_rfl⟩
  next =>
    obtain ⟨rfl, rfl⟩ : wild = wild' ∧ string = string' := by simpa using skipped
    exact ⟨List.suffix_rfl, List.suffix_rfl⟩

/-- A shortcut goes to a place that the star may reach. -/
theorem skipCommon_sound (plain : isWild wanted = false) (skipped : skipCommon wanted wild string = some (wild', string'))
    (meant : Means wild' string') : Means wild string := by
  unfold skipCommon at skipped
  split at skipped
  next c rest =>
    split at skipped
    next same =>
      subst same
      obtain ⟨⟨before, after⟩, found, same⟩ := Option.map_eq_some_iff.mp skipped
      obtain ⟨rfl, rfl⟩ : rest = wild' ∧ after = string' := by simpa using same
      rw [← splitFirst_text found, Means, List.map_cons, List.map_cons, atom_plain plain]
      exact .run before (.one rfl meant)
    next =>
      obtain ⟨rfl, rfl⟩ : _ = wild' ∧ string = string' := by simpa using skipped
      exact meant
  next =>
    obtain ⟨rfl, rfl⟩ : wild = wild' ∧ string = string' := by simpa using skipped
    exact meant

/-- Where the mark occurs once, it is the only place that the star may reach. -/
theorem skipCommon_complete (plain : isWild wanted = false) (fixed : ¬ wanted.isUpper) (upper : toUpper wanted = wanted)
    (once : wanted ∈ wild → string.count wanted ≤ 1) (meant : Means wild string) :
    ∃ wild' string', skipCommon wanted wild string = some (wild', string') ∧ Means wild' string' := by
  unfold skipCommon
  split
  next c rest =>
    split
    next same =>
      subst same
      rw [Means, List.map_cons, List.map_cons, atom_plain plain] at meant
      obtain ⟨front, behind, rfl, inner⟩ := reads_run.mp meant
      cases behind with
      | nil => exact absurd inner not_reads_one_nil
      | cons first after =>
        obtain ⟨fit, others⟩ := reads_one_cons.mp inner
        obtain rfl : first = c := eq_of_toUpper fixed (fit.trans upper)
        have absent : first ∉ front := by
          intro member
          have few := once (by simp)
          have some := List.count_pos_iff.mpr member
          simp only [List.count_append, List.count_cons_self] at few
          omega
        exact ⟨rest, after, by simp [splitFirst_join absent], others⟩
    next => exact ⟨_, _, rfl, meant⟩
  next => exact ⟨_, _, rfl, meant⟩

end Skip

theorem means_dropStars (rest string : Text) :
    Means ('*' :: rest) string ↔ Means ('*' :: rest.dropWhile (· == '*')) string := by
  induction rest with
  | nil => rfl
  | cons c rest ih =>
    by_cases star : c = '*'
    · subst star
      have kept : ('*' :: rest).dropWhile (· == '*') = rest.dropWhile (· == '*') := by simp
      rw [kept, ← ih]
      exact reads_run_run string
    · simp [star]

theorem means_eat (wild string : Text) :
    Means ('*' :: wild) string ↔ Means ('*' :: (eat wild string).1) (eat wild string).2 := by
  fun_induction eat wild string with
  | case1 wild first string ih => exact ((reads_run_any _).trans reads_any_cons).trans ih
  | case2 wild string other => rfl

theorem eat_suffix (wild string : Text) : (eat wild string).1 <:+ wild ∧ (eat wild string).2 <:+ string := by
  fun_induction eat wild string with
  | case1 wild first string ih => exact ⟨ih.1.trans (List.suffix_cons ..), ih.2.trans (List.suffix_cons ..)⟩
  | case2 wild string other => exact ⟨List.suffix_rfl, List.suffix_rfl⟩

/-- A question mark stays only where the string has ended. -/
theorem eat_head (eaten : eat wild string = ('?' :: more, after)) : after = [] := by
  fun_induction eat wild string with
  | case1 wild first string ih => exact ih eaten
  | case2 wild string other =>
    obtain ⟨rfl, rfl⟩ : wild = '?' :: more ∧ string = after := by simpa using eaten
    cases string with
    | nil => rfl
    | cons first string => exact (other more first string rfl rfl).elim

/-- What an answer of the matcher is worth: a match is one, and a match is found unless the
counter has run out on the way. -/
structure Right (wild string : Text) (calls : Nat) (answer : Bool × Nat) : Prop where
  grows : calls ≤ answer.2
  sound : answer.1 = true → Means wild string
  complete : Single wild string → answer.2 ≤ maxCalls + 1 → Means wild string → answer.1 = true

theorem Right.later (less : calls ≤ calls') (right : Right wild string calls' answer) : Right wild string calls answer :=
  ⟨Nat.le_trans less right.grows, right.sound, right.complete⟩

theorem Right.search {attempt : Nat → Text → Bool × Nat} (plain : isWild c = false)
    (right : ∀ calls string, Right more string calls (attempt calls string)) (calls : Nat) (string : Text) :
    Right ('*' :: c :: more) string calls (search attempt c calls string) := by
  have unfolded (string : Text) : Means ('*' :: c :: more) string ↔ Reads Fits (.run :: .one c :: more.map atom) string := by
    rw [Means, List.map_cons, List.map_cons, atom_plain plain]
    rfl
  induction string generalizing calls with
  | nil =>
    have never : ¬ Means ('*' :: c :: more) [] := by simp [unfolded]
    exact ⟨Nat.le_refl _, by simp [Mask.search], fun _ _ meant => absurd meant never⟩
  | cons first string ih =>
    have shorter (single : Single ('*' :: c :: more) (first :: string)) : Single ('*' :: c :: more) string :=
      single.suffix List.suffix_rfl (List.suffix_cons ..)
    have later (meant : Means ('*' :: c :: more) string) : Means ('*' :: c :: more) (first :: string) :=
      (unfolded _).mpr (reads_run_cons.mpr (.inr ((unfolded _).mp meant)))
    rw [Mask.search]
    by_cases fit : toUpper first = toUpper c
    · rw [if_pos fit]
      have here := right calls string
      cases tried : attempt calls string with
      | mk found calls' =>
        rw [tried] at here
        cases found with
        | true =>
          refine ⟨here.grows, fun _ => ?_, fun _ _ _ => rfl⟩
          exact (unfolded _).mpr (reads_run_cons.mpr (.inl (.one fit (here.sound rfl))))
        | false =>
          have next := ih calls'
          refine ⟨Nat.le_trans here.grows next.grows, fun found => later (next.sound found), ?_⟩
          intro single few meant
          rcases reads_run_cons.mp ((unfolded _).mp meant) with now | behind
          · have single' : Single more string :=
              single.suffix ⟨['*', c], rfl⟩ (List.suffix_cons ..)
            have found := here.complete single' (Nat.le_trans next.grows few) (reads_one_cons.mp now).2
            cases found
          · exact next.complete (shorter single) few ((unfolded _).mpr behind)
    · rw [if_neg fit]
      have next := ih calls
      refine ⟨next.grows, fun found => later (next.sound found), ?_⟩
      intro single few meant
      rcases reads_run_cons.mp ((unfolded _).mp meant) with now | behind
      · exact absurd (reads_one_cons.mp now).1 fit
      · exact next.complete (shorter single) few ((unfolded _).mpr behind)

/-- A pattern that starts with a star. -/
private theorem Right.star {rest : Text}
    (shorter : ∀ wild : Text, wild.length ≤ rest.length →
      (∀ string calls, Right wild string calls (matchCall wild string calls)) ∧
        ∀ string calls, Right wild string calls (matchLoop wild string calls))
    (string : Text) (calls : Nat) : Right ('*' :: rest) string calls (matchLoop ('*' :: rest) string calls) := by
  have meaning : Means ('*' :: rest) string ↔ _ := (means_dropStars rest string).trans (means_eat _ string)
  have parts := eat_suffix (rest.dropWhile (· == '*')) string
  rw [matchLoop_star]
  cases eaten : eat (rest.dropWhile (· == '*')) string with
  | mk left after =>
    rw [eaten] at meaning parts
    have part : '*' :: left <:+ '*' :: left := List.suffix_rfl
    have single' (single : Single ('*' :: rest) string) : Single ('*' :: left) after := by
      refine single.mono ?_ parts.2.sublist
      intro c member
      rcases List.mem_cons.mp member with star | inside
      · exact star ▸ List.mem_cons_self ..
      · exact List.mem_cons_of_mem _ ((List.dropWhile_suffix _).subset (parts.1.subset inside))
    cases left with
    | nil => exact ⟨Nat.le_refl _, fun _ => meaning.mpr reads_run_last, fun _ _ _ => rfl⟩
    | cons c more =>
      have bound := length_of_eaten eaten
      simp only
      by_cases star : c = '*'
      · subst star
        have next := (shorter _ bound).2 after calls
        have meaning' := meaning.trans (reads_run_run after)
        rw [if_pos rfl]
        refine ⟨next.grows, fun found => meaning'.mpr (next.sound found), ?_⟩
        intro single few meant
        exact next.complete ((single' single).suffix (List.suffix_cons ..) List.suffix_rfl) few (meaning'.mp meant)
      · rw [if_neg star]
        by_cases question : c = '?'
        · subst question
          obtain rfl := eat_head eaten
          have never : ¬ Means ('*' :: rest) string := by
            rw [meaning]
            exact fun meant => not_reads_any_nil (reads_run_nil.mp meant)
          exact ⟨Nat.le_refl _, by simp [Mask.search], fun _ _ meant => absurd meant never⟩
        · have plain : isWild c = false := by simp [isWild, star, question]
          have shorter' : more.length ≤ rest.length := by
            simp only [List.length_cons] at bound
            omega
          have next := Right.search plain (fun calls string => (shorter more shorter').1 string calls) calls after
          exact ⟨next.grows, fun found => meaning.mpr (next.sound found),
            fun single few meant => next.complete (single' single) few (meaning.mp meant)⟩

/-- Any other pattern. -/
private theorem Right.plain {rest : Text} (next : ∀ string calls, Right rest string calls (matchLoop rest string calls))
    (plain : c ≠ '*') (string : Text) (calls : Nat) :
      Right (c :: rest) string calls (matchLoop (c :: rest) string calls) := by
  cases string with
  | nil =>
    have never : ¬ Means (c :: rest) [] := by
      intro meant
      rw [Means, List.map_cons, atom, if_neg plain] at meant
      split at meant
      · exact not_reads_any_nil meant
      · exact not_reads_one_nil meant
    rw [matchLoop]
    · exact ⟨Nat.le_refl _, by simp, fun _ _ meant => absurd meant never⟩
    · exact fun same => plain same
  | cons first string =>
    have meaning : Means (c :: rest) (first :: string) ↔ ¬ (c ≠ '?' ∧ toUpper first ≠ toUpper c) ∧ Means rest string := by
      rw [Means, List.map_cons, atom, if_neg plain]
      by_cases question : c = '?'
      · simp [question, Means]
      · simp [question, Means, Fits]
    have next := next string calls
    rw [matchLoop]
    · by_cases differs : c ≠ '?' ∧ toUpper first ≠ toUpper c
      · rw [if_pos differs]
        exact ⟨Nat.le_refl _, by simp, fun _ _ meant => absurd differs (meaning.mp meant).1⟩
      · rw [if_neg differs]
        refine ⟨next.grows, fun found => meaning.mpr ⟨differs, next.sound found⟩, ?_⟩
        intro single few meant
        exact next.complete (single.suffix (List.suffix_cons ..) (List.suffix_cons ..)) few (meaning.mp meant).2
    · exact fun same => absurd same plain

/-- A shortcut keeps what comes behind it right. -/
private theorem Right.jump {wild string : Text} {next : Text × Text → Bool × Nat} (plain : isWild wanted = false)
    (fixed : ¬ wanted.isUpper) (upper : toUpper wanted = wanted)
    (once : Single wild string → wanted ∈ wild → string.count wanted ≤ 1)
    (right : ∀ wild' string', wild' <:+ wild → Right wild' string' calls (next (wild', string'))) :
    Right wild string calls ((skipCommon wanted wild string).elim (false, calls) next) := by
  cases skipped : skipCommon wanted wild string with
  | none =>
    refine ⟨Nat.le_refl _, by simp, fun single _ meant => ?_⟩
    obtain ⟨wild', string', found, -⟩ := skipCommon_complete plain fixed upper (once single) meant
    simp [skipped] at found
  | some pair =>
    obtain ⟨wild', string'⟩ := pair
    have parts := skipCommon_suffix skipped
    have next := right wild' string' parts.1
    refine ⟨next.grows, fun found => skipCommon_sound plain skipped (next.sound found), ?_⟩
    intro single few meant
    obtain ⟨_, _, found, inner⟩ := skipCommon_complete plain fixed upper (once single) meant
    obtain ⟨rfl, rfl⟩ : wild' = _ ∧ string' = _ := by simpa [skipped] using found
    exact next.complete (single.suffix parts.1 parts.2) few inner

/-- One call, given its loop. -/
private theorem Right.call {wild : Text}
    (loop : ∀ wild' : Text, wild' <:+ wild → ∀ string calls, Right wild' string calls (matchLoop wild' string calls))
    (string : Text) (calls : Nat) : Right wild string calls (matchCall wild string calls) := by
  rw [matchCall_skip]
  split
  next spent =>
    refine ⟨Nat.le_succ _, by simp, fun _ few => ?_⟩
    simp only at few
    omega
  next =>
    have inner (wild' string' : Text) (tail : wild' <:+ wild) : Right wild' string' (calls + 1)
        ((skipCommon '@' wild' string').elim (false, calls + 1) fun pair => matchLoop pair.1 pair.2 (calls + 1)) :=
      Right.jump (by decide) (by decide) (by decide) (fun single => single.2)
        fun wild'' string'' tail' => loop wild'' (tail'.trans tail) string'' (calls + 1)
    have outer : Right wild string (calls + 1) ((skipCommon '!' wild string).elim (false, calls + 1) fun pair =>
        (skipCommon '@' pair.1 pair.2).elim (false, calls + 1) fun pair => matchLoop pair.1 pair.2 (calls + 1)) :=
      Right.jump (by decide) (by decide) (by decide) (fun single => single.1) inner
    refine Right.later (Nat.le_succ calls) ?_
    cases person : skipCommon '!' wild string with
    | none => simpa [person] using outer
    | some pair =>
      rw [person] at outer
      cases host : skipCommon '@' pair.1 pair.2 with
      | none => simpa [host] using outer
      | some pair => simpa [host] using outer

theorem matchCall_right (wild : Text) :
    (∀ string calls, Right wild string calls (matchCall wild string calls)) ∧
      ∀ string calls, Right wild string calls (matchLoop wild string calls) := by
  generalize size : wild.length = n
  induction n using Nat.strongRecOn generalizing wild with
  | ind n ih =>
    subst size
    have loop : ∀ string calls, Right wild string calls (matchLoop wild string calls) := by
      intro string calls
      cases wild with
      | nil =>
        rw [matchLoop]
        refine ⟨Nat.le_refl _, ?_, ?_⟩ <;> simp [Means]
      | cons c rest =>
        by_cases star : c = '*'
        · subst star
          exact Right.star (fun other bound => ih other.length (Nat.lt_succ_of_le bound) other rfl) string calls
        · exact Right.plain (ih rest.length (Nat.lt_succ_self _) rest rfl).2 star string calls
    refine ⟨Right.call fun wild' tail => ?_, loop⟩
    rcases Nat.lt_or_eq_of_le tail.length_le with less | same
    · exact (ih wild'.length less wild' rfl).2
    · exact tail.eq_of_length same ▸ loop

/-- No call on the way has found the counter above `MAX_CALLS`. -/
def Afforded (mask string : Text) : Prop := (matchCall mask string 0).2 ≤ maxCalls + 1

theorem matchMask_sound (found : matchMask mask string = true) : Means mask string :=
  ((matchCall_right mask).1 string 0).sound found

theorem matchMask_complete (single : Single mask string) (afforded : Afforded mask string) (meant : Means mask string) :
    matchMask mask string = true :=
  ((matchCall_right mask).1 string 0).complete single afforded meant

theorem matchMask_iff (single : Single mask string) (afforded : Afforded mask string) :
    matchMask mask string = true ↔ Means mask string :=
  ⟨matchMask_sound, matchMask_complete single afforded⟩

/-- `match` finds only what the mask means, and all of it in a text with one mark of each
kind at most. -/
theorem matchMask_glob (mask string : Text) :
    (matchMask mask string = true → Means mask string) ∧
      (string.count '!' ≤ 1 → string.count '@' ≤ 1 → Afforded mask string → Means mask string →
        matchMask mask string = true) :=
  ⟨matchMask_sound, fun bang at_ => matchMask_complete ⟨fun _ => bang, fun _ => at_⟩⟩

theorem matchMask_glob_nick : matchMask "*!b".toList "a!b".toList = true ∧ Means "*!b".toList "a!b".toList := by
  have run : matchCall "*!b".toList "a!b".toList 0 = (true, 1) := by
    simp [matchCall_skip, matchLoop, skipCommon, splitFirst, maxCalls]
  have found : matchMask "*!b".toList "a!b".toList = true := congrArg Prod.fst run
  have meant := (matchMask_glob "*!b".toList "a!b".toList).1 found
  have afforded : Afforded "*!b".toList "a!b".toList := by
    rw [Afforded, run]
    decide
  exact ⟨(matchMask_glob "*!b".toList "a!b".toList).2 (by decide) (by decide) afforded meant, meant⟩

end SolidIrcd.Mask
