import SolidIrcd.Channel.MaskGlob

/-! What `collapse` does to a mask: it keeps the meaning, and it is done after one pass
unless a run of stars hides another star behind question marks. -/

namespace SolidIrcd.Mask

open Scan (Text)
open Glob

theorem means_squeeze (rest string : Text) : Means ('*' :: squeeze rest) string ↔ Means ('*' :: rest) string := by
  unfold squeeze
  split
  next rest =>
    rw [← means_dropStars]
    exact (reads_run_run string).symm
  next rest =>
    have wildcards : ∀ mark ∈ (rest.takeWhile isWild).map atom, mark = .run ∨ mark = .any := by
      intro mark member
      obtain ⟨c, inside, rfl⟩ := List.mem_map.mp member
      rcases (isWild_iff c).mp (List.mem_takeWhile_imp inside) with rfl | rfl
      · exact .inl rfl
      · exact .inr rfl
    have marks : ((rest.takeWhile isWild).map atom).filter Atom.isAny =
        ((rest.takeWhile isWild).filter (· == '?')).map atom := by
      rw [List.filter_map]
      congr 1
      apply List.filter_congr
      intro c inside
      rcases (isWild_iff c).mp (List.mem_takeWhile_imp inside) with rfl | rfl <;> rfl
    have whole : rest.map atom = (rest.takeWhile isWild).map atom ++ (rest.dropWhile isWild).map atom := by
      rw [← List.map_append, List.takeWhile_append_dropWhile]
    have squeezed (word : Text) : Reads Fits (.run :: rest.map atom) word ↔ Reads Fits
        (.run :: (((rest.takeWhile isWild).filter (· == '?')).map atom ++ (rest.dropWhile isWild).map atom)) word := by
      rw [whole, ← marks]
      exact reads_run_wild _ wildcards word
    rw [Means, Means, List.map_cons, List.map_cons, List.map_cons, List.map_cons, List.map_append]
    exact (reads_run_any string).trans ((reads_behind .any squeezed string).symm.trans (reads_run_any string).symm)
  next => rfl

/-- `collapse` keeps the meaning of a mask. -/
theorem means_collapse (mask string : Text) : Means (collapse mask) string ↔ Means mask string := by
  fun_induction collapse mask generalizing string with
  | case1 => rfl
  | case2 => rfl
  | case3 next rest ih => exact reads_behind _ (reads_behind _ ih) string
  | case4 rest ih => exact (reads_behind .run ih string).trans (means_squeeze rest string)
  | case5 first rest _ _ _ ih => exact reads_behind _ ih string

/-- A collapsed mask matches what the mask matched, where the shortcuts of the matcher have
one place to go. -/
theorem matchMask_collapse (single : Single mask string) (afforded : Afforded mask string)
    (afforded' : Afforded (collapse mask) string) : matchMask (collapse mask) string = matchMask mask string := by
  have single' : Single (collapse mask) string :=
    single.mono (fun _ member => mem_of_mem_collapse member) (List.Sublist.refl _)
  rw [Bool.eq_iff_iff, matchMask_iff single' afforded', matchMask_iff single afforded]
  exact means_collapse mask string

private theorem run_twoStars : matchCall "**!b".toList "a!c!b".toList 0 = (true, 3) := by
  simp [matchCall_skip, matchLoop_star, matchLoop, skipCommon, splitFirst, maxCalls, toUpper, eat, search]

private theorem run_oneStar : matchCall "*!b".toList "a!c!b".toList 0 = (false, 1) := by
  simp [matchCall_skip, matchLoop, skipCommon, splitFirst, maxCalls]

theorem matchMask_collapse_nick : matchMask (collapse "**!b".toList) "a!b".toList = matchMask "**!b".toList "a!b".toList := by
  have collapsed : collapse "**!b".toList = "*!b".toList := by decide +kernel
  apply matchMask_collapse
  · exact ⟨by decide, by decide⟩
  · simp [Afforded, matchCall_skip, matchLoop_star, matchLoop, skipCommon, maxCalls, toUpper, eat, search]
  · rw [collapsed]
    simp [Afforded, matchCall_skip, matchLoop, skipCommon, splitFirst, maxCalls]

/-- A text with two marks: the shortcut goes to the first one, and stays there. -/
theorem collapsed_mask_misses : ¬ ∀ mask string : Text, Afforded mask string → Afforded (collapse mask) string →
    matchMask (collapse mask) string = matchMask mask string := by
  intro all
  have collapsed : collapse "**!b".toList = "*!b".toList := by decide +kernel
  have same := all "**!b".toList "a!c!b".toList
  rw [collapsed, Afforded, Afforded, matchMask, matchMask, run_twoStars, run_oneStar] at same
  exact absurd (same (by decide) (by decide)) (by decide)

/-- No star stands behind leading question marks, or at the start. -/
def settled (text : Text) : Bool := (text.dropWhile (· == '?')).head? != some '*'

/-- Outside an escape, a run of wildcards starts with two stars or more and has another
star behind question marks that follow. -/
def tangled : Text → Bool
  | [] => false
  | ['\\'] => false
  | '\\' :: _ :: rest => tangled rest
  | '*' :: '*' :: rest => !settled (rest.dropWhile (· == '*')) || tangled (rest.dropWhile (· == '*'))
  | '*' :: '?' :: rest => tangled (rest.dropWhile isWild)
  | _ :: rest => tangled rest
termination_by text => text.length
decreasing_by
  · simp only [List.length_cons]
    omega
  · have shorter := (List.dropWhile_sublist (fun c : Char => c == '*') (l := rest)).length_le
    simp only [List.length_cons]
    omega
  · have shorter := (List.dropWhile_sublist isWild (l := rest)).length_le
    simp only [List.length_cons]
    omega
  · simp only [List.length_cons]
    omega

@[simp] theorem settled_mark (rest : Text) : settled ('?' :: rest) = settled rest := by simp [settled]

private theorem star_of_busy {rest : Text} (busy : settled rest = false) : '*' ∈ rest.takeWhile isWild := by
  induction rest with
  | nil => simp [settled] at busy
  | cons c rest ih =>
    by_cases question : c = '?'
    · subst question
      have inside := ih (by simpa using busy)
      simp [isWild, inside]
    · obtain rfl : c = '*' := by simpa [settled, question] using busy
      simp [isWild]

private theorem marks_of_settled {rest : Text} (quiet : settled rest = true) :
    (rest.takeWhile isWild).filter (· == '?') = rest.takeWhile isWild := by
  induction rest with
  | nil => rfl
  | cons c rest ih =>
    by_cases question : c = '?'
    · subst question
      simpa [isWild] using ih (by simpa using quiet)
    · have star : c ≠ '*' := by
        rintro rfl
        simp [settled] at quiet
      simp [isWild, question, star]

theorem squeeze_settled (quiet : settled text = true) : squeeze text = text := by
  unfold squeeze
  split
  next rest => simp [settled] at quiet
  next rest => rw [marks_of_settled (by simpa using quiet), List.takeWhile_append_dropWhile]
  next => rfl

theorem squeeze_shorter (busy : settled text = false) : (squeeze text).length < text.length := by
  unfold squeeze
  split
  next rest =>
    have shorter := (List.dropWhile_sublist (fun c : Char => c == '*') (l := rest)).length_le
    simp only [List.length_cons]
    omega
  next rest =>
    have fewer : ((rest.takeWhile isWild).filter (· == '?')).length < (rest.takeWhile isWild).length :=
      List.length_filter_lt_length_iff_exists.mpr ⟨'*', star_of_busy (by simpa using busy), by decide⟩
    have whole := congrArg List.length (List.takeWhile_append_dropWhile (p := isWild) (l := rest))
    simp only [List.length_append, List.length_cons] at whole ⊢
    omega
  next other star question =>
    have inside := star_of_busy busy
    cases text with
    | nil => simp at inside
    | cons c rest =>
      have plain : isWild c = false := by
        simp only [isWild, Bool.or_eq_false_iff, beq_eq_false_iff_ne]
        exact ⟨fun same => star rest (by rw [same]), fun same => question rest (by rw [same])⟩
      simp [plain] at inside

theorem collapse_mark (rest : Text) : collapse ('?' :: rest) = '?' :: collapse rest :=
  collapse_plain (by decide) (by decide) rest

theorem settled_marks {marks : Text} (only : ∀ c ∈ marks, c = '?') (rest : Text) :
    settled (marks ++ rest) = settled rest := by
  induction marks with
  | nil => rfl
  | cons c marks ih =>
    obtain rfl := only c (List.mem_cons_self ..)
    rw [List.cons_append, settled_mark, ih fun c member => only c (List.mem_cons_of_mem _ member)]

theorem settled_dropWild (rest : Text) : settled (rest.dropWhile isWild) = true := by
  have plain := List.head?_dropWhile_not isWild rest
  cases left : rest.dropWhile isWild with
  | nil => rfl
  | cons c others =>
    have notWild : isWild c = false := by simpa [left] using plain
    obtain ⟨star, question⟩ : c ≠ '*' ∧ c ≠ '?' := by simpa [isWild] using notWild
    simp [settled, star, question]

theorem collapse_marks {marks : Text} (only : ∀ c ∈ marks, c = '?') (rest : Text) :
    collapse (marks ++ rest) = marks ++ collapse rest := by
  induction marks with
  | nil => rfl
  | cons c marks ih =>
    obtain rfl := only c (List.mem_cons_self ..)
    rw [List.cons_append, collapse_mark, ih fun c member => only c (List.mem_cons_of_mem _ member), List.cons_append]

theorem settled_collapse (text : Text) : settled (collapse text) = settled text := by
  induction text with
  | nil => simp [collapse]
  | cons c rest ih =>
    by_cases question : c = '?'
    · subst question
      rw [collapse_mark, settled_mark, settled_mark, ih]
    · have head := head_collapse (c :: rest)
      cases collapsed : collapse (c :: rest) with
      | nil => simp [collapsed] at head
      | cons first others =>
        obtain rfl : first = c := by simpa [collapsed] using head
        simp [settled, question]

/-- A second pass over what a star leaves behind. -/
theorem collapse_star_again (rest : Text) : collapse (collapse ('*' :: rest)) = collapse ('*' :: rest) ↔
    settled (squeeze rest) = true ∧ collapse (collapse (squeeze rest)) = collapse (squeeze rest) := by
  have first : collapse ('*' :: rest) = '*' :: collapse (squeeze rest) := by simp [collapse]
  have second : collapse ('*' :: collapse (squeeze rest)) = '*' :: collapse (squeeze (collapse (squeeze rest))) := by
    rw [collapse]
  rw [first, second, List.cons.injEq, ← settled_collapse (squeeze rest)]
  cases quiet : settled (collapse (squeeze rest)) with
  | true => simp [squeeze_settled quiet]
  | false =>
    have shorter := squeeze_shorter quiet
    have shorter' := length_collapse_le (squeeze (collapse (squeeze rest)))
    simp only [true_and, Bool.false_eq_true, false_and, iff_false]
    intro same
    rw [same] at shorter'
    omega

/-- Where no run is tangled, and only there, one pass of `collapse` is enough. -/
theorem collapse_again (text : Text) : collapse (collapse text) = collapse text ↔ tangled text = false := by
  fun_induction tangled text with
  | case1 => simp [collapse]
  | case2 => simp [collapse]
  | case3 next rest ih => simpa [collapse] using ih
  | case4 rest ih =>
    rw [collapse_star_again]
    simpa [squeeze] using fun _ => ih
  | case5 rest ih =>
    have only : ∀ c ∈ '?' :: (rest.takeWhile isWild).filter (· == '?'), c = '?' := by simp
    have squeezed : squeeze ('?' :: rest) =
        ('?' :: (rest.takeWhile isWild).filter (· == '?')) ++ rest.dropWhile isWild := by simp [squeeze]
    rw [collapse_star_again, squeezed, settled_marks only, collapse_marks only, collapse_marks only,
      settled_dropWild, List.append_cancel_left_eq, ih]
    simp
  | case6 c rest single escaped twoStars starMark ih =>
    by_cases star : c = '*'
    · subst star
      have quiet : settled rest = true := by
        cases rest with
        | nil => rfl
        | cons first others =>
          have notStar : first ≠ '*' := fun same => twoStars others rfl (by rw [same])
          have notMark : first ≠ '?' := fun same => starMark others rfl (by rw [same])
          simp [settled, notStar, notMark]
      rw [collapse_star_again, squeeze_settled quiet, quiet, ih]
      simp
    · have plain : c ≠ '\\' := by
        rintro rfl
        cases rest with
        | nil => exact single rfl rfl
        | cons first others => exact escaped first others rfl rfl
      rw [collapse_plain plain star, collapse_plain plain star, List.cons.injEq, ih]
      simp

theorem collapse_eq_of_length (text : Text) (same : (collapse text).length = text.length) : collapse text = text := by
  rcases collapse_eq_or_shorter text with kept | shorter
  · exact kept
  · omega

/-- The canonical form of a canonical mask is that mask, in any case of its letters, just
where no field is tangled. -/
theorem canonical_again (mask : Text) : mycmp (canonical (canonical mask)) (canonical mask) = true ↔
    tangled (fields mask).1 = false ∧ tangled (fields mask).2.1 = false ∧ tangled (fields mask).2.2 = false := by
  have once : canonical mask = joinParts (collapse (fields mask).1) (collapse (fields mask).2.1)
    (collapse (fields mask).2.2) := by
    rw [canonical, prettyMask_fields, collapse_joinParts]
  have twice : canonical (canonical mask) = collapse (canonical mask) := by
    rw [canonical, prettyMask_canonical]
  rw [twice, once, collapse_joinParts, ← collapse_again, ← collapse_again, ← collapse_again]
  constructor
  · intro same
    have lengths := congrArg List.length (mycmp_iff.mp same)
    have nick := length_collapse_le (collapse (fields mask).1)
    have user := length_collapse_le (collapse (fields mask).2.1)
    have host := length_collapse_le (collapse (fields mask).2.2)
    simp only [joinParts, List.length_map, List.length_append, List.length_cons] at lengths
    refine ⟨collapse_eq_of_length _ ?_, collapse_eq_of_length _ ?_, collapse_eq_of_length _ ?_⟩ <;> omega
  · rintro ⟨nick, user, host⟩
    rw [nick, user, host]
    exact mycmp_refl _

/-- The first pass leaves `*?*?` of the nick, the second one `*??`. -/
theorem canonical_not_idempotent :
    ¬ ∀ mask : Text, mycmp (canonical (canonical mask)) (canonical mask) = true := by
  intro all
  exact absurd (all "**?*?".toList) (by decide +kernel)

end SolidIrcd.Mask
