import SolidIrcd.Channel.Mask

/-! A mask matches itself, in any case: `match` on a list refuses everything `mycmp`
would. Masks that differ in case match the same texts. -/

namespace SolidIrcd.Mask

open Scan (Text)

/-- Equal up to the case of letters. -/
abbrev Alike (wild string : Text) : Prop := wild.map toUpper = string.map toUpper

/-- Only a letter changes. -/
theorem eq_of_toUpper {c mark : Char} (fixed : ¬ mark.isUpper) (same : toUpper c = mark) : c = mark := by
  unfold toUpper Char.toUpper at same
  split at same
  next lower =>
    subst same
    refine absurd ?_ fixed
    obtain ⟨low, high⟩ := lower
    have low' : 97 ≤ c.val.toNat := by simpa [UInt32.le_iff_toNat_le] using low
    have high' : c.val.toNat ≤ 122 := by simpa [UInt32.le_iff_toNat_le] using high
    have sum : (c.val + ('A'.val - 'a'.val)).toNat = c.val.toNat - 32 := by
      have offset : ('A'.val - 'a'.val).toNat = 4294967264 := by decide
      rw [UInt32.toNat_add, offset]
      omega
    delta Char.isUpper
    simp only [ge_iff_le, UInt32.le_iff_toNat_le, sum, decide_eq_true_eq]
    have a : 'A'.val.toNat = 65 := by decide
    have z : 'Z'.val.toNat = 90 := by decide
    omega
  next => exact same

theorem Alike.cons_left (alike : Alike (c :: wild) string) :
    ∃ first rest, string = first :: rest ∧ toUpper first = toUpper c ∧ Alike wild rest := by
  cases string with
  | nil => simp [Alike] at alike
  | cons first rest =>
    simp only [Alike, List.map_cons, List.cons.injEq] at alike
    exact ⟨first, rest, rfl, alike.1.symm, alike.2⟩

/-- A mark stands where it stood. -/
theorem Alike.mark_left (alike : Alike (mark :: wild) string) (fixed : ¬ mark.isUpper) (same : toUpper mark = mark) :
    ∃ rest, string = mark :: rest ∧ Alike wild rest := by
  obtain ⟨first, rest, rfl, upper, others⟩ := alike.cons_left
  exact ⟨rest, by rw [eq_of_toUpper fixed (upper.trans same)], others⟩

theorem isWild_iff (c : Char) : isWild c = true ↔ c = '*' ∨ c = '?' := by simp [isWild]

/-- A character that is no wildcard is not taken for one. -/
theorem toUpper_ne_wild (plain : isWild c = false) (mark : isWild w = true) : toUpper w ≠ toUpper c := by
  intro same
  obtain rfl | rfl := (isWild_iff w).mp mark
  · have star : c = '*' := eq_of_toUpper (by decide) same.symm
    simp [star, isWild] at plain
  · have question : c = '?' := eq_of_toUpper (by decide) same.symm
    simp [question, isWild] at plain

/-- A run of stars goes on both sides. -/
theorem dropWhile_alike (alike : Alike rest string) :
    ∃ stars string', string = stars ++ string' ∧ (∀ w ∈ stars, isWild w = true) ∧
      Alike (rest.dropWhile (· == '*')) string' := by
  induction rest generalizing string with
  | nil => exact ⟨[], string, rfl, by simp, alike⟩
  | cons c rest ih =>
    by_cases star : c = '*'
    · subst star
      obtain ⟨more, rfl, others⟩ := alike.mark_left (by decide) (by decide)
      obtain ⟨stars, string', rfl, wild, left⟩ := ih others
      refine ⟨'*' :: stars, string', rfl, ?_, by simpa using left⟩
      intro w member
      obtain rfl | member := List.mem_cons.mp member
      · rfl
      · exact wild w member
    · exact ⟨[], string, rfl, by simp, by simpa [star] using alike⟩

/-- What stands behind the stars goes on matching when wildcards are in front of it. -/
theorem eat_alike {wild string front : Text} (alike : Alike wild string) (nonempty : front ≠ [])
    (marks : ∀ w ∈ front, isWild w = true) :
    ∃ wild' string' front', eat wild (front ++ string) = (wild', front' ++ string') ∧ Alike wild' string' ∧
      (∀ w ∈ front', isWild w = true) ∧ wild'.head? ≠ some '?' := by
  induction wild generalizing string front with
  | nil => exact ⟨[], string, front, by simp [eat], alike, marks, by simp⟩
  | cons c wild ih =>
    by_cases question : c = '?'
    · subst question
      obtain ⟨rest, rfl, others⟩ := alike.mark_left (by decide) (by decide)
      obtain ⟨first, front, rfl⟩ := List.exists_cons_of_ne_nil nonempty
      have marks' : ∀ w ∈ front ++ ['?'], isWild w = true := by
        intro w member
        obtain old | new := List.mem_append.mp member
        · exact marks w (List.mem_cons_of_mem _ old)
        · rw [List.mem_singleton.mp new]
          rfl
      obtain ⟨wild', string', front', eaten, result⟩ := ih others (by simp) marks'
      refine ⟨wild', string', front', ?_, result⟩
      simpa [eat] using eaten
    · refine ⟨c :: wild, string, front, ?_, alike, marks, by simpa using question⟩
      unfold eat
      split
      next same _ => simp_all
      next => rfl

theorem search_skip (attempt : Nat → Text → Bool × Nat) (plain : isWild c = false) (marks : ∀ w ∈ front, isWild w = true)
    (calls : Nat) (string : Text) : search attempt c calls (front ++ string) = search attempt c calls string := by
  induction front with
  | nil => rfl
  | cons w front ih =>
    have other := toUpper_ne_wild plain (marks w (List.mem_cons_self ..))
    rw [List.cons_append, search, if_neg other]
    exact ih fun w member => marks w (List.mem_cons_of_mem _ member)

/-- What the two functions are asked for a pattern: with wildcards in front of the
string too, as long as the pattern starts with a star. -/
structure Matches (wild : Text) : Prop where
  call : ∀ string calls, Alike wild string → calls + wild.length ≤ maxCalls →
    (matchCall wild string calls).1 = true
  loop : ∀ front string calls, Alike wild string → calls + wild.length ≤ maxCalls + 1 →
    (∀ w ∈ front, isWild w = true) → (wild.head? = some '*' ∨ front = []) →
    (matchLoop wild (front ++ string) calls).1 = true

/-- A pattern that starts with a star. -/
theorem loop_star (shorter : ∀ wild : Text, wild.length ≤ rest.length → Matches wild)
    (alike : Alike rest string) (few : calls + rest.length ≤ maxCalls) (marks : ∀ w ∈ front, isWild w = true) :
    (matchLoop ('*' :: rest) (front ++ '*' :: string) calls).1 = true := by
  obtain ⟨stars, behind, rfl, starMarks, alike'⟩ := dropWhile_alike alike
  have marks' : ∀ w ∈ front ++ '*' :: stars, isWild w = true := by
    intro w member
    simp only [List.mem_append, List.mem_cons] at member
    obtain old | rfl | star := member
    · exact marks w old
    · rfl
    · exact starMarks w star
  obtain ⟨wild', string', front', eaten, left, wild, head⟩ := eat_alike alike' (by simp) marks'
  have text : front ++ '*' :: (stars ++ behind) = front ++ '*' :: stars ++ behind := by simp
  have short := length_of_eaten eaten
  rw [text, matchLoop, eaten]
  cases wild' with
  | nil => rfl
  | cons c more =>
    simp only [List.length_cons] at short
    by_cases star : c = '*'
    · simp only [if_pos star]
      apply (shorter (c :: more) short).loop front' string' calls left _ wild (.inl (by simp [star]))
      simp only [List.length_cons]
      omega
    · have plain : isWild c = false := by
        simp only [isWild, star, beq_eq_false_iff_ne, Bool.or_eq_false_iff, ne_eq, not_false_eq_true,
          true_and]
        intro question
        exact head (by simp [question])
      obtain ⟨first, others, rfl, same, alike''⟩ := left.cons_left
      have found := (shorter more (by omega)).call others calls alike'' (by omega)
      simp only [if_neg star]
      rw [search_skip _ plain wild, search, if_pos same]
      simp only [found, if_true]

/-- Any other pattern. -/
theorem loop_plain (shorter : ∀ wild : Text, wild.length ≤ rest.length → Matches wild) (plain : c ≠ '*')
    (same : toUpper first = toUpper c) (alike : Alike rest string) (few : calls + rest.length ≤ maxCalls) :
    (matchLoop (c :: rest) (first :: string) calls).1 = true := by
  have next := (shorter rest (Nat.le_refl _)).loop [] string calls alike (by omega) (by simp) (.inr rfl)
  rw [matchLoop]
  · simpa [same] using next
  · intro other
    exact absurd other plain

theorem skipCommon_alike (alike : Alike wild string) (fixed : ¬ wanted.isUpper) (same : toUpper wanted = wanted)
    (other : wanted ≠ '*') :
    ∃ wild' string', skipCommon wanted wild string = some (wild', string') ∧ Alike wild' string' := by
  unfold skipCommon
  split
  next c rest =>
    by_cases common : c = wanted
    · subst common
      obtain ⟨behind, rfl, alikeStar⟩ := alike.mark_left (by decide) (by decide)
      obtain ⟨after, rfl, alikeMark⟩ := alikeStar.mark_left fixed same
      have absent : c ∉ ['*'] := by simpa using other
      have split : splitFirst c (['*'] ++ c :: after) = some (['*'], after) := splitFirst_join absent
      rw [List.singleton_append] at split
      exact ⟨rest, after, by simp [split], alikeMark⟩
    · exact ⟨_, _, if_neg common, alike⟩
  next => exact ⟨_, _, rfl, alike⟩

/-- The loop, when all shorter patterns match themselves. -/
theorem loop_self {wild front : Text} (shorter : ∀ other : Text, other.length < wild.length → Matches other)
    (alike : Alike wild string) (few : calls + wild.length ≤ maxCalls + 1) (marks : ∀ w ∈ front, isWild w = true)
    (start : wild.head? = some '*' ∨ front = []) : (matchLoop wild (front ++ string) calls).1 = true := by
  cases wild with
  | nil =>
    obtain rfl : front = [] := start.resolve_left (by simp)
    obtain rfl : string = [] := List.map_eq_nil_iff.mp alike.symm
    simp [matchLoop]
  | cons c rest =>
    have few' : calls + rest.length ≤ maxCalls := by
      simp only [List.length_cons] at few
      omega
    have less (other : Text) (bound : other.length ≤ rest.length) : Matches other :=
      shorter other (Nat.lt_succ_of_le bound)
    by_cases star : c = '*'
    · subst star
      obtain ⟨behind, rfl, alike'⟩ := alike.mark_left (by decide) (by decide)
      exact loop_star less alike' few' marks
    · obtain rfl : front = [] := start.resolve_left (by simpa using star)
      obtain ⟨first, behind, rfl, same, alike'⟩ := alike.cons_left
      exact loop_plain less star same alike' few'

/-- Every pattern that is not too long matches itself. -/
theorem matches_self (wild : Text) : Matches wild := by
  generalize size : wild.length = n
  induction n using Nat.strongRecOn generalizing wild with
  | ind n ih =>
    subst size
    have shorter (other : Text) (less : other.length < wild.length) : Matches other := ih other.length less other rfl
    constructor
    case loop => exact fun front string calls alike few => loop_self shorter alike few
    case call =>
      intro string calls alike few
      obtain ⟨nickless, afterNick, person, alikeNick⟩ :=
        skipCommon_alike alike (by decide : ¬ '!'.isUpper) (by decide) (by decide)
      obtain ⟨userless, afterUser, host, alikeUser⟩ :=
        skipCommon_alike alikeNick (by decide : ¬ '@'.isUpper) (by decide) (by decide)
      have lessNick := length_skipCommon_le person
      have lessUser := length_skipCommon_le host
      have found : (matchLoop userless afterUser (calls + 1)).1 = true :=
        loop_self (fun other less => shorter other (by omega)) alikeUser (by omega)
          (List.forall_mem_nil _) (.inr rfl)
      rw [matchCall, if_neg (by omega)]
      split
      next missing => simp [person] at missing
      next nickless' rest' person' =>
        obtain ⟨rfl, rfl⟩ : nickless = nickless' ∧ afterNick = rest' := by simpa [person] using person'
        split
        next missing => simp [host] at missing
        next userless' rest'' host' =>
          obtain ⟨rfl, rfl⟩ : userless = userless' ∧ afterUser = rest'' := by simpa [host] using host'
          exact found

/-- What `mycmp` finds in a list, `match` finds too. -/
theorem matchMask_of_mycmp (equal : mycmp wild string = true) (short : wild.length ≤ maxCalls) :
    matchMask wild string = true :=
  (matches_self wild).call string 0 (mycmp_iff.mp equal) (by omega)

/-- A first letter that is another one. -/
theorem matchMask_of_head (star : c ≠ '*') (question : c ≠ '?') (differs : toUpper first ≠ toUpper c)
    (wild string : Text) : matchMask (c :: wild) (first :: string) = false := by
  have skip (wanted : Char) : skipCommon wanted (c :: wild) (first :: string) = some (c :: wild, first :: string) := by
    unfold skipCommon
    split
    next same => exact absurd (List.cons.inj same).1 star
    next => rfl
  have loop : matchLoop (c :: wild) (first :: string) 1 = (false, 1) := by
    rw [matchLoop]
    · rw [if_pos ⟨question, differs⟩]
    · intro same
      exact absurd same star
  rw [matchMask, matchCall, if_neg (by decide)]
  split
  next => rfl
  next nickless rest person =>
    obtain ⟨rfl, rfl⟩ : c :: wild = nickless ∧ first :: string = rest := by simpa [skip] using person
    split
    next => rfl
    next userless rest host =>
      obtain ⟨rfl, rfl⟩ : c :: wild = userless ∧ first :: string = rest := by simpa [skip] using host
      rw [loop]

section Case

variable {wild wild' rest rest' : Text}

private theorem dropStars_both (alike : Alike rest rest') :
    Alike (rest.dropWhile (· == '*')) (rest'.dropWhile (· == '*')) := by
  induction rest generalizing rest' with
  | nil =>
    obtain rfl : rest' = [] := List.map_eq_nil_iff.mp alike.symm
    exact alike
  | cons c rest ih =>
    obtain ⟨first, others, rfl, upper, alike'⟩ := alike.cons_left
    by_cases star : c = '*'
    · subst star
      obtain rfl : first = '*' := eq_of_toUpper (by decide) upper
      simpa using ih alike'
    · have notStar : first ≠ '*' := by
        rintro rfl
        exact star (eq_of_toUpper (by decide) upper.symm)
      simpa [star, notStar] using alike

private theorem eat_both (alike : Alike wild wild') (string : Text) :
    Alike (eat wild string).1 (eat wild' string).1 ∧ (eat wild string).2 = (eat wild' string).2 := by
  fun_induction eat wild string generalizing wild' with
  | case1 wild _ string ih =>
    obtain ⟨others, rfl, alike'⟩ := alike.mark_left (by decide) (by decide)
    simpa [eat] using ih alike'
  | case2 wild string other =>
    have same : eat wild' string = (wild', string) := by
      unfold eat
      split
      next others c more =>
        obtain ⟨left, rfl, -⟩ := Alike.mark_left alike.symm (by decide) (by decide)
        exact (other left c more rfl rfl).elim
      next => rfl
    rw [same]
    exact ⟨alike, rfl⟩

private theorem skipCommon_both (alike : Alike wild wild') (fixed : ¬ wanted.isUpper) (same : toUpper wanted = wanted)
    (string : Text) :
    (skipCommon wanted wild string = none ∧ skipCommon wanted wild' string = none) ∨
      ∃ left left' after, skipCommon wanted wild string = some (left, after) ∧
        skipCommon wanted wild' string = some (left', after) ∧ Alike left left' := by
  by_cases common : ∃ more, wild = '*' :: wanted :: more
  · obtain ⟨more, rfl⟩ := common
    obtain ⟨behind, rfl, alikeStar⟩ := alike.mark_left (by decide) (by decide)
    obtain ⟨after, rfl, alikeMark⟩ := alikeStar.mark_left fixed same
    cases found : splitFirst wanted string with
    | none => exact .inl (by simp [skipCommon, found])
    | some pair => exact .inr ⟨more, after, pair.2, by simp [skipCommon, found], by simp [skipCommon, found], alikeMark⟩
  · have plain (text : Text) (other : ¬ ∃ more, text = '*' :: wanted :: more) :
        skipCommon wanted text string = some (text, string) := by
      unfold skipCommon
      split
      next c more =>
        have differ : c ≠ wanted := fun equal => other ⟨more, by rw [equal]⟩
        exact if_neg differ
      next => rfl
    have common' : ¬ ∃ more, wild' = '*' :: wanted :: more := by
      rintro ⟨more, rfl⟩
      obtain ⟨behind, rfl, alikeStar⟩ := Alike.mark_left alike.symm (by decide) (by decide)
      obtain ⟨after, rfl, -⟩ := alikeStar.mark_left fixed same
      exact common ⟨after, rfl⟩
    exact .inr ⟨wild, wild', string, plain wild common, plain wild' common', alike⟩

private theorem search_congr {attempt attempt' : Nat → Text → Bool × Nat} (upper : toUpper c = toUpper c')
    (same : ∀ calls string, attempt calls string = attempt' calls string) (calls : Nat) (string : Text) :
    search attempt c calls string = search attempt' c' calls string := by
  induction string generalizing calls with
  | nil => rfl
  | cons first string ih => simp only [search, upper, same, ih]

end Case

private def Blind (wild : Text) : Prop :=
  ∀ wild', Alike wild wild' → (∀ string calls, matchCall wild string calls = matchCall wild' string calls) ∧
    ∀ string calls, matchLoop wild string calls = matchLoop wild' string calls

theorem matchLoop_star (rest string : Text) (calls : Nat) : matchLoop ('*' :: rest) string calls =
    match eat (rest.dropWhile (· == '*')) string with
    | ([], _) => (true, calls)
    | (c :: more, string) =>
      if c = '*' then matchLoop (c :: more) string calls
      else search (fun calls string => matchCall more string calls) c calls string := by
  rw [matchLoop]
  split
  next found => rw [found]
  next found => rw [found]

theorem matchCall_skip (wild string : Text) (calls : Nat) : matchCall wild string calls =
    if calls > maxCalls then (false, calls + 1)
    else
      match (skipCommon '!' wild string).bind fun (nickless, rest) => skipCommon '@' nickless rest with
      | none => (false, calls + 1)
      | some (userless, rest) => matchLoop userless rest (calls + 1) := by
  rw [matchCall]
  split
  · rfl
  · split
    next missing => rw [missing, Option.bind_none]
    next person =>
      rw [person, Option.bind_some]
      split
      next missing => simp only [missing]
      next host => simp only [host]

private theorem loop_star_both {rest rest' : Text} (shorter : ∀ other : Text, other.length ≤ rest.length → Blind other)
    (alike : Alike rest rest') (string : Text) (calls : Nat) :
    matchLoop ('*' :: rest) string calls = matchLoop ('*' :: rest') string calls := by
  obtain ⟨eaten, after⟩ := eat_both (dropStars_both alike) string
  rw [matchLoop_star, matchLoop_star]
  cases found : eat (rest.dropWhile (· == '*')) string with
  | mk left string =>
    cases found' : eat (rest'.dropWhile (· == '*')) _ with
    | mk left' string' =>
      rw [found, found'] at eaten after
      obtain rfl : string = string' := after
      cases left with
      | nil =>
        obtain rfl : left' = [] := List.map_eq_nil_iff.mp eaten.symm
        rfl
      | cons c more =>
        have bound := length_of_eaten found
        obtain ⟨c', more', rfl, upper, alikeMore⟩ := eaten.cons_left
        by_cases star : c = '*'
        · subst star
          obtain rfl : c' = '*' := eq_of_toUpper (by decide) upper
          exact (shorter _ bound _ eaten).2 string calls
        · have notStar : c' ≠ '*' := by
            rintro rfl
            exact star (eq_of_toUpper (by decide) upper.symm)
          simp only [star, notStar, if_false]
          refine search_congr upper.symm (fun calls string => ?_) calls string
          refine (shorter more ?_ more' alikeMore).1 string calls
          simp only [List.length_cons] at bound
          omega

private theorem loop_plain_both {rest rest' : Text} (shorter : ∀ other : Text, other.length ≤ rest.length → Blind other)
    (plain : c ≠ '*') (upper : toUpper c' = toUpper c) (alike : Alike rest rest') (string : Text) (calls : Nat) :
    matchLoop (c :: rest) string calls = matchLoop (c' :: rest') string calls := by
  have plain' : c' ≠ '*' := by
    rintro rfl
    exact plain (eq_of_toUpper (by decide) upper.symm)
  have question : c ≠ '?' ↔ c' ≠ '?' := by
    constructor
    · rintro other rfl
      exact other (eq_of_toUpper (by decide) upper.symm)
    · rintro other rfl
      exact other (eq_of_toUpper (by decide) upper)
  cases string with
  | nil =>
    rw [matchLoop, matchLoop]
    · exact fun same => plain' same
    · exact fun same => plain same
  | cons first string =>
    have next := (shorter rest (Nat.le_refl _) rest' alike).2 string calls
    rw [matchLoop, matchLoop]
    · simp only [question, upper, next]
    · exact fun same => absurd same plain'
    · exact fun same => absurd same plain

private theorem loop_both {wild wild' : Text} (shorter : ∀ other : Text, other.length < wild.length → Blind other)
    (alike : Alike wild wild') (string : Text) (calls : Nat) :
    matchLoop wild string calls = matchLoop wild' string calls := by
  cases wild with
  | nil =>
    obtain rfl : wild' = [] := List.map_eq_nil_iff.mp alike.symm
    rfl
  | cons c rest =>
    have less (other : Text) (bound : other.length ≤ rest.length) : Blind other := shorter other (Nat.lt_succ_of_le bound)
    obtain ⟨c', rest', rfl, upper, alike'⟩ := alike.cons_left
    by_cases star : c = '*'
    · subst star
      obtain rfl : c' = '*' := eq_of_toUpper (by decide) upper
      exact loop_star_both less alike' string calls
    · exact loop_plain_both less star upper alike' string calls

private theorem blind (wild : Text) : Blind wild := by
  generalize size : wild.length = n
  induction n using Nat.strongRecOn generalizing wild with
  | ind n ih =>
    subst size
    intro wild' alike
    refine ⟨fun string calls => ?_, loop_both (fun other less => ih other.length less other rfl) alike⟩
    have shorter (other : Text) (less : other.length < wild.length) : Blind other := ih other.length less other rfl
    rw [matchCall_skip, matchCall_skip]
    rcases skipCommon_both alike (by decide : ¬ '!'.isUpper) (by decide) string with
      ⟨missing, missing'⟩ | ⟨nickless, nickless', rest, person, person', alikeNick⟩
    · rw [missing, missing']
    · have lessNick := length_skipCommon_le person
      rw [person, person', Option.bind_some, Option.bind_some]
      rcases skipCommon_both alikeNick (by decide : ¬ '@'.isUpper) (by decide) rest with
        ⟨missing, missing'⟩ | ⟨userless, userless', after, host, host', alikeUser⟩
      · simp only [missing, missing']
      · have lessUser := length_skipCommon_le host
        simp only [host, host']
        rw [loop_both (fun other less => shorter other (by omega)) alikeUser after (calls + 1)]

/-- Masks that differ in case match the same texts. -/
theorem matchMask_congr (same : mycmp wild wild' = true) (string : Text) :
    matchMask wild string = matchMask wild' string := by
  rw [matchMask, matchMask, (blind wild wild' (mycmp_iff.mp same)).1]

section Subject

variable {string string' : Text}

private theorem eat_subject (alike : Alike string string') (wild : Text) :
    (eat wild string).1 = (eat wild string').1 ∧ Alike (eat wild string).2 (eat wild string').2 := by
  fun_induction eat wild string generalizing string' with
  | case1 wild c string ih =>
    obtain ⟨first, others, rfl, -, alike'⟩ := alike.cons_left
    simpa [eat] using ih alike'
  | case2 wild string other =>
    have same : eat wild string' = (wild, string') := by
      unfold eat
      split
      next wild' c more =>
        obtain ⟨first, rest, rfl, -, -⟩ := Alike.cons_left alike.symm
        exact (other wild' first rest rfl rfl).elim
      next => rfl
    rw [same]
    exact ⟨rfl, alike⟩

private theorem splitFirst_cons (wanted c : Char) (text : Text) : splitFirst wanted (c :: text) =
    if c = wanted then some ([], text) else (splitFirst wanted text).map fun (before, after) => (c :: before, after) := by
  by_cases here : c = wanted
  · simp [splitFirst, here]
  · by_cases member : wanted ∈ text
    · simp [splitFirst, member, here]
    · simp [splitFirst, member, here, Ne.symm here]

private theorem splitFirst_subject (alike : Alike string string') (fixed : ¬ wanted.isUpper)
    (same : toUpper wanted = wanted) :
    (splitFirst wanted string = none ∧ splitFirst wanted string' = none) ∨
      ∃ pair pair', splitFirst wanted string = some pair ∧ splitFirst wanted string' = some pair' ∧ Alike pair.2 pair'.2 := by
  induction string generalizing string' with
  | nil =>
    obtain rfl : string' = [] := List.map_eq_nil_iff.mp alike.symm
    exact .inl (by simp [splitFirst])
  | cons c string ih =>
    obtain ⟨first, others, rfl, upper, alike'⟩ := alike.cons_left
    rw [splitFirst_cons, splitFirst_cons]
    by_cases here : c = wanted
    · subst here
      obtain rfl : first = c := eq_of_toUpper fixed (upper.trans same)
      exact .inr ⟨([], string), ([], others), if_pos rfl, if_pos rfl, alike'⟩
    · have there : first ≠ wanted := by
        rintro rfl
        exact here (eq_of_toUpper fixed (upper.symm.trans same))
      rw [if_neg here, if_neg there]
      rcases ih alike' with ⟨missing, missing'⟩ | ⟨pair, pair', found, found', after⟩
      · exact .inl (by simp [missing, missing'])
      · exact .inr ⟨(c :: pair.1, pair.2), (first :: pair'.1, pair'.2), by simp [found], by simp [found'], after⟩

private theorem skipCommon_subject (alike : Alike string string') (fixed : ¬ wanted.isUpper)
    (same : toUpper wanted = wanted) (wild : Text) :
    (skipCommon wanted wild string = none ∧ skipCommon wanted wild string' = none) ∨
      ∃ left after after', skipCommon wanted wild string = some (left, after) ∧
        skipCommon wanted wild string' = some (left, after') ∧ Alike after after' := by
  unfold skipCommon
  split
  next c rest =>
    split
    · rcases splitFirst_subject alike fixed same with ⟨missing, missing'⟩ | ⟨pair, pair', found, found', after⟩
      · exact .inl (by simp [missing, missing'])
      · exact .inr ⟨rest, pair.2, pair'.2, by simp [found], by simp [found'], after⟩
    · exact .inr ⟨_, string, string', rfl, rfl, alike⟩
  next => exact .inr ⟨_, string, string', rfl, rfl, alike⟩

private theorem search_subject {attempt : Nat → Text → Bool × Nat}
    (same : ∀ calls first second, Alike first second → attempt calls first = attempt calls second)
    (alike : Alike string string') (c : Char) (calls : Nat) :
    search attempt c calls string = search attempt c calls string' := by
  induction string generalizing string' calls with
  | nil =>
    obtain rfl : string' = [] := List.map_eq_nil_iff.mp alike.symm
    rfl
  | cons first string ih =>
    obtain ⟨first', others, rfl, upper, alike'⟩ := alike.cons_left
    simp only [search, upper, same calls string others alike', ih alike']

end Subject

/-- What the two functions make of a pattern is the same for texts that differ in case. -/
private structure CaseBlind (wild : Text) : Prop where
  call : ∀ calls first second, Alike first second → matchCall wild first calls = matchCall wild second calls
  loop : ∀ calls first second, Alike first second → matchLoop wild first calls = matchLoop wild second calls

private theorem loop_subject {wild : Text} (shorter : ∀ other : Text, other.length < wild.length → CaseBlind other)
    (calls : Nat) (alike : Alike first second) : matchLoop wild first calls = matchLoop wild second calls := by
  cases wild with
  | nil =>
    have empty : first.isEmpty = second.isEmpty := by simpa using congrArg List.isEmpty alike
    rw [matchLoop, matchLoop, empty]
  | cons c rest =>
    by_cases star : c = '*'
    · subst star
      obtain ⟨left, after⟩ := eat_subject alike (rest.dropWhile (· == '*'))
      rw [matchLoop_star, matchLoop_star]
      cases found : eat (rest.dropWhile (· == '*')) first with
      | mk eaten string =>
        cases found' : eat (rest.dropWhile (· == '*')) second with
        | mk eaten' string' =>
          rw [found, found'] at left after
          obtain rfl : eaten = eaten' := left
          have bound := length_of_eaten found
          cases eaten with
          | nil => rfl
          | cons d more =>
            simp only [List.length_cons] at bound
            by_cases again : d = '*'
            · simp only [again, if_true]
              exact (shorter _ (by simp only [List.length_cons]; omega)).loop calls _ _ after
            · simp only [again, if_false]
              exact search_subject (fun calls =>
                (shorter more (by simp only [List.length_cons]; omega)).call calls) after d calls
    · cases first with
      | nil =>
        obtain rfl : second = [] := List.map_eq_nil_iff.mp alike.symm
        rfl
      | cons head first =>
        obtain ⟨head', others, rfl, upper, alike'⟩ := alike.cons_left
        have next := (shorter rest (by simp)).loop calls _ _ alike'
        rw [matchLoop, matchLoop]
        · simp only [upper, next]
        · exact fun same => absurd same star
        · exact fun same => absurd same star

private theorem caseBlind (wild : Text) : CaseBlind wild := by
  generalize size : wild.length = n
  induction n using Nat.strongRecOn generalizing wild with
  | ind n ih =>
    subst size
    have shorter (other : Text) (less : other.length < wild.length) : CaseBlind other := ih other.length less other rfl
    refine ⟨fun calls first second alike => ?_, fun calls first second => loop_subject shorter calls⟩
    rw [matchCall_skip, matchCall_skip]
    rcases skipCommon_subject alike (by decide : ¬ '!'.isUpper) (by decide) wild with
      ⟨missing, missing'⟩ | ⟨nickless, rest, rest', person, person', alikeRest⟩
    · rw [missing, missing']
    · have lessNick := length_skipCommon_le person
      rw [person, person', Option.bind_some, Option.bind_some]
      rcases skipCommon_subject alikeRest (by decide : ¬ '@'.isUpper) (by decide) nickless with
        ⟨missing, missing'⟩ | ⟨userless, after, after', host, host', alikeAfter⟩
      · simp only [missing, missing']
      · have lessUser := length_skipCommon_le host
        simp only [host, host']
        rw [loop_subject (fun other less => shorter other (by omega)) (calls + 1) alikeAfter]

/-- Texts that differ in case match the same masks. -/
theorem matchMask_congr_right (wild : Text) (same : mycmp first second = true) :
    matchMask wild first = matchMask wild second := by
  rw [matchMask, matchMask, (caseBlind wild).call 0 first second (mycmp_iff.mp same)]

end SolidIrcd.Mask
