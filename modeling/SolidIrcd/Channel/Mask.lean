import SolidIrcd.Common

/-! Masks of the ban, exempt and invite lists: `pretty_mask` and
`make_nick_user_host` of `channel.c`, `collapse` and `match` of `match.c`. -/

namespace SolidIrcd.Mask

open Scan (Text)

/-- `check_string`: the text up to its first white space, or a star. -/
def checkString (text : Option Text) : Text :=
  let fixed := (text.getD []).takeWhile fun c => !isSpace c
  if fixed = [] then ['*'] else fixed

def makeNickUserHost (nick name host : Option Text) : Text :=
  (checkString nick).take nickLen ++ '!' :: (checkString name).take userLen ++
    '@' :: (checkString host).take hostLen

/-- `strchr`: what stands before and after the first occurrence. -/
def splitFirst (wanted : Char) (text : Text) : Option (Text × Text) :=
  if wanted ∈ text then
    some (text.takeWhile (· != wanted), (text.dropWhile (· != wanted)).drop 1)
  else none

/-- `strrchr`: what stands before and after the last occurrence. -/
def splitLast (wanted : Char) (text : Text) : Option (Text × Text) :=
  (splitFirst wanted text.reverse).map fun (after, before) => (before.reverse, after.reverse)

def prettyMask (mask : Text) : Text :=
  match splitFirst '!' mask with
  | some (cp, rest) =>
    match splitLast '@' rest with
    | some (user, host) => makeNickUserHost (some cp) (some user) (some host)
    | none => makeNickUserHost (some cp) (some rest) none
  | none =>
    match splitLast '@' mask with
    | some (user, host) => makeNickUserHost none (some user) (some host)
    | none =>
      if '.' ∈ mask then makeNickUserHost none none (some mask)
      else makeNickUserHost (some mask) none none

def isWild (c : Char) : Bool := c == '*' || c == '?'

/-- What `collapse` leaves behind a star: a run of stars goes, and of a run that
starts with a question mark only the question marks stay. -/
def squeeze : Text → Text
  | '*' :: rest => rest.dropWhile (· == '*')
  | '?' :: rest => '?' :: ((rest.takeWhile isWild).filter (· == '?') ++ rest.dropWhile isWild)
  | text => text

theorem length_squeeze_le (text : Text) : (squeeze text).length ≤ text.length := by
  unfold squeeze
  split
  next rest =>
    have shorter := (List.dropWhile_sublist (fun c : Char => c == '*') (l := rest)).length_le
    simp only [List.length_cons]
    omega
  next rest =>
    have fewer := List.length_filter_le (fun c : Char => c == '?') (rest.takeWhile isWild)
    have whole := congrArg List.length (List.takeWhile_append_dropWhile (p := isWild) (l := rest))
    simp only [List.length_append, List.length_cons] at whole ⊢
    omega
  next => exact Nat.le_refl _

/-- `collapse`; behind a star it goes on with what it has just moved up, without
looking at that star again. -/
def collapse : Text → Text
  | [] => []
  | ['\\'] => ['\\']
  | '\\' :: c :: rest => '\\' :: c :: collapse rest
  | '*' :: rest => '*' :: collapse (squeeze rest)
  | c :: rest => c :: collapse rest
termination_by text => text.length
decreasing_by
  · simp only [List.length_cons]
    omega
  · have shorter := length_squeeze_le rest
    simp only [List.length_cons]
    omega
  · simp only [List.length_cons]
    omega

/-- The mask a list stores for a parameter of MODE. -/
def canonical (mask : Text) : Text := collapse (prettyMask mask)

def maxCalls : Nat := 512

/-- `while (*wild == '?' && *string)`. -/
def eat : Text → Text → Text × Text
  | '?' :: wild, _ :: string => eat wild string
  | wild, string => (wild, string)

/-- The shortcuts for a pattern that starts with `*!` or `*@`. -/
def skipCommon (wanted : Char) (wild string : Text) : Option (Text × Text) :=
  match wild with
  | '*' :: c :: rest =>
    if c = wanted then (splitFirst wanted string).map fun (_, after) => (rest, after)
    else some (wild, string)
  | _ => some (wild, string)

/-- The inner loop of `_match`: every place where the character behind the star
occurs is tried. -/
def search (attempt : Nat → Text → Bool × Nat) (c : Char) : Nat → Text → Bool × Nat
  | calls, [] => (false, calls)
  | calls, first :: string =>
    if toUpper first = toUpper c then
      let (found, calls) := attempt calls string
      if found then (true, calls) else search attempt c calls string
    else search attempt c calls string

theorem length_eat_le (wild string : Text) : (eat wild string).1.length ≤ wild.length := by
  fun_induction eat wild string with
  | case1 wild _ string ih =>
    simp only [List.length_cons]
    omega
  | case2 wild string => exact Nat.le_refl _

theorem length_skipCommon_le (skipped : skipCommon wanted wild string = some (rest, after)) :
    rest.length ≤ wild.length := by
  unfold skipCommon at skipped
  split at skipped
  next c more =>
    split at skipped
    · obtain ⟨⟨before, found⟩, -, same⟩ := Option.map_eq_some_iff.mp skipped
      simp only [Prod.mk.injEq] at same
      simp only [← same.1, List.length_cons]
      omega
    · simp only [Option.some.injEq, Prod.mk.injEq] at skipped
      simp [← skipped.1]
  next =>
    simp only [Option.some.injEq, Prod.mk.injEq] at skipped
    simp [← skipped.1]

theorem length_of_eaten {rest : Text} (eaten : eat (rest.dropWhile (· == '*')) string = (more, after)) :
    more.length ≤ rest.length := by
  have shorter := length_eat_le (rest.dropWhile (· == '*')) string
  have sublist := (List.dropWhile_sublist (fun c : Char => c == '*') (l := rest)).length_le
  rw [eaten] at shorter
  exact Nat.le_trans shorter sublist

mutual

/-- `_match`; the second component is the static counter `calls`, which makes it
give up, and the first is true where the source returns zero. -/
def matchCall (wild string : Text) (calls : Nat) : Bool × Nat :=
  if calls > maxCalls then (false, calls + 1)
  else
    match _person : skipCommon '!' wild string with
    | none => (false, calls + 1)
    | some (nickless, rest) =>
      match _host : skipCommon '@' nickless rest with
      | none => (false, calls + 1)
      | some (userless, rest) => matchLoop userless rest (calls + 1)
termination_by (wild.length, 1)
decreasing_by
  have person := length_skipCommon_le _person
  have host := length_skipCommon_le _host
  simp only [Prod.lex_def]
  omega

/-- The `while (1)` of `_match`. -/
def matchLoop (wild string : Text) (calls : Nat) : Bool × Nat :=
  match wild, string with
  | [], string => (string.isEmpty, calls)
  | '*' :: rest, string =>
    match _eaten : eat (rest.dropWhile (· == '*')) string with
    | ([], _) => (true, calls)
    | (c :: more, string) =>
      if c = '*' then matchLoop (c :: more) string calls
      else search (fun calls string => matchCall more string calls) c calls string
  | _ :: _, [] => (false, calls)
  | c :: rest, first :: string =>
    if c ≠ '?' ∧ toUpper first ≠ toUpper c then (false, calls)
    else matchLoop rest string calls
termination_by (wild.length, 0)
decreasing_by
  · have shorter := length_of_eaten _eaten
    simp only [Prod.lex_def, List.length_cons] at shorter ⊢
    omega
  · have shorter := length_of_eaten _eaten
    simp only [Prod.lex_def, List.length_cons] at shorter ⊢
    omega
  · simp only [Prod.lex_def, List.length_cons]
    omega

end

/-- `match` returns zero. -/
def matchMask (wild string : Text) : Bool := (matchCall wild string 0).1

theorem mem_of_mem_squeeze (member : c ∈ squeeze text) : c ∈ text := by
  unfold squeeze at member
  split at member
  next rest => exact List.mem_cons_of_mem _ ((List.dropWhile_sublist _).subset member)
  next rest =>
    obtain first | later := List.mem_cons.mp member
    · exact first ▸ List.mem_cons_self ..
    · refine List.mem_cons_of_mem _ ?_
      obtain kept | behind := List.mem_append.mp later
      · exact (List.takeWhile_sublist _).subset (List.mem_of_mem_filter kept)
      · exact (List.dropWhile_sublist _).subset behind
  next => exact member

/-- `collapse` only ever drops characters. -/
theorem mem_of_mem_collapse (member : c ∈ collapse text) : c ∈ text := by
  fun_induction collapse text with
  | case1 => exact member
  | case2 => exact member
  | case3 next rest ih =>
    simp only [List.mem_cons] at member ⊢
    obtain slash | escaped | later := member
    · exact .inl slash
    · exact .inr (.inl escaped)
    · exact .inr (.inr (ih later))
  | case4 rest ih =>
    obtain star | later := List.mem_cons.mp member
    · exact star ▸ List.mem_cons_self ..
    · exact List.mem_cons_of_mem _ (mem_of_mem_squeeze (ih later))
  | case5 first rest _ _ _ ih =>
    obtain same | later := List.mem_cons.mp member
    · exact same ▸ List.mem_cons_self ..
    · exact List.mem_cons_of_mem _ (ih later)

private theorem filter_eq_of_length {keep : α → Bool} {l : List α}
    (whole : (l.filter keep).length = l.length) : l.filter keep = l :=
  List.filter_sublist.eq_of_length whole

private theorem squeeze_eq_or_shorter (text : Text) :
    squeeze text = text ∨ (squeeze text).length < text.length := by
  unfold squeeze
  split
  next rest =>
    have shorter := (List.dropWhile_sublist (fun c : Char => c == '*') (l := rest)).length_le
    refine .inr ?_
    simp only [List.length_cons]
    omega
  next rest =>
    have fewer := List.length_filter_le (fun c : Char => c == '?') (rest.takeWhile isWild)
    have whole := congrArg List.length (List.takeWhile_append_dropWhile (p := isWild) (l := rest))
    simp only [List.length_append] at whole
    by_cases same : ((rest.takeWhile isWild).filter (· == '?')).length = (rest.takeWhile isWild).length
    · refine .inl ?_
      rw [filter_eq_of_length same, List.takeWhile_append_dropWhile]
    · refine .inr ?_
      simp only [List.length_cons, List.length_append]
      omega
  next => exact .inl rfl

/-- A mask that `collapse` changes gets shorter. -/
theorem collapse_eq_or_shorter (text : Text) :
    collapse text = text ∨ (collapse text).length < text.length := by
  fun_induction collapse text with
  | case1 => exact .inl rfl
  | case2 => exact .inl rfl
  | case3 next rest ih =>
    obtain same | shorter := ih
    · exact .inl (by rw [same])
    · exact .inr (by simp only [List.length_cons]; omega)
  | case4 rest ih =>
    obtain kept | squeezed := squeeze_eq_or_shorter rest
    · rw [kept] at ih ⊢
      obtain same | shorter := ih
      · exact .inl (by rw [same])
      · exact .inr (by simp only [List.length_cons]; omega)
    · refine .inr ?_
      simp only [List.length_cons]
      obtain same | shorter := ih
      · rw [same]
        omega
      · omega
  | case5 first rest _ _ _ ih =>
    obtain same | shorter := ih
    · exact .inl (by rw [same])
    · exact .inr (by simp only [List.length_cons]; omega)

theorem length_collapse_le (text : Text) : (collapse text).length ≤ text.length := by
  obtain same | shorter := collapse_eq_or_shorter text
  · rw [same]
  · exact Nat.le_of_lt shorter

theorem collapse_ne_nil (nonempty : text ≠ []) : collapse text ≠ [] := by
  fun_cases collapse text with
  | case1 => exact absurd rfl nonempty
  | case2 => simp
  | case3 => simp
  | case4 => simp
  | case5 => simp

/-- The three parts of a mask, such that it splits at the right places again. -/
structure Parts (nick user host : Text) : Prop where
  nickSome : nick ≠ []
  userSome : user ≠ []
  hostSome : host ≠ []
  nickShort : nick.length ≤ nickLen
  userShort : user.length ≤ userLen
  hostShort : host.length ≤ hostLen
  nickBang : '!' ∉ nick
  hostAt : '@' ∉ host
  solid : ∀ c ∈ nick ++ user ++ host, isSpace c = false

def joinParts (nick user host : Text) : Text := nick ++ '!' :: user ++ '@' :: host

theorem checkString_ne_nil (text : Option Text) : checkString text ≠ [] := by
  simp only [checkString]
  split
  · simp
  · assumption

theorem checkString_solid (member : c ∈ checkString text) : isSpace c = false := by
  simp only [checkString] at member
  split at member
  · obtain rfl : c = '*' := by simpa using member
    decide
  · simpa using List.mem_takeWhile_imp member

theorem checkString_mem (member : c ∈ checkString text) : c = '*' ∨ c ∈ text.getD [] := by
  simp only [checkString] at member
  split at member
  · exact .inl (by simpa using member)
  · exact .inr ((List.takeWhile_sublist _).subset member)

theorem checkString_self (nonempty : text ≠ []) (solid : ∀ c ∈ text, isSpace c = false) :
    checkString (some text) = text := by
  have whole : text.takeWhile (fun c => !isSpace c) = text :=
    List.takeWhile_eq_self_iff.mpr fun c member => by simp [solid c member]
  simp [checkString, whole, nonempty]

private theorem not_mem_take_checkString (other : wanted ≠ '*') (absent : wanted ∉ text.getD []) :
    wanted ∉ (checkString text).take bound := by
  intro member
  obtain star | inside := checkString_mem (List.mem_of_mem_take member)
  · exact other star
  · exact absent inside

private theorem take_checkString_ne_nil (text : Option Text) (bound : Nat) :
    (checkString text).take (bound + 1) ≠ [] := by
  simp [List.take_eq_nil_iff, checkString_ne_nil]

/-- The fields of what `make_nick_user_host` builds. -/
theorem checkString_parts {nick host : Option Text} (name : Option Text)
    (nickBang : '!' ∉ nick.getD []) (hostAt : '@' ∉ host.getD []) :
    Parts ((checkString nick).take nickLen) ((checkString name).take userLen) ((checkString host).take hostLen) where
  nickSome := take_checkString_ne_nil nick _
  userSome := take_checkString_ne_nil name _
  hostSome := take_checkString_ne_nil host _
  nickShort := List.length_take_le ..
  userShort := List.length_take_le ..
  hostShort := List.length_take_le ..
  nickBang := not_mem_take_checkString (by decide) nickBang
  hostAt := not_mem_take_checkString (by decide) hostAt
  solid := by
    intro c member
    simp only [List.mem_append] at member
    obtain (inNick | inName) | inHost := member
    · exact checkString_solid (List.mem_of_mem_take inNick)
    · exact checkString_solid (List.mem_of_mem_take inName)
    · exact checkString_solid (List.mem_of_mem_take inHost)

theorem splitFirst_before (found : splitFirst wanted text = some (before, after)) : wanted ∉ before := by
  unfold splitFirst at found
  split at found
  · obtain ⟨rfl, rfl⟩ : _ = before ∧ _ = after := by simpa using found
    intro member
    simpa using List.mem_takeWhile_imp member
  · cases found

theorem splitFirst_none (missing : splitFirst wanted text = none) : wanted ∉ text := by
  unfold splitFirst at missing
  split at missing
  · cases missing
  · assumption

theorem splitFirst_join (absent : wanted ∉ before) :
    splitFirst wanted (before ++ wanted :: after) = some (before, after) := by
  have stays : ∀ c ∈ before, (c != wanted) = true := fun c member => bne_iff_ne.mpr fun same => absent (same ▸ member)
  simp [splitFirst, List.takeWhile_append_of_pos stays, List.dropWhile_append_of_pos stays]

theorem splitFirst_text (found : splitFirst wanted text = some (before, after)) : before ++ wanted :: after = text := by
  have member : wanted ∈ text := by
    unfold splitFirst at found
    split at found
    · assumption
    · cases found
  obtain ⟨front, rest, rfl, absent⟩ := List.eq_append_cons_of_mem member
  obtain ⟨rfl, rfl⟩ : front = before ∧ rest = after := by simpa [splitFirst_join absent] using found
  rfl

theorem splitLast_after (found : splitLast wanted text = some (before, after)) : wanted ∉ after := by
  obtain ⟨⟨first, second⟩, split, same⟩ := Option.map_eq_some_iff.mp found
  obtain ⟨rfl, rfl⟩ : second.reverse = before ∧ first.reverse = after := by simpa using same
  simpa using splitFirst_before split

theorem splitLast_none (missing : splitLast wanted text = none) : wanted ∉ text := by
  have reversed := splitFirst_none (Option.map_eq_none_iff.mp missing)
  simpa using reversed

theorem splitLast_join (absent : wanted ∉ after) :
    splitLast wanted (before ++ wanted :: after) = some (before, after) := by
  have reversed : (before ++ wanted :: after).reverse = after.reverse ++ wanted :: before.reverse := by simp
  rw [splitLast, reversed, splitFirst_join (by simpa using absent)]
  simp

/-- The three fields of a mask: cut at the first `!` and the last `@`, at white space and
at their longest. -/
def fields (mask : Text) : Text × Text × Text :=
  let cut (nick user host : Option Text) :=
    ((checkString nick).take nickLen, (checkString user).take userLen, (checkString host).take hostLen)
  match splitFirst '!' mask with
  | some (nick, rest) =>
    match splitLast '@' rest with
    | some (user, host) => cut (some nick) (some user) (some host)
    | none => cut (some nick) (some rest) none
  | none =>
    match splitLast '@' mask with
    | some (user, host) => cut none (some user) (some host)
    | none => if '.' ∈ mask then cut none none (some mask) else cut (some mask) none none

theorem prettyMask_fields (mask : Text) :
    prettyMask mask = joinParts (fields mask).1 (fields mask).2.1 (fields mask).2.2 := by
  unfold prettyMask fields
  split
  · split <;> rfl
  · split
    · rfl
    · split <;> rfl

theorem fields_parts (mask : Text) : Parts (fields mask).1 (fields mask).2.1 (fields mask).2.2 := by
  unfold fields
  split
  next cp rest split =>
    have nickBang := splitFirst_before split
    split
    next user host found => exact checkString_parts _ nickBang (splitLast_after found)
    next => exact checkString_parts _ nickBang (by simp)
  next missing =>
    split
    next user host found => exact checkString_parts _ (by simp) (splitLast_after found)
    next missingAt =>
      split
      · exact checkString_parts _ (by simp) (splitLast_none missingAt)
      · exact checkString_parts _ (splitFirst_none missing) (by simp)

theorem prettyMask_parts (mask : Text) : ∃ a b d, Parts a b d ∧ prettyMask mask = joinParts a b d :=
  ⟨_, _, _, fields_parts mask, prettyMask_fields mask⟩

/-- A mask in three parts is as pretty as it gets. -/
theorem prettyMask_join (parts : Parts nick user host) :
    prettyMask (joinParts nick user host) = joinParts nick user host := by
  have first : splitFirst '!' (joinParts nick user host) = some (nick, user ++ '@' :: host) := by
    rw [joinParts, List.append_assoc, List.cons_append]
    exact splitFirst_join parts.nickBang
  have last : splitLast '@' (user ++ '@' :: host) = some (user, host) := splitLast_join parts.hostAt
  have solid := parts.solid
  simp only [List.mem_append] at solid
  have nickSelf := checkString_self parts.nickSome fun c member => solid c (.inl (.inl member))
  have userSelf := checkString_self parts.userSome fun c member => solid c (.inl (.inr member))
  have hostSelf := checkString_self parts.hostSome fun c member => solid c (.inr member)
  simp only [prettyMask, first, last, makeNickUserHost, nickSelf, userSelf, hostSelf,
    List.take_of_length_le parts.nickShort, List.take_of_length_le parts.userShort,
    List.take_of_length_le parts.hostShort]
  rfl

private theorem takeWhile_append_stop {keep : Char → Bool} (stop : keep c = false) (text rest : Text) :
    (text ++ c :: rest).takeWhile keep = text.takeWhile keep := by
  induction text with
  | nil => simp [stop]
  | cons first others ih => by_cases kept : keep first <;> simp [kept, ih]

private theorem dropWhile_append_stop (keep : Char → Bool) (stop : keep c = false) (text rest : Text) :
    (text ++ c :: rest).dropWhile keep = text.dropWhile keep ++ c :: rest := by
  induction text with
  | nil => simp [stop]
  | cons first others ih => by_cases kept : keep first <;> simp [kept, ih]

theorem squeeze_plain (notStar : c ≠ '*') (notMark : c ≠ '?') (rest : Text) :
    squeeze (c :: rest) = c :: rest := by
  rw [squeeze]
  · rintro others same
    exact notStar (List.cons.inj same).1
  · rintro others same
    exact notMark (List.cons.inj same).1

private theorem squeeze_append (stop : isWild c = false) (text rest : Text) :
    squeeze (text ++ c :: rest) = squeeze text ++ c :: rest := by
  have notStar : (c == '*') = false := (Bool.or_eq_false_iff.mp stop).1
  have notMark : (c == '?') = false := (Bool.or_eq_false_iff.mp stop).2
  cases text with
  | nil => exact squeeze_plain (by simpa using notStar) (by simpa using notMark) rest
  | cons first others =>
    by_cases isStar : first = '*'
    · subst isStar
      exact dropWhile_append_stop (fun next => next == '*') notStar others rest
    · by_cases isMark : first = '?'
      · subst isMark
        simp only [List.cons_append, squeeze, takeWhile_append_stop stop, dropWhile_append_stop _ stop,
          List.append_assoc]
      · rw [List.cons_append, squeeze_plain isStar isMark, squeeze_plain isStar isMark, List.cons_append]

theorem collapse_plain (plain : c ≠ '\\') (notStar : c ≠ '*') (rest : Text) :
    collapse (c :: rest) = c :: collapse rest := by
  rw [collapse]
  · rintro rfl rfl
    exact plain rfl
  · rintro next others rfl
    exact absurd rfl plain
  · exact notStar

/-- A character that is no wild card and no escape separates what `collapse` does. -/
theorem collapse_append (stop : isWild c = false) (plain : c ≠ '\\') (text rest : Text) :
    collapse (text ++ c :: rest) = collapse text ++ c :: collapse rest := by
  have notStar : c ≠ '*' := fun same => by simp [same, isWild] at stop
  fun_induction collapse text with
  | case1 => exact collapse_plain plain notStar rest
  | case2 => simp [collapse]
  | case3 next others ih => simp only [List.cons_append, collapse, ih]
  | case4 others ih => simp only [List.cons_append, collapse, squeeze_append stop, ih]
  | case5 first others single escaped star ih =>
    have plainFirst : first ≠ '\\' := by
      rintro rfl
      cases others with
      | nil => exact single rfl rfl
      | cons next more => exact escaped next more rfl rfl
    rw [List.cons_append, collapse_plain plainFirst star, ih, List.cons_append]

theorem Parts.collapse (parts : Parts nick user host) :
    Parts (Mask.collapse nick) (Mask.collapse user) (Mask.collapse host) where
  nickSome := collapse_ne_nil parts.nickSome
  userSome := collapse_ne_nil parts.userSome
  hostSome := collapse_ne_nil parts.hostSome
  nickShort := Nat.le_trans (length_collapse_le nick) parts.nickShort
  userShort := Nat.le_trans (length_collapse_le user) parts.userShort
  hostShort := Nat.le_trans (length_collapse_le host) parts.hostShort
  nickBang := fun member => parts.nickBang (mem_of_mem_collapse member)
  hostAt := fun member => parts.hostAt (mem_of_mem_collapse member)
  solid := by
    intro c member
    apply parts.solid
    simp only [List.mem_append] at member ⊢
    exact member.imp (Or.imp mem_of_mem_collapse mem_of_mem_collapse) mem_of_mem_collapse

theorem collapse_joinParts (nick user host : Text) :
    collapse (joinParts nick user host) = joinParts (collapse nick) (collapse user) (collapse host) := by
  rw [joinParts, List.append_assoc, List.cons_append, collapse_append (by decide) (by decide),
    collapse_append (by decide) (by decide)]
  simp [joinParts]

/-- Every mask a list stores is pretty already; what a second pass may still
change is what `collapse` does to it. -/
theorem prettyMask_canonical (mask : Text) : prettyMask (canonical mask) = canonical mask := by
  rw [canonical, prettyMask_fields mask, collapse_joinParts, prettyMask_join (fields_parts mask).collapse]

theorem length_joinParts (parts : Parts nick user host) :
    (joinParts nick user host).length ≤ nickLen + userLen + hostLen + 2 := by
  have short := parts.nickShort
  have short' := parts.userShort
  have short'' := parts.hostShort
  simp only [joinParts, List.length_append, List.length_cons]
  omega

theorem length_prettyMask_le (mask : Text) : (prettyMask mask).length ≤ nickLen + userLen + hostLen + 2 := by
  obtain ⟨nick, user, host, parts, pretty⟩ := prettyMask_parts mask
  rw [pretty]
  exact length_joinParts parts

theorem prettyMask_ne_nil (mask : Text) : prettyMask mask ≠ [] := by
  obtain ⟨nick, user, host, -, pretty⟩ := prettyMask_parts mask
  simp [pretty, joinParts]

theorem head_collapse (text : Text) : (collapse text).head? = text.head? := by
  unfold collapse
  split <;> rfl

theorem head_checkString (head : (checkString text).head? = some ':') : (text.getD []).head? = some ':' := by
  unfold checkString at head
  simp only at head
  split at head
  · simp at head
  · cases given : text.getD [] with
    | nil => simp [given] at head
    | cons c rest =>
      rw [given, List.takeWhile_cons] at head
      split at head
      · simpa using head
      · simp at head

private theorem head_nuh (head : (makeNickUserHost nick name host).head? = some ':') :
    (nick.getD []).head? = some ':' := by
  obtain ⟨c, others, split⟩ := List.exists_cons_of_ne_nil (checkString_ne_nil nick)
  apply head_checkString
  simpa [makeNickUserHost, split, nickLen] using head

/-- Only a mask that starts with a colon is stored as one that does. -/
theorem head_canonical (head : (canonical mask).head? = some ':') : mask.head? = some ':' := by
  rw [canonical, head_collapse] at head
  unfold prettyMask at head
  split at head
  next cp rest found =>
    have before : cp.head? = some ':' := by
      split at head <;> exact head_nuh head
    have prefixed : cp = mask.takeWhile (· != '!') := by
      unfold splitFirst at found
      split at found
      · simp only [Option.some.injEq, Prod.mk.injEq] at found
        exact found.1.symm
      · cases found
    cases mask with
    | nil => simp [prefixed] at before
    | cons c others =>
      rw [prefixed, List.takeWhile_cons] at before
      split at before
      · simpa using before
      · simp at before
  next =>
    split at head
    · exact absurd (head_nuh head) (by simp)
    · split at head
      · exact absurd (head_nuh head) (by simp)
      · exact head_nuh head

theorem prettyMask_solid (mask : Text) : ' ' ∉ prettyMask mask := by
  obtain ⟨nick, user, host, parts, pretty⟩ := prettyMask_parts mask
  intro member
  have solid := parts.solid ' '
  simp only [pretty, joinParts, List.mem_append, List.mem_cons] at member solid
  have space : isSpace ' ' = false := by
    apply solid
    obtain (inNick | bang | inUser) | at_ | inHost := member
    · exact .inl (.inl inNick)
    · exact absurd bang (by decide)
    · exact .inl (.inr inUser)
    · exact absurd at_ (by decide)
    · exact .inr inHost
  exact absurd space (by decide)

end SolidIrcd.Mask
