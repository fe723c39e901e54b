import SolidIrcd.User.Privilege

/-! What a mode string asks of one mode, of a `MODE` and of an `SVSMODE`. -/

namespace SolidIrcd.Umode

open Scan (Text)

/-- The sign before the last place of the string that names the letter. -/
def lastSign (letter : Char) : Change → Text → Option Change
  | _, [] => none
  | what, c :: rest =>
    if c = '+' then lastSign letter .add rest
    else if c = '-' then lastSign letter .del rest
    else (lastSign letter what rest).or (if c = letter then some what else none)

/-- The string names the letter behind a minus. -/
def takes (letter : Char) : Change → Text → Bool
  | _, [] => false
  | what, c :: rest =>
    if c = '+' then takes letter .add rest
    else if c = '-' then takes letter .del rest
    else (c = letter ∧ what = .del) ∨ takes letter what rest

/-- `m_umode` skips the letter. -/
def Skips (build : Build) (flag : UMode) : Prop :=
  flag = .r ∨ flag = .x ∨ flag = .X ∨ (flag = .z ∧ build.haveSsl = true) ∨ lookupUmode build flag.letter ≠ some flag

instance (build : Build) (flag : UMode) : Decidable (Skips build flag) := by
  unfold Skips
  infer_instance

/-- What the string of a remote user's `MODE` makes of a mode, where it makes anything of it. -/
def umodeAsks (build : Build) (letters : Text) (flag : UMode) : Option Bool :=
  if Skips build flag then none else (lastSign flag.letter .add letters).map (· == .add)

/-- What the string of an `SVSMODE` makes of a mode. -/
def svsmodeAsks (build : Build) (letters : Text) (flag : UMode) : Option Bool :=
  if flag = .d ∨ lookupUmode build flag.letter ≠ some flag then none
  else if flag = .o ∨ flag = .O then (if takes flag.letter .add letters then some false else none)
  else (lastSign flag.letter .add letters).map (· == .add)

section

variable {build : Build} {flag : UMode}

theorem letter_solid (flag : UMode) : flag.letter ≠ '+' ∧ flag.letter ≠ '-' ∧ flag.letter ≠ ' ' ∧
    flag.letter ≠ '\r' ∧ flag.letter ≠ '\n' ∧ flag.letter ≠ '\t' ∧ flag.letter ≠ 'T' := by
  cases flag <;> simp [UMode.letter]

theorem letter_services (flag : UMode) : (flag.letter = 'r' ↔ flag = .r) ∧ (flag.letter = 'x' ↔ flag = .x) ∧
    (flag.letter = 'X' ↔ flag = .X) ∧ (flag.letter = 'z' ↔ flag = .z) ∧ (flag.letter = 'A' ↔ flag = .A) ∧
    (flag.letter = 'd' ↔ flag = .d) := by
  cases flag <;> simp [UMode.letter]

/-- A letter sets or clears its own mode; only an `A` of a user of this server sets another one. -/
theorem mem_umodeChar (build : Build) (mine : Bool) (what : Change) (umode : UModes)
    (other : flag = .a → mine = false) (plus : c ≠ '+') (minus : c ≠ '-') :
    (umodeChar build mine (what, umode) c).1 = what ∧
      (flag ∈ (umodeChar build mine (what, umode) c).2 ↔
        if c = flag.letter ∧ ¬ Skips build flag then what = .add else flag ∈ umode) := by
  obtain ⟨_, _, space, cr, lf, tab, _⟩ := letter_solid flag
  obtain ⟨r, x, X, z, _, _⟩ := letter_services flag
  have still {c : Char} (skipped : c = flag.letter → Skips build flag) : what = what ∧
      (flag ∈ umode ↔ if c = flag.letter ∧ ¬ Skips build flag then what = .add else flag ∈ umode) := by
    rw [if_neg fun ⟨same, heard⟩ => heard (skipped same)]
    exact ⟨rfl, Iff.rfl⟩
  unfold umodeChar
  split
  · exact absurd rfl plus
  · exact absurd rfl minus
  · exact still fun same => absurd same.symm space
  · exact still fun same => absurd same.symm cr
  · exact still fun same => absurd same.symm lf
  · exact still fun same => absurd same.symm tab
  · exact still fun same => .inl (r.mp same.symm)
  · exact still fun same => .inr (.inl (x.mp same.symm))
  · exact still fun same => .inr (.inr (.inl (X.mp same.symm)))
  next notSpace notCr notLf notTab notR notx notX =>
    split
    next ssl => exact still fun same => .inr (.inr (.inr (.inl ⟨z.mp (same.symm.trans ssl.1), ssl.2⟩)))
    next ssl =>
      have admin : flag ∈ (if c = 'A' ∧ mine = true ∧ what = .add then insert UMode.a umode else umode) ↔
          flag ∈ umode := by
        split
        next own =>
          have notA : flag ≠ .a := fun same => Bool.noConfusion ((other same).symm.trans own.2.1)
          simp [notA]
        · rfl
      simp only []
      split
      next none =>
        have silent : ¬ (c = flag.letter ∧ ¬ Skips build flag) := fun ⟨named, heard⟩ =>
          heard (by simp [Skips, ← named, none])
        rw [if_neg silent]
        exact ⟨rfl, admin⟩
      next found some =>
        by_cases same : found = flag
        · subst same
          have named : c = found.letter := (lookupUmode_letter some).symm
          have heard : ¬ Skips build found := by
            rintro (isR | isX | isX' | ⟨isZ, haveSsl⟩ | unknown)
            · exact notR (named.trans (r.mpr isR))
            · exact notx (named.trans (x.mpr isX))
            · exact notX (named.trans (X.mpr isX'))
            · exact ssl ⟨named.trans (z.mpr isZ), haveSsl⟩
            · exact unknown (named ▸ some)
          have both : c = found.letter ∧ ¬ Skips build found := ⟨named, heard⟩
          rw [if_pos both]
          cases what with
          | add => simp
          | del => simp
        · have silent : ¬ (c = flag.letter ∧ ¬ Skips build flag) := fun ⟨named, heard⟩ =>
            heard (by simp [Skips, ← named, some, same])
          rw [if_neg silent]
          cases what with
          | add => exact ⟨rfl, by rw [if_pos rfl, Finset.mem_insert, admin]; simp [Ne.symm same]⟩
          | del => simp [Ne.symm same]

theorem mem_umodeChars (flag : UMode) (build : Build) (mine : Bool) (what : Change) (umode : UModes) (letters : Text)
    (other : flag = .a → mine = false) :
    flag ∈ (letters.foldl (umodeChar build mine) (what, umode)).2 ↔
      if Skips build flag then flag ∈ umode
      else lastSign flag.letter what letters = some .add ∨ (lastSign flag.letter what letters = none ∧ flag ∈ umode) := by
  induction letters generalizing what umode with
  | nil => simp [lastSign]
  | cons c letters ih =>
    rw [List.foldl_cons, lastSign]
    by_cases plus : c = '+'
    · subst plus; exact ih .add umode
    · by_cases minus : c = '-'
      · subst minus; exact ih .del umode
      · obtain ⟨sign, member⟩ := mem_umodeChar build mine what umode other plus minus
        have state : umodeChar build mine (what, umode) c = (what, (umodeChar build mine (what, umode) c).2) :=
          Prod.ext sign rfl
        rw [state, ih, member]
        simp only [plus, minus, if_false]
        by_cases skips : Skips build flag
        · simp [skips]
        · simp only [skips, if_false, not_false_eq_true, and_true]
          cases later : lastSign flag.letter what letters with
          | none => by_cases named : c = flag.letter <;> simp [named]
          | some sign => simp

theorem mem_svsmodeChar (flag : UMode) (build : Build) (what : Change) (user : User) (plus : c ≠ '+') (minus : c ≠ '-') :
    (svsmodeChar build (what, user) c).1 = what ∧
      (flag ∈ (svsmodeChar build (what, user) c).2.umode ↔
        if c = flag.letter ∧ flag ≠ .d ∧ lookupUmode build flag.letter = some flag then
          (if flag = .o ∨ flag = .O then what = .add ∧ flag ∈ user.umode else what = .add)
        else flag ∈ user.umode) := by
  obtain ⟨_, _, space, cr, lf, tab, T⟩ := letter_solid flag
  obtain ⟨_, _, _, _, _, d⟩ := letter_services flag
  have still {c : Char} (skipped : c = flag.letter → flag = .d ∨ lookupUmode build flag.letter ≠ some flag) :
      what = what ∧ (flag ∈ user.umode ↔
        if c = flag.letter ∧ flag ≠ .d ∧ lookupUmode build flag.letter = some flag then
          (if flag = .o ∨ flag = .O then what = .add ∧ flag ∈ user.umode else what = .add)
        else flag ∈ user.umode) := by
    rw [if_neg fun ⟨same, notD, known⟩ => (skipped same).elim notD (absurd known)]
    exact ⟨rfl, Iff.rfl⟩
  unfold svsmodeChar
  simp only []
  split
  · exact absurd rfl plus
  · exact absurd rfl minus
  · exact still fun same => absurd same.symm space
  · exact still fun same => absurd same.symm lf
  · exact still fun same => absurd same.symm cr
  · exact still fun same => absurd same.symm tab
  · exact still fun same => .inl (d.mp same.symm)
  · exact still fun same => absurd same.symm T
  next notD _ =>
    split
    next none => exact still fun named => .inr (by simp [← named, none])
    next found some =>
      by_cases same : found = flag
      · subst same
        have named : c = found.letter := (lookupUmode_letter some).symm
        have notD' : found ≠ .d := fun isD => notD (named.trans (d.mpr isD))
        have both : c = found.letter ∧ found ≠ .d ∧ lookupUmode build found.letter = .some found :=
          ⟨named, notD', named ▸ some⟩
        rw [if_pos both]
        cases what with
        | add => by_cases oper : found = .o ∨ found = .O <;> simp [oper]
        | del =>
          by_cases held : found ∈ user.umode
          · simp only [reduceCtorEq, if_false, if_pos held, false_and, ite_self, iff_false, true_and]
            split <;> exact Finset.notMem_erase _ _
          · simp [held]
      · have silent : ¬ (c = flag.letter ∧ flag ≠ .d ∧ lookupUmode build flag.letter = .some flag) :=
          fun ⟨named, _, known⟩ => same (Option.some.inj (some.symm.trans (named ▸ known)))
        rw [if_neg silent]
        cases what with
        | add => split_ifs <;> simp [Ne.symm same]
        | del => split_ifs <;> simp [Ne.symm same]

theorem mem_svsmodeChars (build : Build) (what : Change) (user : User) (letters : Text) :
    flag ∈ (letters.foldl (svsmodeChar build) (what, user)).2.umode ↔
      if flag = .d ∨ lookupUmode build flag.letter ≠ some flag then flag ∈ user.umode
      else if flag = .o ∨ flag = .O then flag ∈ user.umode ∧ takes flag.letter what letters = false
      else lastSign flag.letter what letters = some .add ∨
        (lastSign flag.letter what letters = none ∧ flag ∈ user.umode) := by
  induction letters generalizing what user with
  | nil => simp [lastSign, takes]
  | cons c letters ih =>
    rw [List.foldl_cons, lastSign, takes]
    by_cases plus : c = '+'
    · subst plus; exact ih .add user
    · by_cases minus : c = '-'
      · subst minus; exact ih .del user
      · obtain ⟨sign, member⟩ := mem_svsmodeChar flag build what user plus minus
        have state : svsmodeChar build (what, user) c = (what, (svsmodeChar build (what, user) c).2) :=
          Prod.ext sign rfl
        rw [state, ih, member]
        simp only [plus, minus, if_false]
        by_cases skips : flag = .d ∨ lookupUmode build flag.letter ≠ some flag
        · simp only [skips, if_true]
          rw [if_neg fun ⟨_, notD, known⟩ => skips.elim notD (absurd known)]
        · obtain ⟨notD, known⟩ := not_or.mp skips
          rw [not_not] at known
          simp only [notD, known, not_false_eq_true, and_true, ne_eq]
          by_cases oper : flag = .o ∨ flag = .O
          · by_cases named : c = flag.letter <;> cases what <;> simp [oper, named]
          · simp only [oper, if_false]
            cases later : lastSign flag.letter what letters with
            | none => by_cases named : c = flag.letter <;> simp [named]
            | some sign => simp

theorem mine_svsmodeChars (build : Build) (state : Change × User) (letters : Text) :
    (letters.foldl (svsmodeChar build) state).2.mine = state.2.mine := by
  induction letters generalizing state with
  | nil => rfl
  | cons c letters ih =>
    rw [List.foldl_cons, ih]
    unfold svsmodeChar
    simp only []
    split <;> try rfl
    split
    · rfl
    · split_ifs <;> rfl

/-- `MODE` of a user of another server. -/
theorem mem_mUmode_remote (build : Build) (letUmodez : Bool) (user : User) (letters : Text) (remote : user.mine = false) :
    decide (flag ∈ (mUmode build letUmodez user letters).umode) =
      (umodeAsks build letters flag).getD (decide (flag ∈ user.umode)) := by
  have member := mem_umodeChars flag build user.mine .add user.umode letters fun _ => remote
  simp only [mUmode, remote, Bool.false_eq_true, if_false, umodeAsks]
  rw [remote] at member
  simp only [member]
  split
  · rfl
  · cases lastSign flag.letter .add letters with
    | none => simp
    | some sign => cases sign <;> simp

theorem mem_mSvsmode (build : Build) (user : User) (letters : Text) :
    decide (flag ∈ (mSvsmode build user letters).umode) =
      (svsmodeAsks build letters flag).getD (decide (flag ∈ user.umode)) := by
  simp only [mSvsmode, mem_svsmodeChars, svsmodeAsks]
  split
  · rfl
  · split
    · cases takes flag.letter .add letters <;> simp
    · cases lastSign flag.letter .add letters with
      | none => simp
      | some sign => cases sign <;> simp

theorem lookupUmode_userModes (build : Build) (member : flag ∈ userModes build) :
    lookupUmode build flag.letter = some flag := by
  have every : ∀ ssl, ∀ flag ∈ userModes ⟨ssl, false, false⟩,
      lookupUmode ⟨ssl, false, false⟩ flag.letter = some flag := by decide +kernel
  exact every build.haveSsl flag member

theorem nodup_userModes (build : Build) : (userModes build).Nodup := by
  have every : ∀ ssl, (userModes ⟨ssl, false, false⟩).Nodup := by decide +kernel
  exact every build.haveSsl

/-- What the difference of two sets of modes says about one of them. -/
def differs (old umode : UModes) (flag : UMode) : Option Change :=
  if flag ∈ old ∧ flag ∉ umode then some .del else if flag ∉ old ∧ flag ∈ umode then some .add else none

/-- A letter behind the sign that stands, or behind a sign of its own. -/
private theorem lastSign_change (letter : Char) (sign what : Change) (other : UMode) (rest : Text)
    (stands : written = some sign → what = sign) :
    lastSign letter what ((if written = some sign then [other.letter]
      else [if sign = .add then '+' else '-', other.letter]) ++ rest) =
      (lastSign letter sign rest).or (if other.letter = letter then some sign else none) := by
  obtain ⟨plus, minus, _⟩ := letter_solid other
  split
  next same =>
    obtain rfl := stands same
    simp [lastSign, plus, minus]
  · cases sign with
    | add => simp [lastSign, plus, minus]
    | del => simp [lastSign, plus, minus]

theorem lastSign_umodeLetters (mine : Bool) (umode old sendmask : UModes) (written : Option Change) (what : Change)
    (stands : ∀ sign, written = some sign → what = sign) (flags : List UMode) (nodup : flags.Nodup)
    (apart : ∀ other ∈ flags, other.letter = flag.letter → other = flag) :
    lastSign flag.letter what (umodeLetters mine umode old sendmask written flags) =
      if flag ∈ flags ∧ (mine = true → flag ∈ sendmask) then differs old umode flag else none := by
  induction flags generalizing written what with
  | nil => simp [umodeLetters, lastSign]
  | cons other rest ih =>
    obtain ⟨fresh, nodup⟩ := List.nodup_cons.mp nodup
    have apart' : ∀ other ∈ rest, other.letter = flag.letter → other = flag :=
      fun next member => apart next (List.mem_cons_of_mem _ member)
    have later (sign : Change) := ih (some sign) sign (fun _ same => Option.some.inj same) nodup apart'
    have silent (skipped : other = flag → ¬ (mine = true → flag ∈ sendmask) ∨ differs old umode flag = none) :
        lastSign flag.letter what (umodeLetters mine umode old sendmask written rest) =
          if flag ∈ other :: rest ∧ (mine = true → flag ∈ sendmask) then differs old umode flag else none := by
      rw [ih written what stands nodup apart']
      by_cases same : other = flag
      · subst same
        rcases skipped rfl with masked | none
        · rw [if_neg (masked ∘ And.right), if_neg (masked ∘ And.right)]
        · simp [none]
      · simp [Ne.symm same]
    have spoken (sign : Change) (tells : differs old umode other = some sign) (sent : mine = true → other ∈ sendmask) :
        (lastSign flag.letter sign (umodeLetters mine umode old sendmask (some sign) rest)).or
            (if other.letter = flag.letter then some sign else none) =
          if flag ∈ other :: rest ∧ (mine = true → flag ∈ sendmask) then differs old umode flag else none := by
      rw [later sign]
      by_cases same : other = flag
      · subst same
        rw [if_neg (fresh ∘ And.left), if_pos rfl, if_pos ⟨List.mem_cons_self, sent⟩, tells]
        rfl
      · rw [if_neg fun letters => same (apart other List.mem_cons_self letters), Option.or_none]
        simp [Ne.symm same]
    rw [umodeLetters]
    split
    next masked =>
      refine silent fun same => .inl ?_
      subst same
      exact fun sent => masked.2 (sent masked.1)
    next shown =>
      have sent : mine = true → other ∈ sendmask := by
        intro own
        by_contra missing
        exact shown ⟨own, missing⟩
      split
      next gone =>
        exact (lastSign_change flag.letter .del what other _ (stands .del)).trans
          (spoken .del (by rw [differs, if_pos gone]) sent)
      next kept =>
        split
        next come =>
          exact (lastSign_change flag.letter .add what other _ (stands .add)).trans
            (spoken .add (by rw [differs, if_neg kept, if_pos come]) sent)
        next same =>
          refine silent fun isFlag => .inr ?_
          subst isFlag
          rw [differs, if_neg kept, if_neg same]

/-- A server reads from the line of `send_umode` what has changed. -/
theorem lastSign_sendUmode (build : Build) (user : User) (old sendmask : UModes) (known : flag ∈ userModes build)
    (sent : flag ∈ sendmask) : lastSign flag.letter .add (sendUmode build user old sendmask) =
      differs old user.umode flag := by
  have apart : ∀ other ∈ userModes build, other.letter = flag.letter → other = flag := by
    intro other member same
    have found := lookupUmode_userModes build member
    rw [same, lookupUmode_userModes build known] at found
    exact (Option.some.inj found).symm
  rw [sendUmode, lastSign_umodeLetters user.mine user.umode old sendmask none .add (nofun) _ (nodup_userModes build) apart,
    if_pos ⟨known, fun _ => sent⟩]

end

end SolidIrcd.Umode
