import SolidIrcd.Channel.SetMode

/-! What a MODE from a client without any access to the channel can change. -/

namespace SolidIrcd.Channel

open Scan (Text)

/-- A client of this server that is neither a server nor U:lined, at level 0. -/
structure Call.Powerless (call : Call) : Prop where
  mine : call.sptr.myClient = true
  notServer : call.sptr.isServer = false
  notUline : call.sptr.uline = false
  level : call.level = 0

/-- Who may use `'D'` whatever the level: whoever is resolved, and operators. -/
def Source.mayRsl (sptr : Source) : Bool := !(sptr.ursl && !sptr.oper)

/-- The sign in force after a letter. -/
def signAfter (sign : Sign) (letter : Char) : Sign :=
  if letter = '+' then .plus else if letter = '-' then .minus else sign

theorem signAfter_char (sign next : Sign) : signAfter sign next.char = next := by
  cases next <;> rfl

theorem signAfter_other (other : ¬ ∃ sign : Sign, letter = sign.char) : signAfter sign letter = sign := by
  have notPlus : letter ≠ '+' := fun isPlus => other ⟨.plus, isPlus⟩
  have notMinus : letter ≠ '-' := fun isMinus => other ⟨.minus, isMinus⟩
  simp [signAfter, notPlus, notMinus]

/-- The sign in force at the last `wanted` of a mode string. -/
def lastSign (wanted : Char) : Sign → Text → Option Sign
  | _, [] => none
  | sign, letter :: rest =>
    (lastSign wanted (signAfter sign letter) rest).or (if letter = wanted then some sign else none)

namespace Call.Powerless

theorem checkLevel (powerless : Call.Powerless call) (rlevel : Nat) : call.checkLevel (rlevel + 1) = true := by
  simp [Call.checkLevel, powerless.level, powerless.notServer]

end Call.Powerless

/-- No case but `'D'` lets a client at level 0 through; what is left to it are the
signs, the lists of masks and refusals. -/
theorem change_powerless (powerless : Call.Powerless call) (letter : Char) (pass : Pass)
    (other : which ≠ .rsl) :
    (change call letter pass which).chptr = pass.chptr ∧
      ((∀ sign, which ≠ .sign sign) → (change call letter pass which).change = pass.change) := by
  have refused := powerless.checkLevel
  cases which with
  | sign sign => exact ⟨signMode_chptr sign pass, fun none => absurd rfl (none sign)⟩
  | ssl => simp [change, sslMode, powerless.notUline, refused 0]
  | rsl => exact absurd rfl other
  | operOnly => simp [change, operMode, powerless.notUline, powerless.level]
  | member status => cases status <;> simp [change, memberMode, MemberStatus.level, refused]
  | mask list =>
    simp only [change, maskMode, refused 0, if_true]
    split
    · split <;> simp
    · simp
  | joinRate => simp [change, joinRateMode, refused 0]
  | limit => simp [change, limitMode, refused 0]
  | key => simp [change, keyMode, refused 0]
  | registered =>
    simp only [change, registeredMode, powerless.notServer, powerless.notUline]
    split <;> simp
  | listed =>
    simp only [change, listedMode, powerless.mine]
    split <;> simp
  | inviteOnly => simp [change, inviteOnlyMode, refused 1]
  | other => simp [change, flagMode, refused 0]

/-- The one case with the wrong connective: `'D'` asks for the level only of
clients it would refuse anyway. -/
theorem rslMode_powerless (powerless : Call.Powerless call) (pass : Pass) :
    (rslMode call pass).change = pass.change ∧
      (rslMode call pass).chptr =
        if call.sptr.mayRsl then pass.chptr.setFlag .rsl pass.change else pass.chptr := by
  have refused := powerless.checkLevel 1
  cases ursl : call.sptr.ursl <;> cases oper : call.sptr.oper <;>
    simp [rslMode, powerless.notUline, powerless.mine, refused, Source.mayRsl, ursl, oper, Pass.make]

/-- The letters that reach `case 'D'`. -/
def rslLetter (build : Build) (letter : Char) : Bool := build.channelModeD && letter == 'D'

theorem caseOf_D (build : Build) : caseOf build 'D' = if build.channelModeD then .rsl else .other := by
  obtain ⟨haveSsl, chanmodeL, channelModeD⟩ := build
  cases haveSsl <;> cases channelModeD <;> rfl

theorem caseOf_rsl_iff : caseOf build letter = .rsl ↔ rslLetter build letter = true := by
  constructor
  · intro reached
    have isD : some 'D' = some letter := caseOf_letter reached (by simp)
    obtain rfl := Option.some.inj isD
    rw [caseOf_D] at reached
    cases enabled : build.channelModeD with
    | true => simp [rslLetter, enabled]
    | false => simp [enabled] at reached
  · intro isD
    obtain ⟨enabled, rfl⟩ : build.channelModeD = true ∧ letter = 'D' := by simpa [rslLetter] using isD
    simp [caseOf_D, enabled]

/-- One letter of a powerless client: the sign moves as the string says, and only
an allowed `'D'` touches the channel. -/
theorem step_powerless (powerless : Call.Powerless call) (pass : Pass) (letter : Char) :
    (setModeStep call pass letter).change = signAfter pass.change letter ∧
      (setModeStep call pass letter).chptr =
        if rslLetter call.build letter && call.sptr.mayRsl then pass.chptr.setFlag .rsl pass.change
        else pass.chptr := by
  simp only [setModeStep, askMore_chptr, askMore_change]
  by_cases isRsl : caseOf call.build letter = .rsl
  · have isD : some 'D' = some letter := caseOf_letter isRsl (by simp)
    obtain rfl := Option.some.inj isD
    rw [isRsl, caseOf_rsl_iff.mp isRsl]
    obtain ⟨kept, made⟩ := rslMode_powerless powerless pass
    exact ⟨by simpa [change, signAfter] using kept, by simpa [change] using made⟩
  · have plain : rslLetter call.build letter = false := by
      simpa using mt caseOf_rsl_iff.mpr isRsl
    obtain ⟨same, kept⟩ := change_powerless powerless letter pass isRsl
    refine ⟨?_, by simpa [plain] using same⟩
    by_cases isSign : ∃ sign : Sign, letter = sign.char
    · obtain ⟨sign, rfl⟩ := isSign
      rw [caseOf_sign, signAfter_char]
      exact signMode_change sign pass
    · rw [signAfter_other isSign]
      apply kept
      intro sign reached
      exact isSign ⟨sign, (Option.some.inj (caseOf_letter reached (by simp))).symm⟩

theorem setFlag_setFlag (chptr : Chan) (flag : Flag) (first second : Sign) :
    (chptr.setFlag flag first).setFlag flag second = chptr.setFlag flag second := by
  simp only [Chan.setFlag, Mode.set_set]

/-- The flag after the last `'D'`, if there was one. -/
def Chan.withRsl (chptr : Chan) (last : Option Sign) : Chan := last.elim chptr (chptr.setFlag .rsl)

/-- The last `'D'` of a mode string that takes effect. -/
def lastRsl (build : Build) (sptr : Source) (sign : Sign) (modes : Text) : Option Sign :=
  if build.channelModeD && sptr.mayRsl then lastSign 'D' sign modes else none

theorem lastRsl_cons (build : Build) (sptr : Source) (sign : Sign) (letter : Char) (rest : Text) :
    lastRsl build sptr sign (letter :: rest) =
      (lastRsl build sptr (signAfter sign letter) rest).or
        (if rslLetter build letter && sptr.mayRsl then some sign else none) := by
  unfold lastRsl rslLetter
  cases build.channelModeD <;> cases sptr.mayRsl <;> simp [lastSign]

/-- The whole mode string: what is left is the last `'D'`. -/
theorem run_powerless (powerless : Call.Powerless call) (modes : Text) (pass : Pass) :
    (modes.foldl (setModeStep call) pass).chptr =
      pass.chptr.withRsl (lastRsl call.build call.sptr pass.change modes) := by
  induction modes generalizing pass with
  | nil =>
    have none : lastRsl call.build call.sptr pass.change [] = none := by
      unfold lastRsl
      split <;> rfl
    rw [none]
    rfl
  | cons letter rest ih =>
    obtain ⟨sign, made⟩ := step_powerless powerless pass letter
    rw [List.foldl_cons, ih, sign, made, lastRsl_cons]
    cases lastRsl call.build call.sptr (signAfter pass.change letter) rest with
    | none =>
      simp only [Chan.withRsl, Option.elim_none, Option.none_or]
      split <;> rfl
    | some last =>
      simp only [Chan.withRsl, Option.elim_some, Option.some_or]
      split
      · exact setFlag_setFlag ..
      · rfl

theorem withRsl_eq_iff (chptr : Chan) (last : Option Sign) :
    chptr.withRsl last = chptr ↔ ∀ sign, last = some sign → chptr.mode.flags .rsl = (sign = .plus : Bool) := by
  cases last with
  | none => simp [Chan.withRsl]
  | some sign =>
    simp only [Chan.withRsl, Option.elim_some, Option.some.injEq, forall_eq']
    constructor
    · intro same
      have flag : (chptr.setFlag .rsl sign).mode.flags .rsl = (sign = .plus : Bool) := by
        simp [Chan.setFlag]
      rw [← flag, same]
    · intro flag
      simp only [Chan.setFlag, ← flag, Mode.set_same]

/-- MODE authorization. A client of this server at level 0 leaves the channel as
it was exactly when the build has no `'D'`, or the client is unresolved and no
operator, or the sign at the last `'D'` of its mode string is the flag's own. -/
theorem mMode_powerless_iff (build : Build) (world : World) (sptr : Source) (chptr : Chan)
    (parv : List Text) (mine : sptr.myClient = true) (notServer : sptr.isServer = false)
    (notUline : sptr.uline = false) (level : modeLevel sptr chptr = 0) :
    (mMode build world ⟨sptr.name, false⟩ sptr chptr parv).chptr = chptr ↔
      build.channelModeD = false ∨ (sptr.ursl = true ∧ sptr.oper = false) ∨
        ∀ sign, lastSign 'D' .plus (parv.headD []) = some sign →
          chptr.mode.flags .rsl = (sign = .plus : Bool) := by
  cases parv with
  | nil => simp [mMode, lastSign]
  | cons modes args =>
    have powerless : Call.Powerless ⟨build, world, sptr.name, sptr, modeLevel sptr chptr⟩ :=
      ⟨mine, notServer, notUline, level⟩
    have final : (mMode build world ⟨sptr.name, false⟩ sptr chptr (modes :: args)).chptr =
        chptr.withRsl (lastRsl build sptr .plus modes) := run_powerless powerless modes (Pass.start ..)
    rw [final, withRsl_eq_iff, List.headD_cons]
    unfold lastRsl Source.mayRsl
    cases build.channelModeD <;> cases sptr.ursl <;> cases sptr.oper <;> simp

/-- A client of this server who is on no channel. -/
def stranger : Source where
  name := "eve".toList
  isServer := false
  uline := false
  myClient := true
  sadmin := false
  oper := false
  locop := false
  ursl := false
  umodez := false

/-- A channel with one operator and no modes. -/
def plainChannel : Chan where
  chname := "#a".toList
  channelts := 100
  mode := .clear
  members := [⟨"bob".toList, true, false, false, false⟩]
  banlist := []
  banexemptList := []
  inviteList := []
  invites := []

def emptyWorld : World := ⟨[], fun _ => none⟩

/-- Without `'D'` in the build the stranger's MODE changes nothing. -/
theorem stranger_leaves_plainChannel :
    modeLevel stranger plainChannel = 0 ∧
      (mMode ⟨true, true, false⟩ emptyWorld ⟨stranger.name, false⟩ stranger plainChannel
        ["+ntD".toList]).chptr = plainChannel := by
  have level : modeLevel stranger plainChannel = 0 := by decide
  exact ⟨level, (mMode_powerless_iff _ _ _ _ _ rfl rfl rfl level).mpr (.inl rfl)⟩

/-- With it, the stranger sets `+D`. -/
theorem stranger_sets_rsl :
    stranger.myClient = true ∧ stranger.isServer = false ∧ stranger.uline = false ∧
      modeLevel stranger plainChannel = 0 ∧
      (mMode ⟨true, true, true⟩ emptyWorld ⟨stranger.name, false⟩ stranger plainChannel
        ["+D".toList]).chptr ≠ plainChannel := by
  refine ⟨rfl, rfl, rfl, by decide, fun same => ?_⟩
  have flag := congrArg (fun chptr => chptr.mode.flags .rsl) same
  revert flag
  decide

end SolidIrcd.Channel
