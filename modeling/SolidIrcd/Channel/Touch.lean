import SolidIrcd.Channel.SetMode

/-! What one letter of `set_mode` can make of a channel. -/

namespace SolidIrcd.Channel

open Scan (Text)

/-- A channel after a letter other than `j`. -/
inductive Touch (call : Call) (before : Chan) : Chan → Prop where
  | same : Touch call before before
  | flag (other : flag ≠ .joinRate) (sign : Sign) : Touch call before (before.setFlag flag sign)
  | member (name : Text) (value : Bool) (sign : Sign) (status : MemberStatus) :
      Touch call before ((before.setMember name value status).blast call sign status)
  | masks (list : MaskList) (masks : List Text) : Touch call before (before.setMasks masks list)
  | uninvite : Touch call before { before with invites := [] }
  | uninviteFlag (other : flag ≠ .joinRate) (sign : Sign) :
      Touch call before (Chan.setFlag { before with invites := [] } flag sign)
  | limit (i : Int) : Touch call before (before.setLimit i)
  | key (para : Text) : Touch call before (before.setKey (para.take keyLen))
  | noKey : Touch call before (before.setKey [])

/-- A channel after `j`. -/
inductive RateTouch (before : Chan) : Chan → Prop where
  | same : RateTouch before before
  | set (rate : Int × Int) : RateTouch before (before.setJoinRate rate)
  | clear : RateTouch before before.clearJoinRate

theorem row_of_lookup {rows : List (Char × Flag)} (row : rows.lookup letter = some flag) :
    (letter, flag) ∈ rows := by
  obtain ⟨front, back, rfl, -⟩ := List.lookup_eq_some_iff.mp row
  simp

theorem flagTable_other (row : (flagTable build).lookup letter = some flag) : flag ≠ .joinRate := by
  have every (build : Build) : ((flagTable build).all fun row => row.2 != .joinRate) = true := by
    obtain ⟨haveSsl, chanmodeL, channelModeD⟩ := build
    revert haveSsl chanmodeL channelModeD
    decide
  simpa using List.all_eq_true.mp (every build) _ (row_of_lookup row)

variable (call : Call) (pass : Pass)

theorem flagMode_touch (letter : Char) : (flagMode call letter pass).chptr = pass.chptr ∨
    ∃ flag ≠ .joinRate, (flagMode call letter pass).chptr = pass.chptr.setFlag flag pass.change := by
  unfold flagMode
  split
  next => exact .inl rfl
  next =>
    split
    next => exact .inl rfl
    next =>
      split
      next =>
        split
        next => exact .inl rfl
        next => exact .inl rfl
      next flag row =>
        split
        next => exact .inl rfl
        next => exact .inr ⟨flag, flagTable_other row, rfl⟩

theorem memberMode_touch (status : MemberStatus) : Touch call pass.chptr (memberMode call status pass).chptr := by
  unfold memberMode
  split
  next => exact .same
  next =>
    split
    next => exact .same
    next =>
      dsimp only
      split
      next => exact .same
      next =>
        split
        next => exact .same
        next =>
          split
          next => exact .same
          next =>
            split
            next => exact .same
            next => exact .member _ _ _ status

theorem maskMode_touch (list : MaskList) : Touch call pass.chptr (maskMode call list pass).chptr := by
  unfold maskMode
  split
  next =>
    split
    next => exact .same
    next => exact .same
  next =>
    split
    next => exact .same
    next =>
      dsimp only
      split
      next => exact .same
      next =>
        split
        next => exact .same
        next =>
          split
          next => exact .same
          next =>
            split
            next =>
              split
              next => exact .same
              next => exact .same
              next => exact .masks list _
            next => exact .masks list _

theorem limitMode_touch : Touch call pass.chptr (limitMode call pass).chptr := by
  unfold limitMode
  split
  next => exact .same
  next =>
    split
    next =>
      split
      next => exact .same
      next =>
        dsimp only
        split
        next => exact .same
        next => exact .limit 0
    next =>
      split
      next => exact .same
      next =>
        dsimp only
        split
        next => exact .same
        next =>
          split
          next => exact .same
          next =>
            split
            next => exact .same
            next =>
              split
              next => exact .same
              next => exact .limit _

theorem keyMode_touch : Touch call pass.chptr (keyMode call pass).chptr := by
  unfold keyMode
  split
  next => exact .same
  next =>
    split
    next => exact .same
    next =>
      dsimp only
      split
      next => exact .same
      next =>
        split
        next => exact .same
        next =>
          split
          next => exact .same
          next =>
            split
            next => exact .same
            next =>
              split
              next => exact .key _
              next => exact .noKey

theorem joinRateMode_touch : RateTouch pass.chptr (joinRateMode call pass).chptr := by
  unfold joinRateMode
  split
  next => exact .same
  next =>
    split
    next =>
      split
      next => exact .same
      next =>
        dsimp only
        split
        next => exact .same
        next => exact .clear
    next =>
      split
      next => exact .same
      next =>
        dsimp only
        split
        next => exact .same
        next =>
          split
          next => exact .same
          next =>
            split
            next => exact .same
            next read _ =>
              generalize zeroJoinRate _ = rate
              split
              next => exact .same
              next => exact .set rate

/-- One case of the `switch` does one thing to the channel. -/
theorem change_touch (letter : Char) (other : which ≠ .joinRate) :
    Touch call pass.chptr (change call letter pass which).chptr := by
  cases which with
  | sign sign =>
    rw [change, signMode_chptr]
    exact .same
  | ssl =>
    simp only [change, sslMode]
    split
    next => exact .same
    next => exact .flag (by decide) pass.change
  | rsl =>
    simp only [change, rslMode]
    split
    next => exact .same
    next =>
      split
      next => exact .same
      next => exact .flag (by decide) pass.change
  | operOnly =>
    simp only [change, operMode]
    split
    next => exact .same
    next =>
      split
      next => exact .same
      next => exact .flag (by decide) pass.change
  | member status => exact memberMode_touch call pass status
  | mask list => exact maskMode_touch call pass list
  | joinRate => exact absurd rfl other
  | limit => exact limitMode_touch call pass
  | key => exact keyMode_touch call pass
  | registered =>
    simp only [change, registeredMode]
    split
    next => exact .same
    next =>
      split
      next => exact .same
      next =>
        split
        next => exact .same
        next => exact .flag (by decide) pass.change
  | listed =>
    simp only [change, listedMode]
    split
    next => exact .same
    next =>
      split
      next => exact .same
      next =>
        split
        next => exact .same
        next => exact .flag (by decide) pass.change
  | inviteOnly =>
    simp only [change, inviteOnlyMode]
    split
    next => exact .same
    next =>
      generalize cleared : (if pass.change = .minus then { pass.chptr with invites := [] } else pass.chptr) = chptr
      have either : chptr = { pass.chptr with invites := [] } ∨ chptr = pass.chptr := by
        rw [← cleared]
        split
        next => exact .inl rfl
        next => exact .inr rfl
      rcases flagMode_touch call { pass with chptr := chptr } 'i' with unchanged | ⟨flag, plain, set⟩
      · rw [unchanged]
        rcases either with rfl | rfl
        · exact .uninvite
        · exact .same
      · rw [set]
        rcases either with rfl | rfl
        · exact .uninviteFlag plain pass.change
        · exact .flag plain pass.change
  | other =>
    rcases flagMode_touch call pass letter with unchanged | ⟨flag, plain, set⟩
    · rw [change, unchanged]
      exact .same
    · rw [change, set]
      exact .flag plain pass.change

end SolidIrcd.Channel
