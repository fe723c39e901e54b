import SolidIrcd.Channel.Authority
import SolidIrcd.Channel.Converge
import SolidIrcd.Channel.Origin
import SolidIrcd.Channel.Touch
import SolidIrcd.Lib.Merge
import Mathlib.Data.Fintype.Order
import Mathlib.Data.List.Lex
import Mathlib.Data.Prod.Lex
import Mathlib.Order.WithBot

/-! The merge of modes under one TS takes the larger of two ranks: of the flags, the limit,
the key and the join rate. That is so for every join rate but those that `set_mode` never
makes and `m_sjoin` still reads. -/

namespace SolidIrcd.Channel

open Scan (Text)
open Merge (Ranked Laws)

/-- Without a join rate both numbers are zero, and a join rate of no joins has no time. -/
def Mode.Normal (mode : Mode) : Prop :=
  if mode.flags .joinRate then 0 < mode.joinNum ∨ (mode.joinNum = 0 ∧ mode.joinTime = 0)
  else mode.joinNum = 0 ∧ mode.joinTime = 0

/-- The smaller of two keys ranks higher, any key above none. -/
noncomputable def rankKey (key : Text) : WithBot (List Char)ᵒᵈ :=
  if key = [] then ⊥ else (OrderDual.toDual key : (List Char)ᵒᵈ)

/-- No limit on joins is above any limit, more joins are above fewer, and the same joins in
less time above those in more. -/
def Mode.rankRate (mode : Mode) : ℕ ×ₗ ℤ ×ₗ ℤ :=
  if mode.flags .joinRate then
    if mode.joinNum = 0 then toLex (2, toLex (0, 0)) else toLex (1, toLex (mode.joinNum, -mode.joinTime))
  else toLex (0, toLex (0, 0))

noncomputable def Mode.rank (mode : Mode) : (Flag → Bool) × ℤ × WithBot (List Char)ᵒᵈ × (ℕ ×ₗ ℤ ×ₗ ℤ) :=
  (mode.flags, mode.limit, rankKey mode.key, mode.rankRate)

theorem strcmpAbove_iff (first second : Text) : strcmpAbove first second = true ↔ second < first := by
  induction first generalizing second with
  | nil => simp [strcmpAbove]
  | cons a first ih =>
    cases second with
    | nil => simp [strcmpAbove]
    | cons b second =>
      rw [strcmpAbove, List.cons_lt_cons_iff]
      by_cases same : a = b
      · simp [same, ih]
      · simp [same, Ne.symm same]

theorem rankKey_merge (oldkey key : Text) : rankKey (mergeKey oldkey key) = rankKey oldkey ⊔ rankKey key := by
  by_cases noOld : oldkey = []
  · simp [noOld, mergeKey, rankKey]
  · by_cases noKey : key = []
    · simp [noOld, noKey, mergeKey, rankKey]
    · by_cases above : oldkey < key
      · have ours : mergeKey oldkey key = oldkey := by
          simp [mergeKey, noOld, noKey, strcmpAbove_iff, above]
        have below : (OrderDual.toDual key : (List Char)ᵒᵈ) ≤ OrderDual.toDual oldkey := above.le
        rw [ours, sup_of_le_left]
        simpa [rankKey, noOld, noKey] using below
      · have theirs : mergeKey oldkey key = key := by
          simp [mergeKey, noOld, noKey, strcmpAbove_iff, above]
        have below : (OrderDual.toDual oldkey : (List Char)ᵒᵈ) ≤ OrderDual.toDual key := le_of_not_gt above
        rw [theirs, sup_of_le_right]
        simpa [rankKey, noOld, noKey] using below

theorem rankKey_inj (same : rankKey first = rankKey second) : first = second := by
  unfold rankKey at same
  split at same
  next none =>
    split at same
    next none' => rw [none, none']
    next => exact absurd same.symm (WithBot.coe_ne_bot)
  next =>
    split at same
    next => exact absurd same (WithBot.coe_ne_bot)
    next => exact OrderDual.toDual_inj.mp (WithBot.coe_inj.mp same)

variable {oldmode mode : Mode}

theorem rankRate_unset (unset : mode.flags .joinRate = false) : mode.rankRate = toLex (0, toLex (0, 0)) := by
  simp [Mode.rankRate, unset]

theorem rankRate_low (mode : Mode) : toLex (0, toLex (0, 0)) ≤ mode.rankRate := by
  unfold Mode.rankRate
  split
  · split
    · simp [Prod.Lex.toLex_le_toLex]
    · simp [Prod.Lex.toLex_le_toLex]
  · exact le_rfl

theorem rankRate_le_iff (set : oldmode.flags .joinRate = true) (set' : mode.flags .joinRate = true) :
    oldmode.rankRate ≤ mode.rankRate ↔
      mode.joinNum = 0 ∨ (oldmode.joinNum ≠ 0 ∧ (oldmode.joinNum < mode.joinNum ∨
        (oldmode.joinNum = mode.joinNum ∧ mode.joinTime ≤ oldmode.joinTime))) := by
  unfold Mode.rankRate
  rw [if_pos set, if_pos set']
  by_cases free : oldmode.joinNum = 0 <;> by_cases free' : mode.joinNum = 0
  · simp [free, free']
  · simp [free, free', Prod.Lex.toLex_le_toLex]
  · simp [free, free', Prod.Lex.toLex_le_toLex]
  · simp [free, free', Prod.Lex.toLex_le_toLex]

/-- The rate that stays is the higher one. -/
theorem rankRate_keeps (old : oldmode.Normal) (new : mode.Normal) (set : oldmode.flags .joinRate = true) :
    if keepsJoinRate oldmode mode then mode.flags .joinRate = true ∧ oldmode.rankRate ≤ mode.rankRate
    else mode.rankRate ≤ oldmode.rankRate := by
  rw [Mode.Normal, if_pos set] at old
  cases set' : mode.flags .joinRate with
  | false =>
    rw [Mode.Normal, set'] at new
    obtain ⟨num, time⟩ : mode.joinNum = 0 ∧ mode.joinTime = 0 := by simpa using new
    have weak : keepsJoinRate oldmode mode = false := by
      rw [← Bool.not_eq_true, keepsJoinRate_iff, set', num, time]
      simp only [Bool.false_eq_true, false_and, false_or]
      omega
    rw [weak, rankRate_unset set']
    exact rankRate_low oldmode
  | true =>
    split
    next keeps =>
      have higher := (keepsJoinRate_iff oldmode mode).mp keeps
      refine ⟨rfl, (rankRate_le_iff set set').mpr ?_⟩
      omega
    next loses =>
      rw [keepsJoinRate_iff, set'] at loses
      apply (rankRate_le_iff set' set).mpr
      simp only [true_and] at loses
      omega

theorem mergeModes_rate_cases (old : oldmode.Normal) (new : mode.Normal) :
    ∃ other, (other = oldmode ∨ other = mode) ∧ (mergeModes oldmode mode).flags .joinRate = other.flags .joinRate ∧
      (mergeModes oldmode mode).joinNum = other.joinNum ∧ (mergeModes oldmode mode).joinTime = other.joinTime ∧
      oldmode.rankRate ≤ other.rankRate ∧ mode.rankRate ≤ other.rankRate := by
  cases set : oldmode.flags .joinRate with
  | false =>
    refine ⟨mode, .inr rfl, ?_, ?_, ?_, ?_, le_rfl⟩
    · simp [mergeModes, set]
    · simp [mergeModes, set]
    · simp [mergeModes, set]
    · rw [rankRate_unset set]
      exact rankRate_low mode
  | true =>
    have keeps := rankRate_keeps old new set
    cases stays : keepsJoinRate oldmode mode with
    | true =>
      simp only [stays, if_true] at keeps
      exact ⟨mode, .inr rfl, by simp [mergeModes, keeps.1], by simp [mergeModes, stays], by simp [mergeModes, stays],
        keeps.2, le_rfl⟩
    | false =>
      simp only [stays, Bool.false_eq_true, if_false] at keeps
      exact ⟨oldmode, .inl rfl, by simp [mergeModes, set], by simp [mergeModes, set, stays],
        by simp [mergeModes, set, stays], le_rfl, keeps⟩

theorem mergeModes_normal (old : oldmode.Normal) (new : mode.Normal) : (mergeModes oldmode mode).Normal := by
  obtain ⟨other, side, flag, num, time, -, -⟩ := mergeModes_rate_cases old new
  have normal : other.Normal := by
    obtain rfl | rfl := side
    · exact old
    · exact new
  rwa [Mode.Normal, flag, num, time]

theorem rankRate_merge (old : oldmode.Normal) (new : mode.Normal) :
    (mergeModes oldmode mode).rankRate = oldmode.rankRate ⊔ mode.rankRate := by
  obtain ⟨other, side, flag, num, time, left, right⟩ := mergeModes_rate_cases old new
  have same : (mergeModes oldmode mode).rankRate = other.rankRate := by simp only [Mode.rankRate, flag, num, time]
  rw [same]
  obtain rfl | rfl := side
  · rw [sup_of_le_left right]
  · rw [sup_of_le_right left]

theorem rankRate_inj (old : oldmode.Normal) (new : mode.Normal) (flag : oldmode.flags .joinRate = mode.flags .joinRate)
    (same : oldmode.rankRate = mode.rankRate) : oldmode.joinNum = mode.joinNum ∧ oldmode.joinTime = mode.joinTime := by
  cases set : mode.flags .joinRate with
  | false =>
    rw [Mode.Normal, flag, set] at old
    rw [Mode.Normal, set] at new
    simp only [Bool.false_eq_true, if_false] at old new
    omega
  | true =>
    rw [set] at flag
    have below := (rankRate_le_iff flag set).mp same.le
    have above := (rankRate_le_iff set flag).mp same.ge
    rw [Mode.Normal, if_pos flag] at old
    rw [Mode.Normal, if_pos set] at new
    omega

theorem mergeModes_ranked : Ranked Mode.Normal mergeModes Mode.rank where
  closed _ _ := mergeModes_normal
  sup := by
    intro oldmode mode old new
    have flags : (mergeModes oldmode mode).flags = oldmode.flags ⊔ mode.flags := by
      funext flag
      exact Bool.or_comm ..
    have limit : (mergeModes oldmode mode).limit = oldmode.limit ⊔ mode.limit := by
      simp only [mergeModes, max_def]
      split <;> split <;> omega
    have key : rankKey (mergeModes oldmode mode).key = rankKey oldmode.key ⊔ rankKey mode.key := rankKey_merge ..
    simp only [Mode.rank, flags, limit, key, rankRate_merge old new, Prod.mk_sup_mk]
  inj := by
    intro oldmode mode old new same
    simp only [Mode.rank, Prod.mk.injEq] at same
    obtain ⟨flags, limit, key, rate⟩ := same
    obtain ⟨num, time⟩ := rankRate_inj old new (congrFun flags _) rate
    have key' := rankKey_inj key
    cases oldmode
    cases mode
    simp_all

/-! Where the modes come from. -/

/-- The modes that `set_mode` makes, from those of a new channel on. -/
inductive Mode.Made (build : Build) : Mode → Prop where
  | clear : Mode.Made build .clear
  | set (call : Call) (same : call.build = build) (chptr : Chan) (modes : Text) (args : List Text)
      (made : Mode.Made build chptr.mode) : Mode.Made build (setMode call chptr modes args).chptr.mode

/-- The modes that a SJOIN line carries. -/
def Mode.Wired (build : Build) (mode : Mode) : Prop :=
  ∃ modes args rest, readModes build modes .clear args = some (mode, rest)

/-- The parts of the modes that make up the join rate. -/
def Mode.joinRate (mode : Mode) : Bool × Int × Int := (mode.flags .joinRate, mode.joinNum, mode.joinTime)

theorem normal_congr (same : oldmode.joinRate = mode.joinRate) : oldmode.Normal ↔ mode.Normal := by
  simp only [Mode.joinRate, Prod.mk.injEq] at same
  simp only [Mode.Normal, same]

theorem joinRate_set {flag : Flag} (other : flag ≠ .joinRate) (mode : Mode) (value : Bool) :
    (mode.set flag value).joinRate = mode.joinRate := by
  simp [Mode.joinRate, Mode.set, Ne.symm other]

theorem joinRate_setFlag {flag : Flag} (other : flag ≠ .joinRate) (chptr : Chan) (change : Sign) :
    (chptr.setFlag flag change).mode.joinRate = chptr.mode.joinRate := joinRate_set other chptr.mode _

theorem sjoinTable_plain (row : (sjoinTable build).lookup letter = some flag) : flag ≠ .joinRate := by
  have every (build : Build) : ((sjoinTable build).all fun row => row.2 != .joinRate) = true := by
    obtain ⟨haveSsl, chanmodeL, channelModeD⟩ := build
    revert haveSsl chanmodeL channelModeD
    decide
  simpa using List.all_eq_true.mp (every build) _ (row_of_lookup row)

section SetMode

variable (call : Call) (pass : Pass)

/-- Only `j` changes the join rate. -/
theorem change_joinRate (letter : Char) (other : which ≠ .joinRate) :
    (change call letter pass which).chptr.mode.joinRate = pass.chptr.mode.joinRate := by
  have touch := change_touch call pass letter other
  generalize (change call letter pass which).chptr = after at touch ⊢
  cases touch with
  | flag plain sign => exact joinRate_setFlag plain _ _
  | uninviteFlag plain sign => exact joinRate_setFlag plain _ _
  | member name value sign status =>
    unfold Chan.blast
    split <;> rfl
  | masks list masks => rw [setMasks_mode]
  | _ => rfl

theorem normal_setJoinRate (rate : Rate limited) (chptr : Chan) : (chptr.setJoinRate limited).mode.Normal := by
  have low := rate.numLow
  have whole := rate.whole
  unfold zeroJoinRate at whole
  have zero : limited.1 = 0 → limited.2 = 0 := by
    intro none
    rw [if_pos (.inl none)] at whole
    rw [← whole]
  simp only [Chan.setJoinRate, Mode.Normal, Mode.set, if_true]
  omega

theorem joinRateMode_normal (normal : pass.chptr.mode.Normal) : (joinRateMode call pass).chptr.mode.Normal := by
  unfold joinRateMode
  split
  · exact normal
  · split
    · split
      · exact normal
      · simp only
        split
        · exact normal
        · simp [Pass.make, Chan.clearJoinRate, Mode.Normal, Mode.set]
    · split
      · exact normal
      · simp only
        split
        · exact normal
        · split
          · exact normal
          · split
            · exact normal
            next read =>
              have rate := rate_limited read ((call.sptr.myClient && decide (call.level < 2)) = true)
              generalize zeroJoinRate (if (call.sptr.myClient && decide (call.level < 2)) = true then _ else _) = limited
                at rate ⊢
              split
              · exact normal
              · exact normal_setJoinRate rate _

theorem setModeStep_normal (letter : Char) (normal : pass.chptr.mode.Normal) :
    (setModeStep call pass letter).chptr.mode.Normal := by
  rw [setModeStep, askMore_chptr]
  by_cases rate : caseOf call.build letter = .joinRate
  · rw [rate]
    exact joinRateMode_normal call pass normal
  · exact (normal_congr (change_joinRate call pass letter rate)).mpr normal

theorem setMode_normal (chptr : Chan) (modes : Text) (args : List Text) (normal : chptr.mode.Normal) :
    (setMode call chptr modes args).chptr.mode.Normal := by
  have run (pass : Pass) (begun : pass.chptr.mode.Normal) : (modes.foldl (setModeStep call) pass).chptr.mode.Normal := by
    induction modes generalizing pass with
    | nil => exact begun
    | cons letter modes ih => exact ih _ (setModeStep_normal call pass letter begun)
  exact run (Pass.start call chptr args) normal

end SetMode

theorem clear_normal : Mode.clear.Normal := by simp [Mode.Normal, Mode.clear]

/-- `set_mode` only makes join rates that merge well. -/
theorem Mode.Made.normal (made : Mode.Made build mode) : mode.Normal := by
  induction made with
  | clear => exact clear_normal
  | set call same chptr modes args made ih => exact setMode_normal call chptr modes args ih

/-- Without `j` the numbers are as `memset` left them. -/
def Mode.Unset (mode : Mode) : Prop := mode.flags .joinRate = false → mode.joinNum = 0 ∧ mode.joinTime = 0

theorem readPara_unset (plain : mode.Unset) (read : readPara mode para letter = some after) : after.Unset := by
  unfold readPara at read
  split at read
  · obtain rfl := Option.some.inj read
    exact plain
  · obtain rfl := Option.some.inj read
    simp [Mode.Unset, Mode.set]
  · obtain rfl := Option.some.inj read
    exact plain
  · cases read

theorem readModes_unset {modes : Text} (plain : mode.Unset) (read : readModes build modes mode args = some (after, rest)) :
    after.Unset := by
  induction modes generalizing mode args with
  | nil =>
    obtain ⟨rfl, -⟩ : mode = after ∧ args = rest := by simpa [readModes] using read
    exact plain
  | cons letter modes ih =>
    rw [readModes.eq_def] at read
    simp only at read
    split at read
    next flag row =>
      have same := joinRate_set (sjoinTable_plain row) mode true
      simp only [Mode.joinRate, Prod.mk.injEq] at same
      apply ih _ read
      intro unset
      rw [same.1] at unset
      rw [same.2.1, same.2.2]
      exact plain unset
    next =>
      split at read
      · exact ih plain read
      next para others =>
        split at read
        · exact ih plain read
        next parsed =>
          split at read
          · cases read
          · exact ih (readPara_unset plain parsed) read

theorem Mode.Wired.unset (wired : Mode.Wired build mode) : mode.Unset := by
  obtain ⟨modes, args, rest, read⟩ := wired
  exact readModes_unset (fun _ => ⟨rfl, rfl⟩) read

/-- What `+j 0` of a server makes of a new channel. -/
def freeCall (build : Build) : Call where
  build := build
  world := ⟨[], fun _ => none⟩
  cptr := "hub.net".toList
  sptr := (Peer.mk "hub.net".toList false).source
  level := 2

def freeMode (build : Build) : Mode := (setMode (freeCall build) (.create "#c".toList 1) ['j'] [['0']]).chptr.mode

theorem freeMode_made (build : Build) : Mode.Made build (freeMode build) :=
  Mode.Made.set (freeCall build) rfl (.create "#c".toList 1) ['j'] [['0']] .clear

theorem freeMode_joinRate (build : Build) : (freeMode build).joinRate = (true, 0, 0) := by
  obtain ⟨haveSsl, chanmodeL, channelModeD⟩ := build
  revert haveSsl chanmodeL channelModeD
  decide +kernel

/-- A mode that merges well with a new channel and with one that has `+j 0` is normal. -/
theorem normal_of_comm (plain : mode.Unset) (free : other.joinRate = (true, 0, 0))
    (clear : mergeModes mode .clear = mergeModes .clear mode) (same : mergeModes mode other = mergeModes other mode) :
    mode.Normal := by
  cases set : mode.flags .joinRate with
  | false =>
    rw [Mode.Normal, set]
    simpa using plain set
  | true =>
    simp only [Mode.joinRate, Prod.mk.injEq] at free
    obtain ⟨freeSet, freeNum, freeTime⟩ := free
    have clearNum : (mergeModes .clear mode).joinNum = mode.joinNum := by simp [mergeModes, Mode.clear]
    have clearTime : (mergeModes .clear mode).joinTime = mode.joinTime := by simp [mergeModes, Mode.clear]
    rw [← clear] at clearNum clearTime
    have kept : keepsJoinRate mode .clear = false := by
      by_contra keeps
      rw [Bool.not_eq_false] at keeps
      have num : Mode.clear.joinNum = mode.joinNum := by simpa [mergeModes, set, keeps] using clearNum
      have time : Mode.clear.joinTime = mode.joinTime := by simpa [mergeModes, set, keeps] using clearTime
      rw [keepsJoinRate_iff, ← num, ← time] at keeps
      simp [Mode.clear] at keeps
    rw [← Bool.not_eq_true, keepsJoinRate_iff] at kept
    simp only [Mode.clear, Bool.false_eq_true, false_and, false_or] at kept
    rw [Mode.Normal, if_pos set]
    by_cases none : mode.joinNum = 0
    · right
      have wins : keepsJoinRate mode other = true := by simp [keepsJoinRate, freeSet, freeNum]
      have loses : keepsJoinRate other mode = true := by simp [keepsJoinRate, set, none]
      have time := congrArg Mode.joinTime same
      simp only [mergeModes, set, wins, freeSet, loses, Bool.not_true, Bool.and_false, Bool.false_eq_true, if_false,
        freeTime] at time
      exact ⟨none, time.symm⟩
    · omega

/-- The merge of modes is a semilattice on a family of modes, with those of `set_mode` among
them, exactly when their join rates are normal. -/
theorem mergeModes_laws (build : Build) {family : Mode → Prop}
    (known : ∀ mode, family mode → Mode.Made build mode ∨ Mode.Wired build mode)
    (every : ∀ mode, Mode.Made build mode → family mode) :
    Laws family mergeModes ↔ ∀ mode, family mode → mode.Normal := by
  constructor
  · intro laws mode member
    obtain made | wired := known mode member
    · exact made.normal
    · exact normal_of_comm wired.unset (freeMode_joinRate build) (laws.comm _ _ member (every _ .clear))
        (laws.comm _ _ member (every _ (freeMode_made build)))
  · exact mergeModes_ranked.laws.mono

theorem mergeModes_laws_made :
    Laws (Mode.Made ⟨true, true, true⟩) mergeModes ↔ ∀ mode, Mode.Made ⟨true, true, true⟩ mode → mode.Normal :=
  mergeModes_laws ⟨true, true, true⟩ (fun _ => .inl) fun _ made => made

/-- What a SJOIN with `+j 0:` and a time carries. -/
private def noJoins (time : Int) : Mode := { Mode.clear.set .joinRate true with joinNum := 0, joinTime := time }

/-- Two lines that carry no joins in different times: whichever is merged last stays. -/
theorem zero_rates_differ : ¬ ∀ build, Laws (fun mode => Mode.Made build mode ∨ Mode.Wired build mode) mergeModes := by
  intro claim
  have five : Mode.Wired ⟨false, false, false⟩ (noJoins 5) := ⟨['j'], ["0:5".toList, "nick".toList], _, rfl⟩
  have three : Mode.Wired ⟨false, false, false⟩ (noJoins 3) := ⟨['j'], ["0:3".toList, "nick".toList], _, rfl⟩
  have same := (claim ⟨false, false, false⟩).comm _ _ (.inr five) (.inr three)
  exact absurd (congrArg Mode.joinTime same) (by decide)

end SolidIrcd.Channel
