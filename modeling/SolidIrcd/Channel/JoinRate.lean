import SolidIrcd.Channel.Basic
import SolidIrcd.Lib.Machine
import SolidIrcd.Lib.Window

/-! `check_joinrate` of `channel.c`, and the count `m_join` keeps of those who got in. -/

namespace SolidIrcd.Channel

/-- The two windows of a channel. -/
structure JoinCounts where
  joinStart : Int
  joinCount : Int
  defaultJoinStart : Int
  defaultJoinCount : Int
  deriving DecidableEq, Repr

def defaultJoinNum : Int := 8
def defaultJoinTime : Int := 4

/-- The rate that applies: the channel's own one, or the default. -/
def Mode.joinLimit (mode : Mode) : Int × Int :=
  if mode.flags .joinRate then (mode.joinNum, mode.joinTime) else (defaultJoinNum, defaultJoinTime)

/-- The first section, which only warns operators. -/
def JoinCounts.checkDefault (counts : JoinCounts) (now : Int) : JoinCounts :=
  let counts :=
    if now - counts.defaultJoinStart > defaultJoinTime then
      { counts with defaultJoinStart := now, defaultJoinCount := 0 } else counts
  { counts with defaultJoinCount := counts.defaultJoinCount + 1 }

/-- `check_joinrate`. -/
def checkJoinrate (mode : Mode) (now ts : Int) (isLocal : Bool) (counts : JoinCounts) : Bool × JoinCounts :=
  if !isLocal && decide (now - ts > 60) then (true, counts)
  else
    let counts := counts.checkDefault now
    if mode.flags .joinRate && (mode.joinNum = 0 || mode.joinTime = 0) then (true, counts)
    else if now - counts.joinStart > mode.joinLimit.2 then (true, { counts with joinStart := now, joinCount := 0 })
    else (!(isLocal && decide (counts.joinCount ≥ mode.joinLimit.1)), counts)

/-- A channel that clients of this server try to join. `joins` only records, the newest first. -/
structure Door where
  counts : JoinCounts
  clock : Int
  joins : List Int

/-- One client at the door: `fine` is the rest of `can_join`. -/
structure Attempt where
  now : Int
  fine : Bool

/-- `can_join` and `m_join`, as far as the rate goes. -/
def Door.attempt (mode : Mode) (door : Door) (client : Attempt) : Door :=
  let (free, counts) := checkJoinrate mode client.now client.now true door.counts
  if free && client.fine then
    ⟨{ counts with joinCount := counts.joinCount + 1 }, client.now, client.now :: door.joins⟩
  else ⟨counts, client.now, door.joins⟩

def doorway (mode : Mode) : Machine Door Attempt := ⟨Door.attempt mode, fun door client => door.clock ≤ client.now⟩

/-- What `make_channel` leaves, and the letter `j`. -/
structure Door.Fresh (door : Door) : Prop where
  joinStart : door.counts.joinStart = 0
  joinCount : door.counts.joinCount = 0
  clock : 0 ≤ door.clock
  joins : door.joins = []

/-- The window of the channel is one of its rate, and started in the past. -/
structure Door.Counted (mode : Mode) (door : Door) : Prop where
  window : Window mode.joinLimit.1 mode.joinLimit.2 door.counts.joinStart door.counts.joinCount door.joins
  past : door.counts.joinStart ≤ door.clock

variable {mode : Mode}

@[simp] theorem checkDefault_joinStart (counts : JoinCounts) (now : Int) :
    (counts.checkDefault now).joinStart = counts.joinStart := by
  unfold JoinCounts.checkDefault
  split <;> rfl

@[simp] theorem checkDefault_joinCount (counts : JoinCounts) (now : Int) :
    (counts.checkDefault now).joinCount = counts.joinCount := by
  unfold JoinCounts.checkDefault
  split <;> rfl

/-- What `check_joinrate` answers for a client of this server, and what it leaves of the window. -/
theorem checkJoinrate_local (on : mode.flags .joinRate = true → mode.joinNum ≠ 0 ∧ mode.joinTime ≠ 0) (now ts : Int)
    (counts : JoinCounts) :
    checkJoinrate mode now ts true counts =
      if now - counts.joinStart > mode.joinLimit.2 then
        (true, { counts.checkDefault now with joinStart := now, joinCount := 0 })
      else (!decide (counts.joinCount ≥ mode.joinLimit.1), counts.checkDefault now) := by
  have used : (mode.flags .joinRate && (mode.joinNum = 0 || mode.joinTime = 0)) = false := by
    cases flag : mode.flags .joinRate with
    | false => rfl
    | true => simp [on flag]
  simp only [checkJoinrate, Bool.not_true, Bool.false_and, Bool.false_eq_true, if_false, used, checkDefault_joinStart,
    checkDefault_joinCount, Bool.true_and]

/-- What `check_joinrate` reads of the mode. -/
theorem checkJoinrate_congr {mode mode' : Mode} (flag : mode.flags .joinRate = mode'.flags .joinRate)
    (num : mode.joinNum = mode'.joinNum) (time : mode.joinTime = mode'.joinTime) (now ts : Int) (isLocal : Bool)
    (counts : JoinCounts) : checkJoinrate mode now ts isLocal counts = checkJoinrate mode' now ts isLocal counts := by
  unfold checkJoinrate Mode.joinLimit
  rw [flag, num, time]

theorem Door.Counted.attempt (counted : Door.Counted mode door)
    (on : mode.flags .joinRate = true → mode.joinNum ≠ 0 ∧ mode.joinTime ≠ 0) (some : 0 < mode.joinLimit.1)
    (positive : 0 ≤ mode.joinLimit.2) (client : Attempt) (later : door.clock ≤ client.now) :
    (door.attempt mode client).Counted mode := by
  obtain ⟨window, past⟩ := counted
  rw [Door.attempt, checkJoinrate_local on]
  by_cases late : client.now - door.counts.joinStart > mode.joinLimit.2
  · rw [if_pos late]
    have anew := window.renew (show door.counts.joinStart + mode.joinLimit.2 < client.now by omega)
    cases client.fine with
    | false => exact ⟨anew, Int.le_refl _⟩
    | true => exact ⟨anew.enter some (Int.le_refl _) (by omega), Int.le_refl _⟩
  · rw [if_neg late]
    by_cases full : door.counts.joinCount ≥ mode.joinLimit.1
    · simp only [full, decide_true, Bool.not_true, Bool.false_and, Bool.false_eq_true, if_false]
      exact ⟨by simpa using window, by simp only [checkDefault_joinStart]; omega⟩
    · cases client.fine with
      | false =>
        simp only [Bool.and_false, Bool.false_eq_true, if_false]
        exact ⟨by simpa using window, by simp only [checkDefault_joinStart]; omega⟩
      | true =>
        simp only [full, decide_false, Bool.not_false, Bool.and_self, if_true]
        have entered := window.enter (by omega) (show door.counts.joinStart ≤ client.now by omega) (by omega)
        exact ⟨by simpa using entered, by simp only [checkDefault_joinStart]; omega⟩

/-- No interval as long as the rate's time has more than twice its number of joins, and nobody
is refused as long as fewer than that number joined since the window started. -/
theorem joinrate_limits (num : 0 < mode.joinLimit.1) (time : 0 < mode.joinLimit.2) {first door : Door} (fresh : first.Fresh)
    (run : (doorway mode).Run Machine.Any first door) :
    (∀ low, Window.events low (low + mode.joinLimit.2) door.joins ≤ 2 * mode.joinLimit.1) ∧
      ∀ now, (door.joins.countP fun join => door.counts.joinStart ≤ join : Int) < mode.joinLimit.1 →
        (checkJoinrate mode now now true door.counts).1 = true := by
  have on : mode.flags .joinRate = true → mode.joinNum ≠ 0 ∧ mode.joinTime ≠ 0 := by
    intro flag
    simp only [Mode.joinLimit, flag, if_true] at num time
    omega
  have started : first.Counted mode := by
    refine ⟨?_, by rw [fresh.joinStart]; exact fresh.clock⟩
    rw [fresh.joinStart, fresh.joinCount, fresh.joins]
    exact .start 0
  have counted : door.Counted mode := by
    refine run.invariant (Door.Counted mode) ?_ started
    intro door client later _ counted
    exact counted.attempt on num (Int.le_of_lt time) client later
  refine ⟨fun low => (counted.window.events_le (Int.le_of_lt num) (Int.le_of_lt time) low).1, ?_⟩
  intro now few
  rw [counted.window.events_since (Int.le_of_lt time)] at few
  rw [checkJoinrate_local on]
  split
  · rfl
  · simp only [ge_iff_le, Bool.not_eq_true', decide_eq_false_iff_not, Int.not_le]
    exact few

private def twoInFive : Mode := ⟨fun flag => flag = .joinRate, 0, [], 2, 5⟩

private def atOnce : List Attempt := [⟨1000, true⟩, ⟨1000, false⟩, ⟨1001, true⟩, ⟨1004, true⟩, ⟨1006, true⟩]

private def lobby : Door := ⟨⟨0, 0, 0, 0⟩, 0, []⟩

private theorem in_turn (later : decide (Door.clock door ≤ client.now) = true) : (doorway mode).possible door client := by
  change door.clock ≤ client.now
  exact of_decide_eq_true later

/-- Two get in, the next one has to wait for the next window. -/
theorem joinrate_limits_crowd :
    (atOnce.foldl (doorway twoInFive).perform lobby).joins = [1006, 1001, 1000] ∧
      Window.events 1000 (1000 + 5) (atOnce.foldl (doorway twoInFive).perform lobby).joins ≤ 2 * 2 := by
  refine ⟨by decide +kernel, ?_⟩
  have run : (doorway twoInFive).Run Machine.Any lobby (atOnce.foldl (doorway twoInFive).perform lobby) := by
    apply Machine.Run.of_list atOnce (.refl _)
    refine ⟨?_, trivial, ?_, trivial, ?_, trivial, ?_, trivial, ?_, trivial, trivial⟩
    all_goals exact in_turn (by decide +kernel)
  exact (joinrate_limits (by decide) (by decide) ⟨rfl, rfl, by decide, rfl⟩ run).1 1000

end SolidIrcd.Channel
