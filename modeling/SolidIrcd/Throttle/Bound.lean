import SolidIrcd.Throttle.Limiter

/-! How many connections a host gets accepted. The accepted times fall into windows, each
with fewer than `throttle_tcount` of them; what is two windows back is too old to be in one
interval with the present. -/

namespace SolidIrcd.Throttling

open Scan (Text)

/-- No interval of that length has more than `bound` of the times. -/
def Within (length : Int) (bound : Int) (times : List Int) : Prop :=
  ∀ start, ((times.filter fun time => start ≤ time ∧ time ≤ start + length).length : Int) ≤ bound

/-- The accepted times, the newest first: those of the window that began at `first`, those of
the window before it, and all others. -/
structure Windows where
  first : Int
  cur : List Int
  prev : List Int
  older : List Int

def Windows.all (windows : Windows) : List Int := windows.cur ++ windows.prev ++ windows.older

/-- What the throttle is set to: SET refuses other counts, and a time below five. The shortest
z-lines last 120 and 300 seconds. -/
structure Settings.Sane (settings : Settings) : Prop where
  count : 2 ≤ settings.tcount
  time : 1 ≤ settings.ttime
  record : settings.ttime ≤ settings.rtime
  short : settings.ttime ≤ 120 ∨ (settings.tcount = 2 ∧ settings.ttime < 420)

structure Windows.Paced (settings : Settings) (windows : Windows) : Prop where
  bound : Within settings.ttime (2 * (settings.tcount - 1)) windows.all
  few : (windows.cur.length : Int) ≤ settings.tcount - 1
  fewPrev : (windows.prev.length : Int) ≤ settings.tcount - 1
  began : windows.first ∈ windows.cur
  inside : ∀ time ∈ windows.cur, windows.first ≤ time ∧ time ≤ windows.first + settings.ttime
  before : ∀ time ∈ windows.prev, time < windows.first
  far : ∀ time ∈ windows.older, time + settings.ttime < windows.first

/-- How far the window before lies back; `marked` tells that a z-line lies between. -/
def Windows.Gap (settings : Settings) (windows : Windows) (marked : Prop) : Prop :=
  ∀ time ∈ windows.prev, settings.ttime ≤ 120 ∨ time + settings.ttime ≤ windows.first ∨
    (time + 120 ≤ windows.first ∧ marked)

/-- How the record of the host goes with the windows. -/
inductive Phase (settings : Settings) (windows : Windows) (now : Int) : Option Throttle → Prop where
  | gone (past : ∀ time ∈ windows.cur, time + settings.ttime ≤ now) : Phase settings windows now none
  | counting (tp : Throttle) (clear : tp.zlineStart = 0) (first : tp.first = windows.first)
      (conns : tp.conns = windows.cur.length) (last : ∀ time ∈ windows.cur, time ≤ tp.last) (past : tp.last ≤ now)
      (stage : -1 ≤ tp.stage) (gap : windows.Gap settings (0 ≤ tp.stage)) : Phase settings windows now (some tp)
  | zlined (tp : Throttle) (set : tp.zlineStart ≠ 0) (last : ∀ time ∈ windows.cur, time ≤ tp.zlineStart)
      (past : tp.zlineStart ≤ now) (stage : 0 ≤ tp.stage) (gap : windows.Gap settings (1 ≤ tp.stage)) :
      Phase settings windows now (some tp)

variable {settings : Settings} {windows : Windows}

theorem Phase.later (phase : Phase settings windows now entry) (on : now ≤ now') : Phase settings windows now' entry := by
  cases phase with
  | gone past => exact .gone fun time member => Int.le_trans (past time member) on
  | counting tp clear first conns last past stage gap =>
    exact .counting tp clear first conns last (Int.le_trans past on) stage gap
  | zlined tp set last past stage gap => exact .zlined tp set last (Int.le_trans past on) stage gap

/-- One time more keeps the bound when it is far from all but two short lists. -/
theorem Within.cons {near : List Int} (within : Within length bound (near ++ far)) (time : Int)
    (few : (near.length : Int) + 1 ≤ bound) (apart : ∀ old ∈ far, old + length < time) :
    Within length bound (time :: (near ++ far)) := by
  intro start
  by_cases inside : start ≤ time ∧ time ≤ start + length
  · have none : far.filter (fun old => decide (start ≤ old ∧ old ≤ start + length)) = [] := by
      rw [List.filter_eq_nil_iff]
      intro old member
      have gap := apart old member
      simp only [decide_eq_true_eq]
      omega
    rw [List.filter_cons_of_pos (by simpa using inside), List.filter_append, none, List.append_nil, List.length_cons]
    have less := List.length_filter_le (fun old => decide (start ≤ old ∧ old ≤ start + length)) near
    omega
  · rw [List.filter_cons_of_neg (by simpa using inside)]
    exact within start

/-- One more in the same window. -/
def Windows.again (windows : Windows) (time : Int) : Windows := { windows with cur := time :: windows.cur }

/-- A new window. -/
def Windows.anew (windows : Windows) (time : Int) : Windows :=
  ⟨time, [time], windows.cur, windows.prev ++ windows.older⟩

theorem Windows.Paced.again (paced : windows.Paced settings) (room : (windows.cur.length : Int) + 1 ≤ settings.tcount - 1)
    (low : windows.first ≤ time) (high : time ≤ windows.first + settings.ttime) :
    (windows.again time).Paced settings where
  bound := by
    have few := paced.fewPrev
    have old : Within settings.ttime (2 * (settings.tcount - 1)) ((windows.cur ++ windows.prev) ++ windows.older) :=
      paced.bound
    refine old.cons time ?_ ?_
    · rw [List.length_append]
      omega
    · intro other member
      have far := paced.far other member
      omega
  few := by
    simp only [Windows.again, List.length_cons]
    omega
  fewPrev := paced.fewPrev
  began := List.mem_cons_of_mem _ paced.began
  inside := by
    intro other member
    obtain rfl | member := List.mem_cons.mp member
    · exact ⟨low, high⟩
    · exact paced.inside other member
  before := paced.before
  far := paced.far

theorem Windows.Paced.anew (sane : settings.Sane) (paced : windows.Paced settings)
    (after : ∀ other ∈ windows.cur, other < time) (apart : ∀ other ∈ windows.prev, other + settings.ttime < time) :
    (windows.anew time).Paced settings where
  bound := by
    have count := sane.count
    have few := paced.few
    have old : Within settings.ttime (2 * (settings.tcount - 1)) (windows.cur ++ (windows.prev ++ windows.older)) := by
      rw [← List.append_assoc]
      exact paced.bound
    refine old.cons time (by omega) ?_
    intro other member
    obtain prev | older := List.mem_append.mp member
    · exact apart other prev
    · have far := paced.far other older
      have on := after _ paced.began
      omega
  few := by
    have count := sane.count
    simp only [Windows.anew, List.length_singleton]
    omega
  fewPrev := paced.few
  began := List.mem_singleton_self _
  inside := by
    intro other member
    obtain rfl := List.mem_singleton.mp member
    have positive := sane.time
    constructor
    · exact Int.le_refl _
    · simp only [Windows.anew]
      omega
  before := after
  far := by
    intro other member
    obtain prev | older := List.mem_append.mp member
    · exact apart other prev
    · have far := paced.far other older
      have on := after _ paced.began
      simp only [Windows.anew]
      omega

theorem getZlineTime_ge (stage : Int) (low : 0 ≤ stage) : 120 ≤ getZlineTime stage ∧
    (1 ≤ stage → 300 ≤ getZlineTime stage) := by
  unfold getZlineTime
  split
  · omega
  · split
    · omega
    · split
      · omega
      · split
        · omega
        · split <;> omega

/-- A host and when it was accepted. -/
inductive HostKept (settings : Settings) (now : Int) : Option Throttle → List Int → Prop where
  | unseen : HostKept settings now none []
  | seen (windows : Windows) (paced : windows.Paced settings) (phase : Phase settings windows now entry) :
      HostKept settings now entry windows.all

theorem HostKept.later (kept : HostKept settings now entry times) (on : now ≤ now') :
    HostKept settings now' entry times := by
  cases kept with
  | unseen => exact .unseen
  | seen windows paced phase => exact .seen windows paced (phase.later on)

/-- The first connection of a window is accepted. -/
theorem connect_first (sane : settings.Sane) (tp : Throttle) (zero : tp.conns = 0) (first : tp.first = sotime) :
    tp.connect settings true sotime = (true, { tp with conns := 1, last := sotime }) := by
  have count := sane.count
  have time := sane.time
  have counted : tp.counted sotime = { tp with conns := 1, last := sotime } := by
    simp [Throttle.counted, zero]
  rw [Throttle.connect, counted]
  simp only
  rw [if_neg (by omega), if_neg (by omega), if_neg (by omega)]

private theorem all_again (windows : Windows) (time : Int) : (windows.again time).all = time :: windows.all := rfl

private theorem all_anew (windows : Windows) (time : Int) : (windows.anew time).all = time :: windows.all := by
  simp [Windows.all, Windows.anew]

private theorem only_one {times : List Int} (single : times.length ≤ 1) (left : time ∈ times) (right : time' ∈ times) :
    time = time' := by
  match times, single with
  | [only], _ =>
    rw [List.mem_singleton] at left right
    rw [left, right]

section Connect

variable {now sotime : Int} (sane : settings.Sane) (paced : windows.Paced settings) (on : now ≤ sotime)

include sane paced on

/-- The record was dropped: a new window begins. -/
private theorem connect_gone (past : ∀ time ∈ windows.cur, time + settings.ttime ≤ now) (host : Text) :
    HostKept settings sotime (some (checkEntry settings host true sotime none).2)
      (if (checkEntry settings host true sotime none).1 then sotime :: windows.all else windows.all) := by
  have positive := sane.time
  have began := past _ paced.began
  have accepted : checkEntry settings host true sotime none =
      (true, { Throttle.fresh host sotime with conns := 1, last := sotime }) := connect_first sane _ rfl rfl
  rw [accepted, if_pos rfl, ← all_anew]
  refine .seen _ (paced.anew sane ?_ ?_) (.counting _ rfl rfl rfl ?_ (Int.le_refl _) (Int.le_refl _) ?_)
  · intro other member
    have earlier := past other member
    omega
  · intro other member
    have before := paced.before other member
    omega
  · intro other member
    obtain rfl := List.mem_singleton.mp member
    exact Int.le_refl _
  · intro other member
    have earlier := past other member
    exact .inr (.inl (Int.le_trans earlier on))

/-- The record counts: the window goes on, ends, or is full. -/
private theorem connect_counting (someTime : 0 < sotime) (tp : Throttle) (clear : tp.zlineStart = 0)
    (first : tp.first = windows.first) (conns : tp.conns = windows.cur.length)
    (last : ∀ time ∈ windows.cur, time ≤ tp.last) (past : tp.last ≤ now) (stage : -1 ≤ tp.stage)
    (gap : windows.Gap settings (0 ≤ tp.stage)) :
    HostKept settings sotime (some (tp.connect settings true sotime).2)
      (if (tp.connect settings true sotime).1 then sotime :: windows.all else windows.all) := by
  have count := sane.count
  have began := last _ paced.began
  have counted : tp.counted sotime = { tp with conns := windows.cur.length + 1, last := sotime } := by
    simp [Throttle.counted, conns]
  rw [Throttle.connect, counted]
  simp only [first]
  by_cases ended : sotime - windows.first > settings.ttime
  · rw [if_pos ended]
    simp only [if_true]
    rw [← all_anew]
    refine .seen _ (paced.anew sane ?_ ?_) (.counting _ clear rfl rfl ?_ (Int.le_refl _) stage ?_)
    · intro other member
      have inside := paced.inside other member
      omega
    · intro other member
      have before := paced.before other member
      omega
    · intro other member
      obtain rfl := List.mem_singleton.mp member
      exact Int.le_refl _
    · intro other member
      obtain short | ⟨two, -⟩ := sane.short
      · exact .inl short
      · have single : windows.cur.length ≤ 1 := by
          have few := paced.few
          omega
        have same : other = windows.first := only_one single member paced.began
        refine .inr (.inl ?_)
        simp only [Windows.anew]
        omega
  · rw [if_neg ended, if_neg (by omega)]
    by_cases full : (windows.cur.length : Int) + 1 ≥ settings.tcount
    · rw [if_pos full]
      simp only [if_true, Bool.false_eq_true, if_false]
      refine .seen _ paced (.zlined _ ?_ ?_ (Int.le_refl _) ?_ ?_)
      · exact Int.ne_of_gt someTime
      · intro other member
        have earlier := last other member
        simp only
        omega
      · simp only
        omega
      · intro other member
        refine (gap other member).imp_right fun gap => gap.imp_right fun gap => ⟨gap.1, ?_⟩
        have marked := gap.2
        simp only
        omega
    · rw [if_neg full]
      simp only [if_true]
      rw [← all_again]
      refine .seen _ (paced.again (by omega) (by omega) (by omega))
        (.counting _ clear rfl ?_ ?_ (Int.le_refl _) stage gap)
      · simp [Windows.again]
      · intro other member
        obtain rfl | member := List.mem_cons.mp member
        · exact Int.le_refl _
        · have earlier := last other member
          simp only
          omega

/-- The host is z-lined: it stays so, or a new window begins. -/
private theorem connect_zlined (someTime : 0 < sotime) (tp : Throttle) (set : tp.zlineStart ≠ 0)
    (last : ∀ time ∈ windows.cur, time ≤ tp.zlineStart) (past : tp.zlineStart ≤ now) (stage : 0 ≤ tp.stage)
    (gap : windows.Gap settings (1 ≤ tp.stage)) (host : Text) :
    HostKept settings sotime (some (checkEntry settings host true sotime (some tp)).2)
      (if (checkEntry settings host true sotime (some tp)).1 then sotime :: windows.all else windows.all) := by
  obtain ⟨long, longer⟩ := getZlineTime_ge tp.stage stage
  have began := last _ paced.began
  rw [checkEntry, if_pos set]
  by_cases still : sotime - tp.zlineStart < getZlineTime tp.stage
  · rw [if_pos still]
    simp only [if_true, Bool.false_eq_true, if_false]
    refine .seen _ paced (.zlined _ ?_ ?_ (Int.le_refl _) stage gap)
    · exact Int.ne_of_gt someTime
    · intro other member
      have earlier := last other member
      simp only
      omega
  · have accepted : { tp with conns := 0, first := sotime, zlineStart := 0 }.connect settings true sotime =
        (true, { tp with conns := 1, first := sotime, last := sotime, zlineStart := 0 }) :=
      connect_first sane _ rfl rfl
    rw [if_neg still, accepted, if_pos rfl]
    rw [← all_anew]
    refine .seen _ (paced.anew sane ?_ ?_) (.counting _ rfl rfl rfl ?_ (Int.le_refl _) (by simp only; omega) ?_)
    · intro other member
      have earlier := last other member
      omega
    · intro other member
      have before := paced.before other member
      have short := sane.short
      obtain short | back | ⟨back, marked⟩ := gap other member
      · omega
      · omega
      · have much := longer marked
        omega
    · intro other member
      obtain rfl := List.mem_singleton.mp member
      exact Int.le_refl _
    · intro other member
      have earlier := last other member
      refine .inr (.inr ⟨?_, stage⟩)
      simp only [Windows.anew]
      omega

end Connect

theorem HostKept.connect (sane : settings.Sane) (kept : HostKept settings now entry times) (on : now ≤ sotime)
    (someTime : 0 < sotime) (host : Text) :
    HostKept settings sotime (some (checkEntry settings host true sotime entry).2)
      (if (checkEntry settings host true sotime entry).1 then sotime :: times else times) := by
  cases kept with
  | unseen =>
    have positive := sane.time
    have count := sane.count
    have accepted : checkEntry settings host true sotime none =
        (true, { Throttle.fresh host sotime with conns := 1, last := sotime }) := connect_first sane _ rfl rfl
    rw [accepted, if_pos rfl]
    have only : ∀ time ∈ [sotime], time = sotime := fun _ member => List.mem_singleton.mp member
    refine .seen ⟨sotime, [sotime], [], []⟩ ⟨?_, ?_, ?_, List.mem_singleton_self _, ?_, ?_, ?_⟩
      (.counting _ rfl rfl rfl ?_ (Int.le_refl _) (Int.le_refl _) ?_)
    · intro start
      have less := List.length_filter_le (fun time => decide (start ≤ time ∧ time ≤ start + settings.ttime)) [sotime]
      simp only [List.length_singleton] at less
      simp only [Windows.all, List.append_nil]
      omega
    · simp only [List.length_singleton]
      omega
    · simp only [List.length_nil]
      omega
    · intro time member
      obtain rfl := only time member
      simp only
      omega
    · simp
    · simp
    · intro time member
      obtain rfl := only time member
      exact Int.le_refl _
    · simp [Windows.Gap]
  | seen windows paced phase =>
    cases phase with
    | gone past => exact connect_gone sane paced on past host
    | counting tp clear first conns last past stage gap =>
      rw [checkEntry, if_neg (not_not.mpr clear)]
      exact connect_counting sane paced on someTime tp clear first conns last past stage gap
    | zlined tp set last past stage gap => exact connect_zlined sane paced on someTime tp set last past stage gap host

theorem HostKept.timer (sane : settings.Sane) (kept : HostKept settings now entry times) (on : now ≤ now')
    (someTime : 0 < now') : HostKept settings now' (entry.filter fun tp => !tp.stale settings now') times := by
  have record := sane.record
  cases kept with
  | unseen => exact .unseen
  | seen windows paced phase =>
    refine .seen windows paced ?_
    cases phase with
    | gone past => exact (Phase.gone past).later on
    | counting tp clear first conns last past stage gap =>
      cases stale : tp.stale settings now' with
      | false =>
        rw [Option.filter, stale]
        exact (Phase.counting tp clear first conns last past stage gap).later on
      | true =>
        rw [Option.filter, stale]
        have aged : now' - tp.last ≥ settings.rtime := by
          simp only [Throttle.stale, clear] at stale
          simp at stale
          omega
        refine .gone fun time member => ?_
        have earlier := last time member
        omega
    | zlined tp set last past stage gap =>
      cases stale : tp.stale settings now' with
      | false =>
        rw [Option.filter, stale]
        exact (Phase.zlined tp set last past stage gap).later on
      | true =>
        rw [Option.filter, stale]
        have aged : now' - tp.zlineStart ≥ getZlineTime tp.stage + settings.rtime := by
          simp only [Throttle.stale] at stale
          simp [set] at stale
          omega
        have long := (getZlineTime_ge tp.stage stage).1
        refine .gone fun time member => ?_
        have earlier := last time member
        omega

/-- There is one record for a host at most, and every host is kept. -/
structure State.Kept (settings : Settings) (now : Int) (state : State) : Prop where
  unique : (state.throttles.map Throttle.addr).Nodup
  hosts : ∀ host, HostKept settings now (find state.throttles host) (state.times host)

variable {state : State}

theorem find_connect (settings : Settings) (state : State) (host other : Text) (now : Int) :
    find (state.perform settings (.connect host now)).throttles other =
      if host = other then some (checkEntry settings host true now (find state.throttles host)).2
      else find state.throttles other := by
  have own : (checkEntry settings host true now (find state.throttles host)).2.addr = host :=
    checkEntry_addr (fun _ found => find_addr found) true now
  simp only [State.perform, throttleCheck, Bool.true_eq_false, false_and, if_false, gt_iff_lt, Int.lt_irrefl,
    find_store, own]

theorem times_connect (settings : Settings) (state : State) (host other : Text) (now : Int) :
    (state.perform settings (.connect host now)).times other =
      if host = other ∧ (checkEntry settings host true now (find state.throttles host)).1 = true then
        now :: state.times other
      else state.times other := by
  simp only [State.perform, throttleCheck, Bool.true_eq_false, false_and, if_false, gt_iff_lt, Int.lt_irrefl,
    State.times]
  by_cases accepted : (checkEntry settings host true now (find state.throttles host)).1 = true
  · by_cases same : host = other
    · subst same
      simp [accepted]
    · simp [accepted, same]
  · simp [accepted]

theorem State.Kept.perform (sane : settings.Sane) (kept : state.Kept settings now) (on : now ≤ event.time)
    (someTime : 0 < event.time) : (state.perform settings event).Kept settings event.time := by
  cases event with
  | connect host sotime =>
    refine ⟨nodup_store kept.unique _, ?_⟩
    intro other
    rw [find_connect, times_connect]
    by_cases same : host = other
    · subst same
      simp only [if_true, true_and]
      exact (kept.hosts host).connect sane on someTime host
    · simp only [same, if_false, false_and]
      exact (kept.hosts other).later on
  | timer now' =>
    refine ⟨kept.unique.sublist (List.filter_sublist.map _), ?_⟩
    intro host
    simp only [State.perform, find_timer kept.unique]
    exact (kept.hosts host).timer sane on someTime

/-- From `now` on the times go up. -/
theorem State.Kept.run (sane : settings.Sane) (kept : state.Kept settings now) (ordered : Ordered events)
    (on : ∀ event ∈ events, now ≤ event.time) :
    ∃ now', (state.run settings events).Kept settings now' ∧ (now' = now ∨ ∃ event ∈ events, now' = event.time) := by
  induction events generalizing state now with
  | nil => exact ⟨now, kept, .inl rfl⟩
  | cons event events ih =>
    have sorted := ordered.sorted
    rw [List.map_cons, List.pairwise_cons] at sorted
    have step := kept.perform sane (on event (List.mem_cons_self ..)) (ordered.positive event (List.mem_cons_self ..))
    have rest : Ordered events := ⟨sorted.2, fun other member => ordered.positive other (List.mem_cons_of_mem _ member)⟩
    obtain ⟨now', final, last⟩ := ih step rest fun other member => sorted.1 _ (List.mem_map_of_mem member)
    refine ⟨now', final, .inr ?_⟩
    obtain rfl | ⟨other, member, same⟩ := last
    · exact ⟨event, List.mem_cons_self .., rfl⟩
    · exact ⟨other, List.mem_cons_of_mem _ member, same⟩

theorem State.Kept.start (now : Int) : State.start.Kept settings now := ⟨List.nodup_nil, fun _ => .unseen⟩

theorem HostKept.within (sane : settings.Sane) (kept : HostKept settings now entry times) :
    Within settings.ttime (2 * (settings.tcount - 1)) times := by
  cases kept with
  | unseen =>
    intro start
    have count := sane.count
    simp only [List.filter_nil, List.length_nil]
    omega
  | seen windows paced phase => exact paced.bound

/-- While the z-line lasts, the host is refused and its record stays. -/
theorem zline_step (record : 0 ≤ settings.rtime) (unique : (state.throttles.map Throttle.addr).Nodup)
    (found : find state.throttles host = some tp) (set : tp.zlineStart ≠ 0) (after : tp.zlineStart ≤ event.time)
    (someTime : 0 < event.time) (still : event.time < tp.zlineStart + getZlineTime tp.stage) :
    (state.perform settings event).times host = state.times host ∧
      ∃ tp', find (state.perform settings event).throttles host = some tp' ∧ tp'.zlineStart ≠ 0 ∧
        tp.zlineStart ≤ tp'.zlineStart ∧ tp'.zlineStart ≤ max tp.zlineStart event.time ∧ tp'.stage = tp.stage := by
  cases event with
  | connect other now =>
    simp only [Event.time] at after someTime still
    rw [find_connect, times_connect]
    by_cases same : other = host
    · subst same
      have refused : checkEntry settings other true now (some tp) =
          (false, { tp with reZlines := tp.reZlines + 1, zlineStart := now }) := by
        rw [checkEntry, if_pos set, if_pos (by omega)]
        rfl
      simp only [found, refused, Bool.false_eq_true, and_false, if_false, if_true, true_and]
      refine ⟨_, rfl, ?_, after, Int.le_max_right .., rfl⟩
      exact Int.ne_of_gt someTime
    · simp only [same, if_false, false_and, true_and]
      exact ⟨tp, found, set, Int.le_refl _, Int.le_max_left .., rfl⟩
  | timer now =>
    simp only [Event.time] at after someTime still
    refine ⟨rfl, tp, ?_, set, Int.le_refl _, Int.le_max_left .., rfl⟩
    have young : tp.stale settings now = false := by
      simp only [Throttle.stale, Bool.or_eq_false_iff, Bool.and_eq_false_iff, decide_eq_false_iff_not]
      refine ⟨⟨by omega, .inr (by omega)⟩, .inl set⟩
    simp only [State.perform, find_timer unique, found, Option.filter, young, Bool.not_false, if_true]

theorem nodup_perform (unique : (state.throttles.map Throttle.addr).Nodup) (event : Event) :
    ((state.perform settings event).throttles.map Throttle.addr).Nodup := by
  cases event with
  | connect host now => exact nodup_store unique _
  | timer now => exact unique.sublist (List.filter_sublist.map _)

theorem zline_run (record : 0 ≤ settings.rtime) (unique : (state.throttles.map Throttle.addr).Nodup)
    (found : find state.throttles host = some tp) (set : tp.zlineStart ≠ 0) (ordered : Ordered events)
    (after : ∀ event ∈ events, tp.zlineStart ≤ event.time)
    (still : ∀ event ∈ events, event.time < tp.zlineStart + getZlineTime tp.stage) :
    (state.run settings events).times host = state.times host := by
  induction events generalizing state tp with
  | nil => rfl
  | cons event events ih =>
    have sorted := ordered.sorted
    rw [List.map_cons, List.pairwise_cons] at sorted
    obtain ⟨same, tp', found', set', low, high, stage⟩ := zline_step record unique found set
      (after event (List.mem_cons_self ..)) (ordered.positive event (List.mem_cons_self ..))
      (still event (List.mem_cons_self ..))
    have rest : Ordered events := ⟨sorted.2, fun other member => ordered.positive other (List.mem_cons_of_mem _ member)⟩
    have later := ih (nodup_perform unique event) found' set' rest
      (fun other member => by
        have behind := after other (List.mem_cons_of_mem _ member)
        have next : event.time ≤ other.time := sorted.1 _ (List.mem_map_of_mem member)
        omega)
      (fun other member => by
        have early := still other (List.mem_cons_of_mem _ member)
        rw [stage]
        omega)
    exact later.trans same

theorem connect_stage (sotime : Int) (tp : Throttle) : tp.stage ≤ (tp.connect settings true sotime).2.stage := by
  have same : (tp.counted sotime).stage = tp.stage := rfl
  unfold Throttle.connect
  generalize tp.counted sotime = counted at *
  simp only [if_true]
  split
  · exact Int.le_of_eq same.symm
  · split
    · exact Int.le_of_eq same.symm
    · split
      · simp only
        omega
      · exact Int.le_of_eq same.symm

theorem checkEntry_stage (host : Text) (sotime : Int) (tp : Throttle) :
    tp.stage ≤ (checkEntry settings host true sotime (some tp)).2.stage := by
  unfold checkEntry
  simp only [if_true]
  split
  · split
    · exact Int.le_refl _
    · exact connect_stage sotime { tp with conns := 0, first := sotime, zlineStart := 0 }
  · exact connect_stage sotime tp

/-- A record that was not dropped has the stage it had, or a higher one. -/
theorem stage_run (unique : (state.throttles.map Throttle.addr).Nodup) (found : find state.throttles host = some tp)
    (stays : ∀ early, early <+: events → (find (state.run settings early).throttles host).isSome = true) :
    ∃ tp', find (state.run settings events).throttles host = some tp' ∧ tp.stage ≤ tp'.stage := by
  induction events generalizing state tp with
  | nil => exact ⟨tp, found, Int.le_refl _⟩
  | cons event events ih =>
    obtain ⟨next, found', up⟩ : ∃ next, find (state.perform settings event).throttles host = some next ∧
        tp.stage ≤ next.stage := by
      cases event with
      | connect other now =>
        rw [find_connect]
        by_cases same : other = host
        · subst same
          rw [if_pos rfl, found]
          exact ⟨_, rfl, checkEntry_stage other now tp⟩
        · rw [if_neg same]
          exact ⟨tp, found, Int.le_refl _⟩
      | timer now =>
        have there := stays [.timer now] (List.prefix_append [Event.timer now] events)
        simp only [State.run, List.foldl_cons, List.foldl_nil, State.perform, find_timer unique, found] at there ⊢
        cases stale : tp.stale settings now with
        | true => simp [Option.filter, stale] at there
        | false => exact ⟨tp, by simp [Option.filter, stale], Int.le_refl _⟩
    obtain ⟨tp', final, more⟩ := ih (nodup_perform unique event) found' fun early front =>
      stays (event :: early) (List.cons_prefix_cons.mpr ⟨rfl, front⟩)
    exact ⟨tp', final, Int.le_trans up more⟩

theorem Phase.zlineStart_le (phase : Phase settings windows now (some tp)) (set : tp.zlineStart ≠ 0) :
    tp.zlineStart ≤ now := by
  cases phase with
  | counting _ clear => exact absurd clear set
  | zlined _ _ _ past => exact past

/-- In every run: the bound, the z-line, and the stage. -/
theorem throttle_run (sane : settings.Sane) (ordered : Ordered (events ++ later)) (host : Text) :
    Within settings.ttime (2 * (settings.tcount - 1)) ((State.start.run settings events).times host) ∧
      ∀ tp, find (State.start.run settings events).throttles host = some tp →
        (tp.zlineStart ≠ 0 → (∀ event ∈ later, event.time < tp.zlineStart + getZlineTime tp.stage) →
          ((State.start.run settings events).run settings later).times host =
            (State.start.run settings events).times host) ∧
        ((∀ early, early <+: later →
            (find ((State.start.run settings events).run settings early).throttles host).isSome = true) →
          ∃ tp', find ((State.start.run settings events).run settings later).throttles host = some tp' ∧
            tp.stage ≤ tp'.stage) := by
  have sorted := ordered.sorted
  rw [List.map_append, List.pairwise_append] at sorted
  have first : Ordered events := ⟨sorted.1, fun event member => ordered.positive event (List.mem_append_left _ member)⟩
  have second : Ordered later :=
    ⟨sorted.2.1, fun event member => ordered.positive event (List.mem_append_right _ member)⟩
  obtain ⟨now, kept, last⟩ := (State.Kept.start 0).run sane first fun event member =>
    Int.le_of_lt (first.positive event member)
  have behind : ∀ event ∈ later, now ≤ event.time := by
    intro event member
    obtain rfl | ⟨other, there, rfl⟩ := last
    · exact Int.le_of_lt (second.positive event member)
    · exact sorted.2.2 _ (List.mem_map_of_mem there) _ (List.mem_map_of_mem member)
  refine ⟨(kept.hosts host).within sane, ?_⟩
  intro tp found
  refine ⟨?_, stage_run kept.unique found⟩
  intro set still
  have record := sane.record
  have time := sane.time
  have past : tp.zlineStart ≤ now := by
    have host := kept.hosts host
    rw [found] at host
    generalize (State.start.run settings events).times _ = times at host
    cases host with
    | seen windows paced phase => exact phase.zlineStart_le set
  exact zline_run (by omega) kept.unique found set second
    (fun event member => Int.le_trans past (behind event member)) still

/-- THROTTLE_TRIGCOUNT, THROTTLE_TRIGTIME and THROTTLE_RECORDTIME. -/
def usualSettings : Settings := ⟨3, 15, 1800⟩

/-- Three connections in one second, then one more and the timer before the z-line ends. -/
theorem thirdConnection_refused :
    ((State.start.run usualSettings [.connect ['h'] 1, .connect ['h'] 1, .connect ['h'] 1]).run usualSettings
      [.connect ['h'] 5, .timer 60]).times ['h'] = [1, 1] := by
  have sane : usualSettings.Sane := ⟨by decide, by decide, by decide, .inl (by decide)⟩
  have ordered : Ordered ([.connect ['h'] 1, .connect ['h'] 1, .connect ['h'] 1] ++ [.connect ['h'] 5, .timer 60]) :=
    ⟨by decide, by decide⟩
  have zlined := ((throttle_run sane ordered ['h']).2 ⟨['h'], 3, 1, 1, 1, 0, 0⟩ (by decide)).1 (by decide) (by decide)
  rw [zlined]
  decide

/-- SET takes a trigger time above two minutes. -/
def longSettings : Settings := ⟨3, 121, 1800⟩

/-- Two connections end one window, two fill the next, and two come right after its z-line: the
last five of them fall into 121 seconds. -/
def crowdedEvents : List Event :=
  [.connect ['h'] 1, .connect ['h'] 122, .connect ['h'] 123, .connect ['h'] 123, .connect ['h'] 123,
    .connect ['h'] 243, .connect ['h'] 243]

theorem crowdedEvents_exceed :
    Ordered crowdedEvents ∧ longSettings.ttime ≤ longSettings.rtime ∧ 2 ≤ longSettings.tcount ∧
      ¬ Within longSettings.ttime (2 * (longSettings.tcount - 1))
        ((State.start.run longSettings crowdedEvents).times ['h']) := by
  refine ⟨⟨by decide, by decide⟩, by decide, by decide, ?_⟩
  intro within
  have crowded := within 122
  revert crowded
  decide

end SolidIrcd.Throttling
