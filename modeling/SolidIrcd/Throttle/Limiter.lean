import Mathlib.Data.List.Nodup
import SolidIrcd.Common

/-! The connection throttle: one record for each address, which `throttle_check` consults
and `throttle_timer` drops again. -/

namespace SolidIrcd.Throttling

open Scan (Text)

/-- `throttle_tcount`, `throttle_ttime` and `throttle_rtime`. -/
structure Settings where
  tcount : Int
  ttime : Int
  rtime : Int
  deriving DecidableEq, Repr

/-- `struct throttle_t`. -/
structure Throttle where
  addr : Text
  conns : Int
  first : Int
  last : Int
  zlineStart : Int
  stage : Int
  reZlines : Nat
  deriving DecidableEq, Repr

/-- `throttle_get_zline_time`, in seconds. -/
def getZlineTime (stage : Int) : Int :=
  if stage = -1 then 0
  else if stage = 0 then 120
  else if stage = 1 then 300
  else if stage = 2 then 900
  else if stage = 3 then 1800
  else 3600

/-- A host that was not seen before. -/
def Throttle.fresh (host : Text) (sotime : Int) : Throttle := ⟨host, 0, sotime, 0, 0, -1, 0⟩

/-- One connection more, unless the throttle is forced. -/
def Throttle.counted (tp : Throttle) (sotime : Int) : Throttle :=
  { tp with conns := if tp.conns ≥ 0 then tp.conns + 1 else tp.conns, last := sotime }

/-- `throttle_check` from the comment "got a throttle" on; `isLocal` stands for a descriptor. -/
def Throttle.connect (settings : Settings) (isLocal : Bool) (sotime : Int) (tp : Throttle) : Bool × Throttle :=
  let tp := tp.counted sotime
  if sotime - tp.first > settings.ttime then (true, { tp with conns := 1, first := sotime })
  else if tp.conns = -1 then (false, tp)
  else if tp.conns ≥ settings.tcount then
    (false, if isLocal then { tp with stage := tp.stage + 1, zlineStart := sotime } else tp)
  else (true, tp)

/-- `throttle_check` once it has looked for the record of the host. -/
def checkEntry (settings : Settings) (host : Text) (isLocal : Bool) (sotime : Int) : Option Throttle → Bool × Throttle
  | none => (Throttle.fresh host sotime).connect settings isLocal sotime
  | some tp =>
    if tp.zlineStart ≠ 0 then
      if sotime - tp.zlineStart < getZlineTime tp.stage then
        (false, if isLocal then { tp with reZlines := tp.reZlines + 1, zlineStart := sotime } else tp)
      else { tp with conns := 0, first := sotime, zlineStart := 0 }.connect settings isLocal sotime
    else tp.connect settings isLocal sotime

/-- `hash_find`, on the list of the records. -/
def find (throttles : List Throttle) (host : Text) : Option Throttle := throttles.find? fun tp => tp.addr == host

/-- A record is changed in place, or a new one comes in front. -/
def store (throttles : List Throttle) (tp : Throttle) : List Throttle :=
  if (find throttles tp.addr).isSome then throttles.map fun other => if other.addr = tp.addr then tp else other
  else tp :: throttles

/-- `throttle_check` with THROTTLE_ENABLE. -/
def throttleCheck (settings : Settings) (throttles : List Throttle) (host : Text) (isLocal : Bool) (now sotime : Int) :
    Bool × List Throttle :=
  if isLocal = false ∧ now - sotime > settings.ttime then (true, throttles)
  else
    let sotime := if sotime > now then now else sotime
    let (accepted, tp) := checkEntry settings host isLocal sotime (find throttles host)
    (accepted, store throttles tp)

/-- The test of `throttle_timer`. -/
def Throttle.stale (settings : Settings) (now : Int) (tp : Throttle) : Bool :=
  now = 0 || (tp.zlineStart ≠ 0 && now - tp.zlineStart ≥ getZlineTime tp.stage + settings.rtime) ||
    (tp.zlineStart = 0 && now - tp.last ≥ settings.rtime)

/-- `throttle_timer`. -/
def throttleTimer (settings : Settings) (throttles : List Throttle) (now : Int) : List Throttle :=
  throttles.filter fun tp => !tp.stale settings now

/-- A local client connects, or the timer runs. -/
inductive Event where
  | connect (host : Text) (now : Int)
  | timer (now : Int)
  deriving DecidableEq, Repr

def Event.time : Event → Int
  | .connect _ now => now
  | .timer now => now

/-- The records, and who was accepted, the newest first. -/
structure State where
  throttles : List Throttle
  accepted : List (Text × Int)
  deriving DecidableEq, Repr

def State.start : State := ⟨[], []⟩

def State.perform (settings : Settings) (state : State) : Event → State
  | .connect host now =>
    let (accepted, throttles) := throttleCheck settings state.throttles host true now now
    ⟨throttles, if accepted then (host, now) :: state.accepted else state.accepted⟩
  | .timer now => { state with throttles := throttleTimer settings state.throttles now }

def State.run (settings : Settings) (state : State) (events : List Event) : State :=
  events.foldl (State.perform settings) state

/-- When a host was accepted. -/
def State.times (state : State) (host : Text) : List Int :=
  (state.accepted.filter fun item => item.1 == host).map Prod.snd

/-- Time goes on; zero stands for no time. -/
structure Ordered (events : List Event) : Prop where
  sorted : (events.map Event.time).Pairwise (· ≤ ·)
  positive : ∀ event ∈ events, 0 < event.time

variable {settings : Settings} {throttles : List Throttle} {state : State}

theorem connect_addr (isLocal : Bool) (sotime : Int) (tp : Throttle) :
    (tp.connect settings isLocal sotime).2.addr = tp.addr := by
  have same : (tp.counted sotime).addr = tp.addr := rfl
  unfold Throttle.connect
  generalize tp.counted sotime = counted at *
  simp only
  split
  · exact same
  · split
    · exact same
    · split
      · split <;> exact same
      · exact same

theorem checkEntry_addr (own : ∀ tp, entry = some tp → tp.addr = host) (isLocal : Bool) (sotime : Int) :
    (checkEntry settings host isLocal sotime entry).2.addr = host := by
  cases entry with
  | none => exact connect_addr isLocal sotime _
  | some tp =>
    have here := own tp rfl
    unfold checkEntry
    simp only
    split
    · split
      · split
        · exact here
        · exact here
      · rw [connect_addr]
        exact here
    · rw [connect_addr]
      exact here

theorem find_addr (found : find throttles host = some tp) : tp.addr = host := by
  have passes := List.find?_some found
  simpa using passes

private theorem find_map (replaced : Throttle) (host : Text) (throttles : List Throttle) :
    find (throttles.map fun other => if other.addr = replaced.addr then replaced else other) host =
      if replaced.addr = host then (find throttles host).map fun _ => replaced else find throttles host := by
  induction throttles with
  | nil =>
    split
    · rfl
    · rfl
  | cons first rest ih =>
    unfold find at ih ⊢
    rw [List.map_cons]
    by_cases same : first.addr = replaced.addr
    · rw [if_pos same]
      by_cases here : replaced.addr = host
      · rw [List.find?_cons_of_pos (by simpa using here), List.find?_cons_of_pos (by simpa [same] using here),
          if_pos here]
        rfl
      · rw [List.find?_cons_of_neg (by simpa using here), List.find?_cons_of_neg (by simpa [same] using here), ih]
    · rw [if_neg same]
      by_cases own : first.addr = host
      · have elsewhere : replaced.addr ≠ host := fun here => same (own.trans here.symm)
        rw [List.find?_cons_of_pos (by simpa using own), List.find?_cons_of_pos (by simpa using own),
          if_neg elsewhere]
      · rw [List.find?_cons_of_neg (by simpa using own), List.find?_cons_of_neg (by simpa using own), ih]

theorem find_store (throttles : List Throttle) (tp : Throttle) (host : Text) :
    find (store throttles tp) host = if tp.addr = host then some tp else find throttles host := by
  unfold store
  by_cases here : tp.addr = host
  · rw [if_pos here, here]
    cases found : find throttles host with
    | none => simp [find, here]
    | some old =>
      have mapped := find_map tp host throttles
      rw [here, if_pos rfl, found] at mapped
      simpa using mapped
  · rw [if_neg here]
    split
    · have mapped := find_map tp host throttles
      rwa [if_neg here] at mapped
    · simp [find, here]

theorem nodup_store (unique : (throttles.map Throttle.addr).Nodup) (tp : Throttle) :
    ((store throttles tp).map Throttle.addr).Nodup := by
  unfold store
  split
  · have same : (throttles.map fun other => if other.addr = tp.addr then tp else other).map Throttle.addr =
        throttles.map Throttle.addr := by
      rw [List.map_map]
      apply List.map_congr_left
      intro other _
      simp only [Function.comp_apply]
      split
      next own => exact own.symm
      next => rfl
    rwa [same]
  · rename_i missing
    rw [List.map_cons, List.nodup_cons]
    refine ⟨?_, unique⟩
    intro member
    obtain ⟨other, there, own⟩ := List.mem_map.mp member
    apply missing
    rw [find, List.find?_isSome]
    exact ⟨other, there, by simpa using own⟩

theorem find_timer (unique : (throttles.map Throttle.addr).Nodup) (now : Int) (host : Text) :
    find (throttleTimer settings throttles now) host =
      (find throttles host).filter fun tp => !tp.stale settings now := by
  unfold find throttleTimer
  induction throttles with
  | nil => rfl
  | cons first rest ih =>
    rw [List.map_cons, List.nodup_cons] at unique
    have later := ih unique.2
    by_cases own : first.addr = host
    · have none : rest.find? (fun tp => tp.addr == host) = none := by
        rw [List.find?_eq_none]
        intro other member same
        exact unique.1 (List.mem_map.mpr ⟨other, member, by simpa [own] using same⟩)
      cases stale : first.stale settings now with
      | true => simp [Option.filter, stale, own, later, none]
      | false => simp [Option.filter, stale, own]
    · cases stale : first.stale settings now with
      | true => simp [stale, own, later]
      | false => simp [stale, own, later]

end SolidIrcd.Throttling
