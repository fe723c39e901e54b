import Mathlib.Data.Nat.Bitwise
import Mathlib.Logic.Function.Basic
import SolidIrcd.Common
import SolidIrcd.Lib.Machine

/-! The bytes received, counted in bytes and kilobytes for a client, for the listener it came
through and for the server: `dopacket` and `client_dopacket`. -/

namespace SolidIrcd.Bytes

open Scan (Text nul)
open Function (update)

abbrev ClientId := Nat
abbrev ListenerId := Nat

/-- The values of a `u_short`. -/
def shortRange : Nat := 65536

/-- The values of a `long`. -/
def longRange : Nat := 18446744073709551616

def intMax : Nat := 2147483647

structure Counter where
  receiveK : Nat
  receiveB : Nat
  deriving DecidableEq, Repr

def Counter.zero : Counter := ⟨0, 0⟩

def Counter.add (counter : Counter) (length : Nat) : Counter :=
  { counter with receiveB := (counter.receiveB + length) % shortRange }

def Counter.carry (counter : Counter) : Counter :=
  { receiveK := (counter.receiveK + counter.receiveB >>> 10) % longRange
    receiveB := counter.receiveB &&& 0x03ff }

/-- The test of `dopacket`. -/
def Counter.carryBit (counter : Counter) : Counter :=
  if counter.receiveB &&& 0x0400 ≠ 0 then counter.carry else counter

/-- The test of `client_dopacket`. -/
def Counter.carryMore (counter : Counter) : Counter :=
  if counter.receiveB > 1023 then counter.carry else counter

/-- The counters; `lstn` is the listener a client was accepted from. -/
structure State where
  me : Counter
  client : ClientId → Counter
  listener : ListenerId → Counter
  lstn : ClientId → Option ListenerId

/-- How many bytes each of them did receive. -/
structure Totals where
  me : Nat
  client : ClientId → Nat
  listener : ListenerId → Nat

/-- `dopacket`: with a listener, the counter of the server is not looked at. -/
def State.dopacket (state : State) (cptr : ClientId) (length : Nat) : State :=
  let me := state.me.add length
  let state := { state with client := update state.client cptr ((state.client cptr).add length).carryBit }
  match state.lstn cptr with
  | some lptr =>
    { state with me := me, listener := update state.listener lptr ((state.listener lptr).add length).carryBit }
  | none => { state with me := me.carryBit }

/-- What `strlen` finds after the `strncpy` to `buffer`; `beyond` bytes follow there before a NUL. -/
def copied (line : Text) (beyond : Nat) : Nat :=
  if ((line.take bufSize).takeWhile (· != nul)).length < bufSize then
    ((line.take bufSize).takeWhile (· != nul)).length
  else bufSize + beyond

/-- `client_dopacket`: a listener counts nothing here. -/
def State.clientDopacket (state : State) (cptr : ClientId) (line : Text) (beyond : Nat) : State :=
  let length := copied line beyond
  { state with
    client := update state.client cptr ((state.client cptr).add length).carryMore
    me := (state.me.add length).carryMore }

inductive Action where
  | listen (lptr : ListenerId)
  | connect (cptr : ClientId) (lstn : Option ListenerId)
  | dopacket (cptr : ClientId) (length : Nat)
  | clientDopacket (cptr : ClientId) (line : Text) (beyond : Nat)
  deriving DecidableEq, Repr

def State.perform (state : State) : Action → State
  | .listen lptr => { state with listener := update state.listener lptr .zero }
  | .connect cptr lstn =>
    { state with client := update state.client cptr .zero, lstn := update state.lstn cptr lstn }
  | .dopacket cptr length => state.dopacket cptr length
  | .clientDopacket cptr line beyond => state.clientDopacket cptr line beyond

/-- A chunk of a client. -/
def Totals.receive (totals : Totals) (cptr : ClientId) (lstn : Option ListenerId) (length : Nat) : Totals :=
  { me := totals.me + length
    client := update totals.client cptr (totals.client cptr + length)
    listener :=
      match lstn with
      | some lptr => update totals.listener lptr (totals.listener lptr + length)
      | none => totals.listener }

def Totals.perform (totals : Totals) (state : State) : Action → Totals
  | .listen lptr => { totals with listener := update totals.listener lptr 0 }
  | .connect cptr _ => { totals with client := update totals.client cptr 0 }
  | .dopacket cptr length => totals.receive cptr (state.lstn cptr) length
  | .clientDopacket cptr line _ => totals.receive cptr (state.lstn cptr) line.length

/-- The server, and what it should have counted. -/
abbrev Server := State × Totals

def Server.start : Server := (⟨.zero, fun _ => .zero, fun _ => .zero, fun _ => none⟩, ⟨0, fun _ => 0, fun _ => 0⟩)

def Server.perform (server : Server) (action : Action) : Server :=
  (server.1.perform action, server.2.perform server.1 action)

/-- More than the memory of a client. -/
def clientSize : Nat := 16384

/-- The lengths are values of an `int`, and `strlen` does not run out of the client. -/
def Action.Possible : Action → Prop
  | .dopacket _ length => length ≤ intMax
  | .clientDopacket _ line beyond => line.length ≤ intMax ∧ bufSize + beyond < clientSize
  | _ => True

def machine : Machine Server Action := ⟨Server.perform, fun _ action => action.Possible⟩

/-- The counter says the total, up to the values of a `long`. -/
def Counter.Counts (counter : Counter) (total : Nat) : Prop :=
  counter.receiveB < 1024 ∧ ∃ k, counter.receiveK = k % longRange ∧ k * 1024 + counter.receiveB = total

structure Server.Exact (server : Server) : Prop where
  me : server.1.me.Counts server.2.me
  client : ∀ cptr, (server.1.client cptr).Counts (server.2.client cptr)
  listener : ∀ lptr, (server.1.listener lptr).Counts (server.2.listener lptr)

/-- The bit that is tested tells whether there is a kilobyte. -/
def Counter.BitTells (counter : Counter) (length : Nat) : Prop :=
  counter.receiveB + length < 1024 ∨
    counter.receiveB + length < shortRange ∧ (counter.receiveB + length) / 1024 % 2 = 1

/-- The line is copied whole: it has no NUL, and ends in the buffer or where the memory does. -/
def Whole (line : Text) (beyond : Nat) : Prop :=
  nul ∉ line.take bufSize ∧ (line.length < bufSize ∨ line.length = bufSize + beyond)

/-- What a chunk must be like to be counted. -/
def State.Fits (state : State) : Action → Prop
  | .dopacket cptr length =>
    (state.client cptr).BitTells length ∧
      match state.lstn cptr with
      | some lptr => (state.listener lptr).BitTells length ∧ state.me.receiveB + length < 1024
      | none => state.me.BitTells length
  | .clientDopacket cptr line beyond =>
    Whole line beyond ∧ (state.lstn cptr = none ∨ line = [])
  | _ => True

variable {counter : Counter}

@[simp] theorem shift_ten (n : Nat) : n >>> 10 = n / 1024 := Nat.shiftRight_eq_div_pow n 10

@[simp] theorem land_1023 (n : Nat) : n &&& 0x03ff = n % 1024 := Nat.and_two_pow_sub_one_eq_mod n 10

theorem land_1024 (n : Nat) : n &&& 0x0400 ≠ 0 ↔ n / 1024 % 2 = 1 := by
  have bit : n.testBit 10 = decide (n / 1024 % 2 = 1) := Nat.testBit_eq_decide_div_mod_eq
  have masked : n &&& 0x0400 = (n.testBit 10).toNat * 1024 := Nat.and_two_pow n 10
  rw [masked, bit]
  by_cases odd : n / 1024 % 2 = 1
  · simp [odd]
  · simp [odd]

/-- As far as chunks go, a counter counts one total only. -/
theorem counts_iff (kilos : counter.receiveK = k % longRange) (below : k * 1024 + counter.receiveB ≤ total)
    (near : total < k * 1024 + counter.receiveB + longRange) :
    counter.Counts total ↔ counter.receiveB < 1024 ∧ k * 1024 + counter.receiveB = total := by
  constructor
  · rintro ⟨small, other, same, sum⟩
    have more : k ≤ other := by omega
    have few : other - k < longRange := by omega
    have turns : (other - k) % longRange = 0 := Nat.sub_mod_eq_zero_of_mod_eq (same.symm.trans kilos)
    rw [Nat.mod_eq_of_lt few] at turns
    obtain rfl : k = other := Nat.le_antisymm more (Nat.le_of_sub_eq_zero turns)
    exact ⟨small, sum⟩
  · rintro ⟨small, sum⟩
    exact ⟨small, k, kilos, sum⟩

private theorem int_lt_long (int : length ≤ intMax) : length + 1024 < longRange := by
  apply Nat.lt_of_le_of_lt (Nat.add_le_add_right int 1024)
  decide

theorem counts_zero : Counter.zero.Counts 0 := ⟨by decide, 0, rfl, rfl⟩

section Counting

variable (counts : counter.Counts total) (int : length ≤ intMax)

include counts int

theorem counts_add : (counter.add length).Counts (total + length) ↔ counter.receiveB + length < 1024 := by
  obtain ⟨small, k, kilos, sum⟩ := counts
  have long := int_lt_long int
  have bytes : (counter.add length).receiveB = (counter.receiveB + length) % 65536 := rfl
  have kept : (counter.add length).receiveK = k % longRange := kilos
  rw [counts_iff kept (by omega) (by omega)]
  omega

theorem counts_carry : (counter.add length).carry.Counts (total + length) ↔ counter.receiveB + length < shortRange := by
  obtain ⟨small, k, kilos, sum⟩ := counts
  have long := int_lt_long int
  have bytes : (counter.add length).carry.receiveB = (counter.receiveB + length) % 65536 % 1024 := by
    simp [Counter.carry, Counter.add, shortRange]
  have kept : (counter.add length).carry.receiveK = (k + (counter.receiveB + length) % 65536 / 1024) % longRange := by
    simp [Counter.carry, Counter.add, kilos, shortRange]
  rw [counts_iff kept (by omega) (by omega)]
  unfold shortRange
  omega

theorem counts_carryBit : (counter.add length).carryBit.Counts (total + length) ↔ counter.BitTells length := by
  have small := counts.1
  unfold Counter.carryBit
  simp only [land_1024, Counter.add]
  unfold Counter.BitTells
  split
  next odd =>
    refine (counts_carry counts int).trans ?_
    unfold shortRange at odd ⊢
    omega
  next even =>
    refine (counts_add counts int).trans ?_
    unfold shortRange at even ⊢
    omega

theorem counts_carryMore :
    (counter.add length).carryMore.Counts (total + length) ↔ counter.receiveB + length < shortRange := by
  have small := counts.1
  unfold Counter.carryMore
  split
  · exact counts_carry counts int
  next few =>
    refine (counts_add counts int).trans ?_
    simp only [Counter.add, shortRange] at few ⊢
    omega

/-- A counter that misses a chunk. -/
theorem counts_missed : counter.Counts (total + length) ↔ length = 0 := by
  obtain ⟨small, k, kilos, sum⟩ := counts
  have long := int_lt_long int
  rw [counts_iff kilos (by omega) (by omega)]
  omega

end Counting

/-- `client_dopacket` counts the text it copied. -/
theorem counts_copied (counts : counter.Counts total) (short : length < clientSize) (int : other ≤ intMax) :
    (counter.add length).carryMore.Counts (total + other) ↔ length = other := by
  have small := counts.1
  have small' : length ≤ intMax := by
    unfold clientSize at short
    unfold intMax
    omega
  have right : (counter.add length).carryMore.Counts (total + length) := by
    rw [counts_carryMore counts small']
    unfold clientSize at short
    unfold shortRange
    omega
  constructor
  · intro also
    rcases Nat.le_total length other with le | le
    · rw [show total + other = total + length + (other - length) by omega] at also
      have none := (counts_missed right (by omega)).mp also
      omega
    · rw [show total + length = total + other + (length - other) by omega] at right
      have none := (counts_missed also (by omega)).mp right
      omega
  · rintro rfl
    exact right

theorem copied_lt (short : bufSize + beyond < clientSize) : copied line beyond < clientSize := by
  unfold copied
  split
  · omega
  · exact short

theorem copied_eq_iff : copied line beyond = line.length ↔ Whole line beyond := by
  have front : nul ∉ line.take bufSize ↔ (line.take bufSize).takeWhile (· != nul) = line.take bufSize := by
    rw [List.takeWhile_eq_self_iff]
    simp only [bne_iff_ne, ne_eq]
    exact ⟨fun absent item member same => absent (same ▸ member), fun all member => all nul member rfl⟩
  have shorter := List.IsPrefix.length_le (List.takeWhile_prefix (· != nul) (l := line.take bufSize))
  have taken : (line.take bufSize).length = min bufSize line.length := List.length_take
  unfold copied Whole
  rw [front]
  split
  next ends =>
    constructor
    · intro same
      refine ⟨(List.takeWhile_prefix _).eq_of_length ?_, .inl ?_⟩
      · omega
      · omega
    · rintro ⟨whole, -⟩
      rw [whole] at ends ⊢
      omega
  next full =>
    constructor
    · intro same
      exact ⟨(List.takeWhile_prefix _).eq_of_length (by omega), .inr same.symm⟩
    · rintro ⟨-, short | exact⟩
      · omega
      · exact exact.symm

/-- Only the updated one matters. -/
theorem counts_update {counters : Nat → Counter} {totals : Nat → Nat}
    (each : ∀ index, (counters index).Counts (totals index)) :
    (∀ index, (update counters key counter index).Counts (update totals key total index)) ↔ counter.Counts total := by
  constructor
  · intro all
    simpa using all key
  · intro new index
    by_cases same : index = key
    · simpa [same] using new
    · simpa [same] using each index

variable {server : Server}

theorem Server.exact_iff : server.Exact ↔ server.1.me.Counts server.2.me ∧
    (∀ cptr, (server.1.client cptr).Counts (server.2.client cptr)) ∧
      ∀ lptr, (server.1.listener lptr).Counts (server.2.listener lptr) :=
  ⟨fun exact => ⟨exact.me, exact.client, exact.listener⟩, fun ⟨me, client, listener⟩ => ⟨me, client, listener⟩⟩

theorem Server.Exact.dopacket (exact : server.Exact) (int : length ≤ intMax) :
    (server.perform (.dopacket cptr length)).Exact ↔ server.1.Fits (.dopacket cptr length) := by
  rw [Server.exact_iff]
  cases through : server.1.lstn cptr with
  | none =>
    simp only [Server.perform, State.perform, State.dopacket, Totals.perform, Totals.receive, State.Fits, through]
    rw [counts_carryBit exact.me int, counts_update exact.client, counts_carryBit (exact.client cptr) int]
    constructor
    · rintro ⟨me, client, -⟩
      exact ⟨client, me⟩
    · rintro ⟨client, me⟩
      exact ⟨me, client, exact.listener⟩
  | some lptr =>
    simp only [Server.perform, State.perform, State.dopacket, Totals.perform, Totals.receive, State.Fits, through]
    rw [counts_add exact.me int, counts_update exact.client, counts_carryBit (exact.client cptr) int,
      counts_update exact.listener, counts_carryBit (exact.listener lptr) int]
    constructor
    · rintro ⟨me, client, listener⟩
      exact ⟨client, listener, me⟩
    · rintro ⟨client, listener, me⟩
      exact ⟨me, client, listener⟩

theorem Server.Exact.clientDopacket (exact : server.Exact) (int : line.length ≤ intMax)
    (short : bufSize + beyond < clientSize) :
    (server.perform (.clientDopacket cptr line beyond)).Exact ↔
      server.1.Fits (.clientDopacket cptr line beyond) := by
  have whole : copied line beyond < clientSize := copied_lt short
  rw [Server.exact_iff]
  simp only [Server.perform, State.perform, State.clientDopacket, Totals.perform, Totals.receive, State.Fits]
  rw [counts_copied exact.me whole int, counts_update exact.client,
    counts_copied (exact.client cptr) whole int, copied_eq_iff]
  cases through : server.1.lstn cptr with
  | none =>
    constructor
    · rintro ⟨same, -⟩
      exact ⟨same, .inl rfl⟩
    · rintro ⟨same, -⟩
      exact ⟨same, same, exact.listener⟩
  | some lptr =>
    -- the listener has not counted the line
    have missed : (∀ other, (update server.1.listener lptr (server.1.listener lptr) other).Counts
        (update server.2.listener lptr (server.2.listener lptr + line.length) other)) ↔ line = [] := by
      rw [counts_update exact.listener, counts_missed (exact.listener lptr) int, List.length_eq_zero_iff]
    rw [Function.update_eq_self] at missed
    dsimp only
    rw [missed]
    constructor
    · rintro ⟨same, -, none⟩
      exact ⟨same, .inr none⟩
    · rintro ⟨same, some | none⟩
      · cases some
      · exact ⟨same, same, none⟩

theorem Server.Exact.perform (exact : server.Exact) (possible : action.Possible) :
    (server.perform action).Exact ↔ server.1.Fits action := by
  cases action with
  | listen lptr =>
    refine ⟨fun _ => trivial, fun _ => ⟨exact.me, exact.client, ?_⟩⟩
    exact (counts_update exact.listener).mpr counts_zero
  | connect cptr lstn =>
    refine ⟨fun _ => trivial, fun _ => ⟨exact.me, ?_, exact.listener⟩⟩
    exact (counts_update exact.client).mpr counts_zero
  | dopacket cptr length => exact exact.dopacket possible
  | clientDopacket cptr line beyond => exact exact.clientDopacket possible.1 possible.2

theorem exact_start : Server.start.Exact where
  me := counts_zero
  client := fun _ => counts_zero
  listener := fun _ => counts_zero

/-- Chunks that fit are counted, and the first that does not fit is not. -/
theorem bytes_counted (run : machine.Run (fun server => server.1.Fits) .start final) : final.Exact ∧
    ∀ action, action.Possible → ((final.perform action).Exact ↔ final.1.Fits action) := by
  have exact : final.Exact :=
    run.invariant Server.Exact (fun _ _ possible met exact => (exact.perform possible).mpr met) exact_start
  exact ⟨exact, fun _ possible => exact.perform possible⟩

/-- A link that this server opened. -/
def dialled : Server := machine.perform .start (.connect 1 none)

theorem dialled_counts : (machine.perform dialled (.dopacket 1 1500)).1.client 1 = ⟨1, 476⟩ ∧
    (machine.perform dialled (.dopacket 1 1500)).Exact := by
  have run : machine.Run (fun server => server.1.Fits) .start dialled := .tail (.refl _) trivial trivial
  have fits : dialled.1.Fits (.dopacket 1 1500) := ⟨.inr (by decide), .inr (by decide)⟩
  exact ⟨by decide, ((bytes_counted run).2 (.dopacket 1 1500) (by unfold Action.Possible; decide)).mpr fits⟩

/-- Two kilobytes in one chunk stay where the bytes are counted, and 64 of them are forgotten. -/
theorem evenChunk_uncounted : ∃ server, machine.Run Machine.Any .start server ∧
    (server.1.client 1).receiveB = 2048 ∧ ¬ server.Exact ∧
      ∃ later, machine.Run Machine.Any .start later ∧ later.1.client 1 = ⟨0, 0⟩ ∧ later.2.client 1 = 65536 := by
  have run : machine.Run Machine.Any .start dialled := .tail (.refl _) trivial trivial
  have even : machine.Run Machine.Any .start (machine.perform dialled (.dopacket 1 2048)) :=
    .tail run (show 2048 ≤ intMax by decide) trivial
  have full : machine.Run Machine.Any .start (machine.perform dialled (.dopacket 1 65536)) :=
    .tail run (show 65536 ≤ intMax by decide) trivial
  refine ⟨_, even, by decide, ?_, _, full, by decide, by decide⟩
  intro exact
  exact absurd (exact.client 1).1 (by decide)

end SolidIrcd.Bytes
