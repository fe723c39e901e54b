import SolidIrcd.Hash
import SolidIrcd.Lib.Chain

/-! The ring of nicknames that were given up. Every slot is threaded through the list of
its name's hash and, while the client is still online, through the list of the client. -/

namespace SolidIrcd.Whowas

open Scan (Text)
open Function (update)

abbrev ClientId := Nat

/-- NICKNAMEHISTORYLENGTH. -/
def nicknameHistoryLength : Nat := 2048

/-- `struct Whowas` without what only WHOWAS prints; `hashv` is −1 in a slot that was never
used. -/
structure Slot where
  hashv : Option Nat
  name : Text
  logoff : Int
  online : Option ClientId
  deriving DecidableEq, Repr

/-- `WHOWAS` with the pointers of `WHOWASHASH`, the `whowas` of the clients, and
`whowas_next`. -/
structure History where
  slots : Nat → Slot
  table : Chain Nat Nat
  whowas : Chain ClientId Nat
  whowasNext : Nat

/-- `initwhowas`. -/
def initwhowas : History := ⟨fun _ => ⟨none, [], 0, none⟩, Chain.empty, Chain.empty, 0⟩

/-- The old incarnation of the next slot leaves its lists. -/
def History.release (history : History) : History :=
  let new := history.whowasNext
  match (history.slots new).hashv with
  | none => history
  | some hashv =>
    { history with
      whowas :=
        match (history.slots new).online with
        | some owner => history.whowas.unlink owner new
        | none => history.whowas
      table := history.table.unlink hashv new }

/-- `whowas_next` after a turn. -/
def following (next : Nat) : Nat := if next + 1 = nicknameHistoryLength then 0 else next + 1

/-- `add_history`; `name` is the name of the client. -/
def History.addHistory (history : History) (cptr : ClientId) (name : Text) (now : Int) (online : Bool) : History :=
  let history := history.release
  let new := history.whowasNext
  let slot : Slot :=
    { hashv := some (hashWhowasName name)
      name := name.take nickLen
      logoff := now
      online := if online then some cptr else none }
  { slots := update history.slots new slot
    whowas := if online then history.whowas.push cptr new else history.whowas
    table := history.table.push (hashWhowasName name) new
    whowasNext := following new }

/-- One turn of the loop of `off_history`. -/
def History.forget (history : History) (cptr : ClientId) (temp : Nat) : History :=
  { history with
    slots := update history.slots temp { history.slots temp with online := none }
    whowas := history.whowas.unlink cptr temp }

/-- The loop of `off_history`; a list is never longer than the ring. -/
def History.offLoop (cptr : ClientId) : (fuel : Nat) → Option Nat → History → History
  | 0, _, history => history
  | _ + 1, none, history => history
  | fuel + 1, some temp, history => (history.forget cptr temp).offLoop cptr fuel (history.whowas.next temp)

/-- `off_history`. -/
def History.offHistory (history : History) (cptr : ClientId) : History :=
  history.offLoop cptr nicknameHistoryLength (history.whowas.head cptr)

/-- The loop of `get_history`. -/
def History.search (history : History) (nick : Text) (timelimit : Int) : (fuel : Nat) → Option Nat → Option ClientId
  | 0, _ => none
  | _ + 1, none => none
  | fuel + 1, some temp =>
    if mycmp nick (history.slots temp).name = false then history.search nick timelimit fuel (history.table.next temp)
    else if (history.slots temp).logoff < timelimit then
      history.search nick timelimit fuel (history.table.next temp)
    else (history.slots temp).online

/-- `get_history`. -/
def History.getHistory (history : History) (nick : Text) (now timelimit : Int) : Option ClientId :=
  history.search nick (now - timelimit) nicknameHistoryLength (history.table.head (hashWhowasName nick))

/-- A name that was given up, and by whom; nobody is left when the client is gone. -/
structure Entry where
  name : Text
  logoff : Int
  online : Option ClientId
  deriving DecidableEq, Repr

def Entry.hashv (entry : Entry) : Option Nat := some (hashWhowasName entry.name)

def Entry.slot (entry : Entry) : Slot := ⟨entry.hashv, entry.name, entry.logoff, entry.online⟩

/-- The client goes. -/
def Entry.off (cptr : ClientId) (entry : Entry) : Entry :=
  if entry.online = some cptr then { entry with online := none } else entry

/-- Whoever most recently gave up the name, unless it was before `since`. -/
def lastHolder (log : List Entry) (nick : Text) (since : Int) : Option ClientId :=
  (log.find? fun entry => mycmp nick entry.name && decide (since ≤ entry.logoff)).bind Entry.online

/-- The slot that was filled `age` turns before the last one. -/
def slotOf (next age : Nat) : Nat := (next + nicknameHistoryLength - 1 - age) % nicknameHistoryLength

/-- What is in the ring, the newest first, with the slots. -/
abbrev Ring := List (Nat × Entry)

/-- The slots whose entry has a key, as a list of that key threads them. -/
def Ring.listed (key : Entry → Option Nat) (ring : Ring) (wanted : Nat) : List Nat :=
  (ring.filter fun item => key item.2 == some wanted).map Prod.fst

/-- The history shows the ring. -/
structure History.Keeps (history : History) (ring : Ring) : Prop where
  inside : history.whowasNext < nicknameHistoryLength
  small : ring.length ≤ nicknameHistoryLength
  order : ring.map Prod.fst = (List.range ring.length).map (slotOf history.whowasNext)
  filed : ∀ item ∈ ring, history.slots item.1 = item.2.slot
  table : history.table.Shows (ring.listed Entry.hashv)
  whowas : history.whowas.Shows (ring.listed Entry.online)

/-- The other slots were never used. -/
def History.Blank (history : History) (ring : Ring) : Prop :=
  ∀ slot, slot ∉ ring.map Prod.fst → history.slots slot = ⟨none, [], 0, none⟩

variable {history : History} {ring : Ring} {chain : Chain Nat Nat} {key : Entry → Option Nat}

theorem slotOf_eq (inside : next < nicknameHistoryLength) (recent : age < nicknameHistoryLength) :
    slotOf next age = if age < next then next - 1 - age else next + nicknameHistoryLength - 1 - age := by
  unfold slotOf
  split
  · rw [show next + nicknameHistoryLength - 1 - age = next - 1 - age + nicknameHistoryLength by omega,
      Nat.add_mod_right, Nat.mod_eq_of_lt (by omega)]
  · exact Nat.mod_eq_of_lt (by omega)

theorem slotOf_lt (next age : Nat) : slotOf next age < nicknameHistoryLength := Nat.mod_lt _ (by decide)

/-- The slot that comes next is the oldest one. -/
theorem slotOf_eq_next (inside : next < nicknameHistoryLength) (recent : age < nicknameHistoryLength) :
    slotOf next age = next ↔ age + 1 = nicknameHistoryLength := by
  rw [slotOf_eq inside recent]
  split <;> omega

theorem slotOf_inj (inside : next < nicknameHistoryLength) (recent : age < nicknameHistoryLength)
    (recent' : age' < nicknameHistoryLength) (same : slotOf next age = slotOf next age') : age = age' := by
  rw [slotOf_eq inside recent, slotOf_eq inside recent'] at same
  split at same <;> split at same <;> omega

theorem following_lt (inside : next < nicknameHistoryLength) : following next < nicknameHistoryLength := by
  unfold following
  split <;> omega

theorem slotOf_following_zero (inside : next < nicknameHistoryLength) : slotOf (following next) 0 = next := by
  rw [slotOf_eq (following_lt inside) (by omega)]
  unfold following
  split <;> split <;> omega

theorem slotOf_following_succ (inside : next < nicknameHistoryLength) (recent : age + 1 < nicknameHistoryLength) :
    slotOf (following next) (age + 1) = slotOf next age := by
  rw [slotOf_eq (following_lt inside) recent, slotOf_eq inside (by omega)]
  unfold following
  split <;> split <;> split <;> omega

theorem mem_listed : slot ∈ ring.listed key wanted ↔ ∃ entry, (slot, entry) ∈ ring ∧ key entry = some wanted := by
  simp [Ring.listed]

theorem listed_concat (ring : Ring) (slot : Nat) (entry : Entry) (wanted : Nat) :
    Ring.listed key (ring ++ [(slot, entry)]) wanted =
      Ring.listed key ring wanted ++ if key entry = some wanted then [slot] else [] := by
  by_cases same : key entry = some wanted <;> simp [Ring.listed, same]

theorem listed_cons (ring : Ring) (slot : Nat) (entry : Entry) (wanted : Nat) :
    Ring.listed key ((slot, entry) :: ring) wanted =
      if key entry = some wanted then slot :: Ring.listed key ring wanted else Ring.listed key ring wanted := by
  by_cases same : key entry = some wanted <;> simp [Ring.listed, same]

/-- The oldest slot leaves the list of its key. -/
theorem shows_dropLast (shown : chain.Shows (Ring.listed key (ring ++ [(slot, entry)]))) :
    (match key entry with
      | some wanted => chain.unlink wanted slot
      | none => chain).Shows (ring.listed key) := by
  cases own : key entry with
  | none =>
    have same : Ring.listed key (ring ++ [(slot, entry)]) = ring.listed key := by
      funext wanted
      simp [listed_concat, own]
    rwa [same] at shown
  | some wanted =>
    have split : Ring.listed key (ring ++ [(slot, entry)]) wanted = ring.listed key wanted ++ slot :: [] := by
      simp [listed_concat, own]
    have less := shown.unlink split
    have same : update (Ring.listed key (ring ++ [(slot, entry)])) wanted (ring.listed key wanted ++ []) =
        ring.listed key := by
      funext other
      by_cases here : other = wanted
      · subst here
        simp
      · have elsewhere : wanted ≠ other := fun this => here this.symm
        simp [here, listed_concat, own, elsewhere]
    rwa [same] at less

/-- A new slot comes in front of the list of its key. -/
theorem shows_cons (shown : chain.Shows (ring.listed key)) (new : slot ∉ ring.map Prod.fst) (entry : Entry) :
    (match key entry with
      | some wanted => chain.push wanted slot
      | none => chain).Shows (Ring.listed key ((slot, entry) :: ring)) := by
  cases own : key entry with
  | none =>
    have same : Ring.listed key ((slot, entry) :: ring) = ring.listed key := by
      funext wanted
      simp [listed_cons, own]
    rwa [same]
  | some wanted =>
    have absent : ∀ other, slot ∉ ring.listed key other := by
      intro other member
      obtain ⟨held, there, -⟩ := mem_listed.mp member
      exact new (List.mem_map.mpr ⟨_, there, rfl⟩)
    have more := shown.push absent wanted
    have same : update (ring.listed key) wanted (slot :: ring.listed key wanted) =
        Ring.listed key ((slot, entry) :: ring) := by
      funext other
      by_cases here : other = wanted
      · subst here
        simp [listed_cons, own]
      · have elsewhere : wanted ≠ other := fun this => here this.symm
        simp [here, listed_cons, own, elsewhere]
    rwa [same] at more

theorem History.Keeps.slot_mem (keeps : history.Keeps ring) : slot ∈ ring.map Prod.fst ↔
    ∃ age < ring.length, slotOf history.whowasNext age = slot := by
  rw [keeps.order]
  simp

theorem History.Keeps.nodup (keeps : history.Keeps ring) : (ring.map Prod.fst).Nodup := by
  rw [keeps.order]
  refine (List.nodup_map_iff_inj_on List.nodup_range).mpr ?_
  intro age recent age' recent' same
  have small := keeps.small
  rw [List.mem_range] at recent recent'
  exact slotOf_inj keeps.inside (by omega) (by omega) same

theorem History.Keeps.unique (keeps : history.Keeps ring) (first : (slot, entry) ∈ ring) (second : (slot, entry') ∈ ring) :
    entry = entry' := by
  have same : (slot, entry) = (slot, entry') := List.inj_on_of_nodup_map keeps.nodup first second rfl
  exact (Prod.mk.inj same).2

/-- After the release there is room for one more, and the next slot is not in use. -/
theorem History.Keeps.release (keeps : history.Keeps ring) (blank : history.Blank ring) :
    history.release.Keeps (ring.take (nicknameHistoryLength - 1)) ∧
      history.release.whowasNext = history.whowasNext ∧ history.release.slots = history.slots ∧
      history.whowasNext ∉ (ring.take (nicknameHistoryLength - 1)).map Prod.fst := by
  have inside := keeps.inside
  have fresh : history.whowasNext ∉ (ring.take (nicknameHistoryLength - 1)).map Prod.fst := by
    rw [List.map_take, keeps.order, ← List.map_take, List.take_range]
    intro member
    obtain ⟨age, recent, same⟩ := List.mem_map.mp member
    rw [List.mem_range] at recent
    have last := (slotOf_eq_next inside (by omega)).mp same
    omega
  by_cases full : ring.length < nicknameHistoryLength
  · have whole : ring.take (nicknameHistoryLength - 1) = ring := List.take_of_length_le (by omega)
    rw [whole] at fresh ⊢
    have unused := blank _ fresh
    have same : history.release = history := by
      unfold History.release
      simp only [unused]
    rw [same]
    exact ⟨keeps, rfl, rfl, fresh⟩
  · have length : ring.length = nicknameHistoryLength := Nat.le_antisymm keeps.small (Nat.le_of_not_lt full)
    have nonempty : ring ≠ [] := by
      rintro rfl
      simp at length
      omega
    obtain ⟨front, ⟨slot, entry⟩, rfl⟩ := List.eq_nil_or_concat' ring |>.resolve_left nonempty
    have short : front.length + 1 = nicknameHistoryLength := by simpa using length
    have whole : (front ++ [(slot, entry)]).take (nicknameHistoryLength - 1) = front := by
      rw [← short, Nat.add_sub_cancel, List.take_left]
    have order := keeps.order
    rw [List.map_append, List.length_append, List.length_singleton, List.range_succ, List.map_append] at order
    obtain ⟨orderFront, orderLast⟩ := List.append_inj order (by simp)
    have last : slot = history.whowasNext := by
      have shown : slot = slotOf history.whowasNext front.length := by simpa using orderLast
      rw [shown]
      exact (slotOf_eq_next inside (by omega)).mpr short
    have held := keeps.filed (slot, entry) (by simp)
    rw [whole] at fresh ⊢
    have filed (item : Nat × Entry) (member : item ∈ front) : history.slots item.1 = item.2.slot :=
      keeps.filed item (List.mem_append_left _ member)
    have table := shows_dropLast keeps.table
    have whowas := shows_dropLast keeps.whowas
    simp only [last] at held table whowas
    unfold History.release
    simp only [held, Entry.slot, Entry.hashv] at table whowas ⊢
    exact ⟨⟨inside, by omega, orderFront, filed, table, whowas⟩, trivial, trivial, fresh⟩

/-- What `add_history` records. -/
def given (cptr : ClientId) (name : Text) (now : Int) (online : Bool) : Entry :=
  ⟨name, now, if online then some cptr else none⟩

theorem History.Keeps.add (keeps : history.Keeps ring) (blank : history.Blank ring) (short : name.length ≤ nickLen)
    (cptr : ClientId) (now : Int) (online : Bool) :
    (history.addHistory cptr name now online).Keeps
        ((history.whowasNext, given cptr name now online) :: ring.take (nicknameHistoryLength - 1)) ∧
      (history.addHistory cptr name now online).Blank
        ((history.whowasNext, given cptr name now online) :: ring.take (nicknameHistoryLength - 1)) := by
  obtain ⟨released, next, slots, fresh⟩ := keeps.release blank
  have inside := keeps.inside
  generalize rest : ring.take (nicknameHistoryLength - 1) = others at *
  have few : others.length < nicknameHistoryLength := by
    rw [← rest, List.length_take]
    omega
  have taken : name.take nickLen = name := List.take_of_length_le short
  constructor
  · refine ⟨?_, ?_, ?_, ?_, ?_, ?_⟩
    · simpa [History.addHistory, next] using following_lt inside
    · rw [List.length_cons]
      exact few
    · have order := released.order
      rw [next] at order
      simp only [History.addHistory, next, List.map_cons, List.length_cons, List.range_succ_eq_map, List.map_map,
        slotOf_following_zero inside, order, List.cons.injEq, true_and]
      apply List.map_congr_left
      intro age recent
      rw [List.mem_range] at recent
      exact (slotOf_following_succ inside (by omega)).symm
    · intro item member
      obtain rfl | old := List.mem_cons.mp member
      · simp [History.addHistory, next, given, Entry.slot, Entry.hashv, taken]
      · have differ : item.1 ≠ history.whowasNext := by
          intro same
          exact fresh (List.mem_map.mpr ⟨item, old, same⟩)
        simp only [History.addHistory, next, Function.update_of_ne differ]
        exact released.filed item old
    · have more := shows_cons released.table fresh (given cptr name now online)
      simp only [History.addHistory, next]
      exact more
    · have more := shows_cons released.whowas fresh (given cptr name now online)
      cases online with
      | true =>
        simp only [History.addHistory, next, if_true]
        exact more
      | false =>
        simp only [History.addHistory, next, Bool.false_eq_true, if_false]
        exact more
  · intro slot absent
    simp only [List.map_cons, List.mem_cons, not_or] at absent
    simp only [History.addHistory, next, slots, Function.update_of_ne absent.1]
    apply blank
    intro member
    by_cases full : ring.length < nicknameHistoryLength
    · have whole : ring.take (nicknameHistoryLength - 1) = ring := List.take_of_length_le (by omega)
      rw [← rest, whole] at absent
      exact absent.2 member
    · obtain ⟨age, recent, same⟩ := keeps.slot_mem.mp member
      have small := keeps.small
      by_cases oldest : age + 1 = nicknameHistoryLength
      · exact absent.1 (same.symm.trans ((slotOf_eq_next inside (by omega)).mpr oldest))
      · apply absent.2
        rw [released.slot_mem, next]
        refine ⟨age, ?_, same⟩
        rw [← rest, List.length_take]
        omega

theorem off_of_ne (differ : entry.online ≠ some cptr) : Entry.off cptr entry = entry := if_neg differ

/-- The entry in one slot is without its client. -/
def Ring.clear (ring : Ring) (slot : Nat) : Ring :=
  ring.map fun item => if item.1 = slot then (item.1, { item.2 with online := none }) else item

def Ring.off (ring : Ring) (cptr : ClientId) : Ring := ring.map fun item => (item.1, item.2.off cptr)

theorem clear_fst (ring : Ring) (slot : Nat) : (ring.clear slot).map Prod.fst = ring.map Prod.fst := by
  rw [Ring.clear, List.map_map]
  apply List.map_congr_left
  intro item _
  simp only [Function.comp_apply]
  split <;> rfl

theorem listed_clear_hashv (ring : Ring) (slot : Nat) :
    (ring.clear slot).listed Entry.hashv = ring.listed Entry.hashv := by
  funext wanted
  simp only [Ring.listed, Ring.clear, List.filter_map, List.map_map]
  have names : (fun item : Nat × Entry => item.2.hashv == some wanted) ∘
      (fun item => if item.1 = slot then (item.1, { item.2 with online := none }) else item) =
      fun item => item.2.hashv == some wanted := by
    funext item
    simp only [Function.comp_apply]
    split <;> rfl
  rw [names]
  apply List.map_congr_left
  intro item _
  simp only [Function.comp_apply]
  split <;> rfl

theorem listed_clear_online (ring : Ring) (slot wanted : Nat) :
    (ring.clear slot).listed Entry.online wanted = (ring.listed Entry.online wanted).filter (· ≠ slot) := by
  induction ring with
  | nil => rfl
  | cons item ring ih =>
    have before : Ring.listed Entry.online (item :: ring) wanted =
        if item.2.online = some wanted then item.1 :: Ring.listed Entry.online ring wanted
        else Ring.listed Entry.online ring wanted := listed_cons ring item.1 item.2 wanted
    by_cases here : item.1 = slot
    · have step : Ring.clear (item :: ring) slot = (item.1, { item.2 with online := none }) :: Ring.clear ring slot := by
        simp [Ring.clear, here]
      rw [step, listed_cons, if_neg (by simp), ih, before]
      split
      · simp [here]
      · rfl
    · have step : Ring.clear (item :: ring) slot = (item.1, item.2) :: Ring.clear ring slot := by
        simp [Ring.clear, here]
      rw [step, listed_cons, ih, before]
      split
      · simp [here]
      · rfl

theorem History.Keeps.forget (keeps : history.Keeps ring) (list : ring.listed Entry.online cptr = temp :: rest) :
    (history.forget cptr temp).Keeps (ring.clear temp) ∧ (ring.clear temp).listed Entry.online cptr = rest := by
  have nodup := keeps.whowas.once cptr
  rw [list, List.nodup_cons] at nodup
  have cleared : (ring.clear temp).listed Entry.online cptr = rest := by
    rw [listed_clear_online, list, List.filter_cons_of_neg (by simp), List.filter_eq_self]
    intro other member
    exact decide_eq_true fun same => nodup.1 (same ▸ member)
  have length : (ring.clear temp).length = ring.length := by simp [Ring.clear]
  refine ⟨⟨keeps.inside, ?_, ?_, ?_, ?_, ?_⟩, cleared⟩
  · rw [length]
    exact keeps.small
  · rw [clear_fst, length]
    exact keeps.order
  · intro item member
    obtain ⟨old, there, rfl⟩ := List.mem_map.mp member
    simp only [History.forget]
    split
    next here =>
      rw [here, Function.update_self, ← here, keeps.filed old there]
      rfl
    next elsewhere =>
      rw [Function.update_of_ne elsewhere]
      exact keeps.filed old there
  · rw [listed_clear_hashv]
    exact keeps.table
  · have split : ring.listed Entry.online cptr = [] ++ temp :: rest := list
    have less := keeps.whowas.unlink split
    have same : update (ring.listed Entry.online) cptr ([] ++ rest) = (ring.clear temp).listed Entry.online := by
      funext wanted
      by_cases here : wanted = cptr
      · subst here
        rw [Function.update_self, cleared]
        rfl
      · rw [Function.update_of_ne here, listed_clear_online, eq_comm, List.filter_eq_self]
        intro other member
        apply decide_eq_true
        rintro rfl
        exact here (keeps.whowas.apart wanted cptr other member (by simp [list]))
    rwa [same] at less

theorem History.Blank.forget (blank : history.Blank ring)
    (list : ring.listed Entry.online cptr = temp :: rest) : (history.forget cptr temp).Blank (ring.clear temp) := by
  intro slot absent
  rw [clear_fst] at absent
  have differ : slot ≠ temp := by
    rintro rfl
    obtain ⟨entry, there, -⟩ := mem_listed.mp (show slot ∈ ring.listed Entry.online cptr by simp [list])
    exact absent (List.mem_map.mpr ⟨_, there, rfl⟩)
  simp only [History.forget, Function.update_of_ne differ]
  exact blank slot absent

theorem History.Keeps.offLoop (keeps : history.Keeps ring) (blank : history.Blank ring)
    (list : ring.listed Entry.online cptr = nodes) (enough : nodes.length ≤ fuel) :
    (history.offLoop cptr fuel nodes.head?).Keeps (ring.off cptr) ∧
      (history.offLoop cptr fuel nodes.head?).Blank (ring.off cptr) := by
  induction nodes generalizing history ring fuel with
  | nil =>
    have unchanged : ring.off cptr = ring := by
      rw [Ring.off]
      conv => rhs; rw [← List.map_id ring]
      apply List.map_congr_left
      intro item member
      have differ : item.2.online ≠ some cptr := by
        intro online
        have inside : item.1 ∈ ring.listed Entry.online cptr := mem_listed.mpr ⟨item.2, member, online⟩
        simp [list] at inside
      rw [off_of_ne differ]
      rfl
    rw [unchanged]
    cases fuel with
    | zero => exact ⟨keeps, blank⟩
    | succ fuel => exact ⟨keeps, blank⟩
  | cons temp rest ih =>
    cases fuel with
    | zero => simp at enough
    | succ fuel =>
      obtain ⟨forgot, less⟩ := keeps.forget list
      obtain ⟨next, -⟩ := keeps.whowas.links cptr [] temp rest list
      have later := ih forgot (blank.forget list) less (by simpa using enough)
      have same : (ring.clear temp).off cptr = ring.off cptr := by
        rw [Ring.off, Ring.off, Ring.clear, List.map_map]
        apply List.map_congr_left
        intro item member
        simp only [Function.comp_apply]
        split
        next here =>
          obtain ⟨entry, there, online⟩ := mem_listed.mp (show temp ∈ ring.listed Entry.online cptr by simp [list])
          have own : item.2 = entry := keeps.unique member (here ▸ there)
          simp [Entry.off, own, online]
        next => rfl
      rw [same] at later
      rw [List.head?_cons, History.offLoop, next]
      exact later

/-- After `off_history` the entries of the client are without it. -/
theorem History.Keeps.off (keeps : history.Keeps ring) (blank : history.Blank ring) (cptr : ClientId) :
    (history.offHistory cptr).Keeps (ring.off cptr) ∧ (history.offHistory cptr).Blank (ring.off cptr) := by
  have short : (ring.listed Entry.online cptr).length ≤ nicknameHistoryLength := by
    rw [Ring.listed, List.length_map]
    exact Nat.le_trans (List.length_filter_le ..) keeps.small
  rw [History.offHistory, keeps.whowas.head]
  exact keeps.offLoop blank rfl short

/-- The loop of `get_history` is a search along the pointers. -/
theorem search_eq_walk (nick : Text) (timelimit : Int) (fuel : Nat) (pointer : Option Nat) :
    history.search nick timelimit fuel pointer =
      ((history.table.walk fuel pointer).find? fun temp =>
        mycmp nick (history.slots temp).name && decide (timelimit ≤ (history.slots temp).logoff)).bind
          fun temp => (history.slots temp).online := by
  induction fuel generalizing pointer with
  | zero => rfl
  | succ fuel ih =>
    cases pointer with
    | none => rfl
    | some temp =>
      rw [History.search, Chain.walk]
      cases same : mycmp nick (history.slots temp).name with
      | false => simp [same, ih]
      | true =>
        by_cases old : (history.slots temp).logoff < timelimit
        · have late : ¬ timelimit ≤ (history.slots temp).logoff := by omega
          simp [old, late, ih]
        · have recent : timelimit ≤ (history.slots temp).logoff := by omega
          simp [same, old, recent]

theorem walk_table (keeps : history.Keeps ring) (hashv : Nat) :
    history.table.walk nicknameHistoryLength (history.table.head hashv) = ring.listed Entry.hashv hashv := by
  apply keeps.table.walk
  rw [Ring.listed, List.length_map]
  exact Nat.le_trans (List.length_filter_le ..) keeps.small

theorem walk_whowas (keeps : history.Keeps ring) (cptr : ClientId) :
    history.whowas.walk nicknameHistoryLength (history.whowas.head cptr) = ring.listed Entry.online cptr := by
  apply keeps.whowas.walk
  rw [Ring.listed, List.length_map]
  exact Nat.le_trans (List.length_filter_le ..) keeps.small

/-- `get_history` finds the newest entry of the ring. -/
theorem getHistory_eq (keeps : history.Keeps ring) (nick : Text) (now timelimit : Int) :
    history.getHistory nick now timelimit = lastHolder (ring.map Prod.snd) nick (now - timelimit) := by
  rw [History.getHistory, search_eq_walk, walk_table keeps, lastHolder]
  have entries : ∀ item ∈ ring, history.slots item.1 = item.2.slot := keeps.filed
  clear keeps
  induction ring with
  | nil => rfl
  | cons item ring ih =>
    have held := entries item (List.mem_cons_self ..)
    have rest := ih fun other member => entries other (List.mem_cons_of_mem _ member)
    have listed : Ring.listed Entry.hashv (item :: ring) (hashWhowasName nick) =
        if item.2.hashv = some (hashWhowasName nick) then item.1 :: Ring.listed Entry.hashv ring (hashWhowasName nick)
        else Ring.listed Entry.hashv ring (hashWhowasName nick) := listed_cons ring item.1 item.2 _
    rw [listed, List.map_cons]
    cases same : mycmp nick item.2.name with
    | false =>
      rw [List.find?_cons_of_neg (by simp [same]), ← rest]
      split
      · rw [List.find?_cons_of_neg (by simp [held, Entry.slot, same])]
      · rfl
    | true =>
      rw [if_pos (by rw [Entry.hashv, hashWhowasName_congr same])]
      by_cases recent : now - timelimit ≤ item.2.logoff
      · rw [List.find?_cons_of_pos (by simp [held, Entry.slot, same, recent]),
          List.find?_cons_of_pos (by simp [same, recent])]
        simp [held, Entry.slot]
      · rw [List.find?_cons_of_neg (by simpa [held, Entry.slot, same] using recent),
          List.find?_cons_of_neg (by simpa [same] using recent), rest]

end SolidIrcd.Whowas
