import SolidIrcd.Channel.Listing
import Mathlib.Data.List.Nodup

/-! A listing in pages, while channels come and go between them: a channel that stays is sent
once. -/

namespace SolidIrcd.Channel.Listing

open Function (update)
open Scan (Text)

/-- The table of channels, the listing of one client and the channels he was sent. -/
structure State where
  table : Nat → List Room
  lopt : Option LOpts
  sent : List ChanId

inductive Action where
  | page (numsend : Int)
  | create (room : Room)
  | destroy (chptr : ChanId) (chname : Text)
  /-- Whatever changes of a channel, it keeps its name. -/
  | change (room : Room)

/-- `send_list` for a client whose listing goes on. -/
def State.page (build : Build) (admin : Bool) (numsend : Int) (state : State) : State :=
  match state.lopt with
  | none => state
  | some lopt =>
    let (rooms, left) := sendList build admin state.table lopt numsend
    { state with lopt := left, sent := state.sent ++ rooms.map Room.chptr }

/-- `add_to_channel_hash_table`. -/
def State.create (room : Room) (state : State) : State :=
  let hashv := hashChannelName room.chname
  { state with table := update state.table hashv (room :: state.table hashv) }

/-- `del_from_channel_hash_table`. -/
def State.destroy (chptr : ChanId) (chname : Text) (state : State) : State :=
  let hashv := hashChannelName chname
  { state with table := update state.table hashv ((state.table hashv).eraseP (·.chptr == chptr)) }

def Room.replace (room old : Room) : Room := if old.chptr = room.chptr then room else old

def State.change (room : Room) (state : State) : State :=
  { state with table := fun hashv => (state.table hashv).map room.replace }

def State.perform (build : Build) (admin : Bool) (state : State) : Action → State
  | .page numsend => state.page build admin numsend
  | .create room => state.create room
  | .destroy chptr chname => state.destroy chptr chname
  | .change room => state.change room

/-- A new channel is no channel of the table. -/
def State.Possible (state : State) : Action → Prop
  | .page _ => state.lopt ≠ none
  | .create room => ∀ hashv, ∀ old ∈ state.table hashv, old.chptr ≠ room.chptr
  | .destroy _ _ => True
  | .change room => ∀ hashv, ∀ old ∈ state.table hashv, old.chptr = room.chptr → old.chname = room.chname

def machine (build : Build) (admin : Bool) : Machine State Action := ⟨State.perform build admin, State.Possible⟩

/-- Channels stand once in the table, in the bucket of their names. -/
structure State.Sound (state : State) : Prop where
  placed : ∀ hashv, ∀ room ∈ state.table hashv, hashChannelName room.chname = hashv
  nodup : ∀ hashv, ((state.table hashv).map Room.chptr).Nodup
  single : ∀ first second, ∀ room ∈ state.table first, ∀ twin ∈ state.table second,
    room.chptr = twin.chptr → first = second

/-- The channel is in the table, and as it is wanted. -/
def State.Has (wanted : Room → Prop) (chptr : ChanId) (state : State) : Prop :=
  ∃ hashv, ∃ room ∈ state.table hashv, room.chptr = chptr ∧ wanted room

/-- The bucket where the listing goes on. -/
def State.cursor (state : State) : Nat := state.lopt.elim chMax LOpts.starthash

theorem sendLoop_quota (shows : Room → Bool) (table : Nat → List Room) (buckets hashnum : Nat) (quota : 0 < numsend) :
    sendLoop shows table (buckets + 1) hashnum numsend =
      let rest := sendLoop shows table buckets (hashnum + 1) (numsend - ((table hashnum).filter shows).length)
      ((table hashnum).filter shows ++ rest.1, rest.2) := by
  rw [sendLoop, if_pos quota]

theorem sendLoop_full (shows : Room → Bool) (table : Nat → List Room) (buckets hashnum : Nat) (full : ¬ 0 < numsend) :
    sendLoop shows table buckets hashnum numsend = ([], hashnum) := by
  cases buckets with
  | zero => rfl
  | succ buckets => rw [sendLoop, if_neg full]

theorem sendLoop_bounds (shows : Room → Bool) (table : Nat → List Room) (buckets hashnum : Nat) (numsend : Int) :
    hashnum ≤ (sendLoop shows table buckets hashnum numsend).2 ∧
      (sendLoop shows table buckets hashnum numsend).2 ≤ hashnum + buckets := by
  induction buckets generalizing hashnum numsend with
  | zero => exact ⟨le_rfl, le_rfl⟩
  | succ buckets ih =>
    by_cases quota : 0 < numsend
    · obtain ⟨after, bounded⟩ := ih (hashnum + 1) (numsend - ((table hashnum).filter shows).length)
      rw [sendLoop_quota shows table buckets hashnum quota]
      dsimp only
      omega
    · rw [sendLoop_full shows table (buckets + 1) hashnum quota]
      exact ⟨le_rfl, Nat.le_add_right ..⟩

/-- How often the loop sends a channel that is in one bucket only. -/
theorem sendLoop_count (shows : Room → Bool) (table : Nat → List Room) (home : Nat) (chptr : ChanId)
    (elsewhere : ∀ hashv, hashv ≠ home → ∀ room ∈ table hashv, room.chptr ≠ chptr)
    (buckets hashnum : Nat) (numsend : Int) :
    ((sendLoop shows table buckets hashnum numsend).1.map Room.chptr).count chptr =
      if hashnum ≤ home ∧ home < (sendLoop shows table buckets hashnum numsend).2 then
        (((table home).filter shows).map Room.chptr).count chptr
      else 0 := by
  induction buckets generalizing hashnum numsend with
  | zero =>
    rw [if_neg (by simp only [sendLoop]; omega)]
    rfl
  | succ buckets ih =>
    by_cases quota : 0 < numsend
    · have after := (sendLoop_bounds shows table buckets (hashnum + 1)
        (numsend - ((table hashnum).filter shows).length)).1
      rw [sendLoop_quota shows table buckets hashnum quota]
      dsimp only
      rw [List.map_append, List.count_append, ih]
      by_cases here : hashnum = home
      · rw [if_neg (by omega), if_pos (by omega), here, Nat.add_zero]
      · have absent : (((table hashnum).filter shows).map Room.chptr).count chptr = 0 := by
          apply List.count_eq_zero_of_not_mem
          intro member
          obtain ⟨room, inside, same⟩ := List.mem_map.mp member
          exact elsewhere hashnum here room (List.mem_of_mem_filter inside) same
        rw [absent, Nat.zero_add]
        by_cases visited : hashnum + 1 ≤ home ∧
            home < (sendLoop shows table buckets (hashnum + 1) (numsend - ((table hashnum).filter shows).length)).2
        · rw [if_pos visited, if_pos (by omega)]
        · rw [if_neg visited, if_neg (by omega)]
    · rw [sendLoop_full shows table (buckets + 1) hashnum quota, if_neg (by dsimp only; omega)]
      rfl

theorem replace_chptr (room old : Room) : (room.replace old).chptr = old.chptr := by
  unfold Room.replace
  split
  next same => exact same.symm
  next => rfl

theorem map_replace (room : Room) (rooms : List Room) : (rooms.map room.replace).map Room.chptr = rooms.map Room.chptr := by
  rw [List.map_map]
  exact List.map_congr_left fun old _ => replace_chptr room old

theorem page_table (build : Build) (admin : Bool) (numsend : Int) (state : State) :
    (state.page build admin numsend).table = state.table := by
  unfold State.page
  cases state.lopt <;> rfl

theorem create_home (room : Room) (state : State) :
    (state.create room).table (hashChannelName room.chname) = room :: state.table (hashChannelName room.chname) :=
  Function.update_self ..

theorem create_elsewhere (state : State) (other : hashv ≠ hashChannelName (Room.chname room)) :
    (state.create room).table hashv = state.table hashv := Function.update_of_ne other ..

theorem destroy_home (chptr : ChanId) (chname : Text) (state : State) :
    (state.destroy chptr chname).table (hashChannelName chname) =
      (state.table (hashChannelName chname)).eraseP (·.chptr == chptr) := Function.update_self ..

theorem destroy_elsewhere (chptr : ChanId) (state : State) (other : hashv ≠ hashChannelName chname) :
    (state.destroy chptr chname).table hashv = state.table hashv := Function.update_of_ne other ..

variable {state : State}

/-- The channels that are left after `del_from_channel_hash_table` were there before. -/
theorem mem_destroy (member : room ∈ (State.destroy chptr chname state).table hashv) : room ∈ state.table hashv := by
  by_cases here : hashv = hashChannelName chname
  · subst here
    rw [destroy_home] at member
    exact List.mem_of_mem_eraseP member
  · rwa [destroy_elsewhere _ _ here] at member

theorem mem_create (member : room ∈ (State.create new state).table hashv) :
    room = new ∧ hashv = hashChannelName new.chname ∨ room ∈ state.table hashv := by
  by_cases here : hashv = hashChannelName new.chname
  · subst here
    rw [create_home] at member
    rcases List.mem_cons.mp member with same | old
    · exact .inl ⟨same, rfl⟩
    · exact .inr old
  · rw [create_elsewhere _ here] at member
    exact .inr member

theorem sound_create (sound : state.Sound) (new : state.Possible (.create room)) : (state.create room).Sound where
  placed hashv old member := by
    rcases mem_create member with ⟨rfl, here⟩ | before
    · exact here.symm
    · exact sound.placed hashv old before
  nodup hashv := by
    by_cases here : hashv = hashChannelName room.chname
    · subst here
      rw [create_home, List.map_cons, List.nodup_cons]
      refine ⟨?_, sound.nodup _⟩
      intro member
      obtain ⟨old, inside, same⟩ := List.mem_map.mp member
      exact new _ old inside same
    · rw [create_elsewhere _ here]
      exact sound.nodup hashv
  single first second old inside twin beside same := by
    rcases mem_create inside with ⟨rfl, here⟩ | before
    · rcases mem_create beside with ⟨rfl, there⟩ | earlier
      · exact here.trans there.symm
      · exact absurd same.symm (new second twin earlier)
    · rcases mem_create beside with ⟨rfl, there⟩ | earlier
      · exact absurd same (new first old before)
      · exact sound.single first second old before twin earlier same

theorem sound_destroy (sound : state.Sound) (chptr : ChanId) (chname : Text) : (state.destroy chptr chname).Sound where
  placed hashv room member := sound.placed hashv room (mem_destroy member)
  nodup hashv := by
    by_cases here : hashv = hashChannelName chname
    · subst here
      rw [destroy_home]
      exact ((List.eraseP_sublist ..).map Room.chptr).nodup (sound.nodup _)
    · rw [destroy_elsewhere _ _ here]
      exact sound.nodup hashv
  single first second room inside twin beside same :=
    sound.single first second room (mem_destroy inside) twin (mem_destroy beside) same

theorem sound_change (sound : state.Sound) (kept : state.Possible (.change room)) : (state.change room).Sound where
  placed hashv new member := by
    obtain ⟨old, inside, rfl⟩ := List.mem_map.mp member
    rw [← sound.placed hashv old inside, Room.replace]
    split
    next same => rw [kept hashv old inside same]
    next => rfl
  nodup hashv := by
    rw [State.change, map_replace]
    exact sound.nodup hashv
  single first second new inside twin beside same := by
    obtain ⟨old, before, rfl⟩ := List.mem_map.mp inside
    obtain ⟨older, earlier, rfl⟩ := List.mem_map.mp beside
    rw [replace_chptr, replace_chptr] at same
    exact sound.single first second old before older earlier same

theorem sound_perform (build : Build) (admin : Bool) (action : Action) (sound : state.Sound)
    (possible : state.Possible action) : (state.perform build admin action).Sound := by
  cases action with
  | page numsend =>
    have same := page_table build admin numsend state
    constructor
    · rw [State.perform, same]
      exact sound.placed
    · rw [State.perform, same]
      exact sound.nodup
    · rw [State.perform, same]
      exact sound.single
  | create room => exact sound_create sound possible
  | destroy chptr chname => exact sound_destroy sound chptr chname
  | change room => exact sound_change sound possible

/-- A channel that was in the table is still in its bucket, or in none. -/
theorem mem_perform (build : Build) (admin : Bool) {action : Action} (possible : state.Possible action)
    (known : old ∈ state.table home) (member : room ∈ (state.perform build admin action).table hashv)
    (same : room.chptr = old.chptr) : ∃ twin ∈ state.table hashv, twin.chptr = old.chptr := by
  cases action with
  | page numsend =>
    rw [State.perform, page_table] at member
    exact ⟨room, member, same⟩
  | create new =>
    rcases mem_create member with ⟨rfl, -⟩ | before
    · exact absurd same.symm (possible home old known)
    · exact ⟨room, before, same⟩
  | destroy chptr chname => exact ⟨room, mem_destroy member, same⟩
  | change new =>
    obtain ⟨twin, before, rfl⟩ := List.mem_map.mp member
    exact ⟨twin, before, (replace_chptr new twin).symm.trans same⟩

/-- What the loop of a page starts with, and what it gives. -/
def pageLoop (build : Build) (admin : Bool) (state : State) (lopt : LOpts) (numsend : Int) : List Room × Nat :=
  sendLoop (lopt.shows build admin) state.table (chMax - lopt.starthash) lopt.starthash numsend

theorem page_eq (build : Build) (admin : Bool) (numsend : Int) (listing : state.lopt = some lopt) :
    state.page build admin numsend =
      { state with
        lopt := if (pageLoop build admin state lopt numsend).2 = chMax then none
          else some { lopt with starthash := (pageLoop build admin state lopt numsend).2 }
        sent := state.sent ++ (pageLoop build admin state lopt numsend).1.map Room.chptr } := by
  rw [State.page, listing]
  rfl

theorem page_cursor (build : Build) (admin : Bool) (numsend : Int) (listing : state.lopt = some lopt) :
    (state.page build admin numsend).cursor = (pageLoop build admin state lopt numsend).2 := by
  rw [page_eq build admin numsend listing, State.cursor]
  by_cases done : (pageLoop build admin state lopt numsend).2 = chMax
  · rw [if_pos done, done]
    rfl
  · rw [if_neg done]
    rfl

/-- A listing that follows `options`, seen from a channel in one bucket: it was not sent before
that bucket's turn, and at most once since. -/
structure State.Follows (build : Build) (admin : Bool) (options : LOpts) (wanted : Room → Prop) (chptr : ChanId)
    (hashv : Nat) (state : State) : Prop where
  sound : state.Sound
  here : ∃ room ∈ state.table hashv, room.chptr = chptr ∧ wanted room
  bounded : state.cursor ≤ chMax
  filters : ∀ lopt, state.lopt = some lopt → lopt.shows build admin = options.shows build admin
  before : state.cursor ≤ hashv → state.sent.count chptr = 0
  after : hashv < state.cursor → state.sent.count chptr ≤ 1 ∧
    ((∀ room, wanted room → options.shows build admin room = true) → state.sent.count chptr = 1)

/-- How often a bucket gives a channel of it. -/
theorem count_home (shows : Room → Bool) (sound : state.Sound) (member : room ∈ state.table hashv) :
    (((state.table hashv).filter shows).map Room.chptr).count room.chptr ≤ 1 ∧
      (shows room = true → (((state.table hashv).filter shows).map Room.chptr).count room.chptr = 1) := by
  have nodup : (((state.table hashv).filter shows).map Room.chptr).Nodup :=
    (List.filter_sublist.map Room.chptr).nodup (sound.nodup hashv)
  refine ⟨List.nodup_iff_count_le_one.mp nodup room.chptr, ?_⟩
  intro shown
  exact List.count_eq_one_of_mem nodup (List.mem_map_of_mem (List.mem_filter.mpr ⟨member, shown⟩))

variable {build : Build} {admin : Bool} {options : LOpts} {wanted : Room → Prop}

theorem State.Follows.page (follows : state.Follows build admin options wanted chptr hashv) (numsend : Int)
    (unfinished : state.lopt ≠ none) :
    (state.page build admin numsend).Follows build admin options wanted chptr hashv := by
  obtain ⟨lopt, listing⟩ := Option.ne_none_iff_exists'.mp unfinished
  obtain ⟨room, member, rfl, want⟩ := follows.here
  have start : state.cursor = lopt.starthash := by rw [State.cursor, listing]; rfl
  have starts : lopt.starthash ≤ chMax := start ▸ follows.bounded
  have shows := follows.filters lopt listing
  obtain ⟨advanced, bounded⟩ := sendLoop_bounds (lopt.shows build admin) state.table (chMax - lopt.starthash)
    lopt.starthash numsend
  have elsewhere : ∀ other, other ≠ hashv → ∀ twin ∈ state.table other, twin.chptr ≠ room.chptr := by
    intro other differs twin inside same
    exact differs (follows.sound.single other hashv twin inside room member same)
  have counted := sendLoop_count (lopt.shows build admin) state.table hashv room.chptr elsewhere
    (chMax - lopt.starthash) lopt.starthash numsend
  have total : (state.page build admin numsend).sent.count room.chptr = state.sent.count room.chptr +
      ((pageLoop build admin state lopt numsend).1.map Room.chptr).count room.chptr := by
    rw [page_eq build admin numsend listing, List.count_append]
  have cursor := page_cursor build admin numsend listing
  obtain ⟨once, sent⟩ := count_home (lopt.shows build admin) follows.sound member
  have table := page_table build admin numsend state
  constructor
  · exact sound_perform build admin (.page numsend) follows.sound unfinished
  · rw [table]
    exact ⟨room, member, rfl, want⟩
  · rw [cursor, pageLoop]
    omega
  · intro next left
    rw [page_eq build admin numsend listing] at left
    dsimp only at left
    split at left
    next => cases left
    next =>
      obtain rfl := Option.some.inj left
      exact shows
  · intro early
    rw [cursor, pageLoop] at early
    rw [total, pageLoop, counted, if_neg (by omega), follows.before (by omega)]
  · intro late
    rw [cursor, pageLoop] at late
    rw [total, pageLoop, counted]
    by_cases earlier : hashv < lopt.starthash
    · rw [if_neg (by omega), Nat.add_zero]
      exact follows.after (by omega)
    · rw [if_pos (by omega), follows.before (by omega), Nat.zero_add]
      refine ⟨once, fun all => sent ?_⟩
      rw [shows]
      exact all room want

/-- What is no page leaves the listing alone, and the channel in its bucket if it stays at all. -/
theorem State.Follows.other (follows : state.Follows build admin options wanted chptr hashv) {next : State}
    (sound : next.Sound) (listing : next.lopt = state.lopt) (sent : next.sent = state.sent)
    (here : ∃ room ∈ next.table hashv, room.chptr = chptr ∧ wanted room) :
    next.Follows build admin options wanted chptr hashv := by
  have cursor : next.cursor = state.cursor := by rw [State.cursor, listing, State.cursor]
  constructor
  · exact sound
  · exact here
  · exact cursor ▸ follows.bounded
  · rw [listing]
    exact follows.filters
  · rw [cursor, sent]
    exact follows.before
  · rw [cursor, sent]
    exact follows.after

theorem State.Follows.perform (follows : state.Follows build admin options wanted chptr hashv) {action : Action}
    (possible : state.Possible action) (stays : (state.perform build admin action).Has wanted chptr) :
    (state.perform build admin action).Follows build admin options wanted chptr hashv := by
  have sound := sound_perform build admin action follows.sound possible
  have here : ∃ room ∈ (state.perform build admin action).table hashv, room.chptr = chptr ∧ wanted room := by
    obtain ⟨old, known, rfl, -⟩ := follows.here
    obtain ⟨bucket, room, member, same, want⟩ := stays
    obtain ⟨twin, inside, equal⟩ := mem_perform build admin possible known member same
    obtain rfl := follows.sound.single bucket hashv twin inside old known equal
    exact ⟨room, member, same, want⟩
  cases action with
  | page numsend => exact follows.page numsend possible
  | create room => exact follows.other sound rfl rfl here
  | destroy chptr chname => exact follows.other sound rfl rfl here
  | change room => exact follows.other sound rfl rfl here

theorem hashChannelName_lt (name : Text) : hashChannelName name < chMax := by
  unfold hashChannelName chMax
  omega

/-- A run in which a channel always stays, and as it is wanted. -/
abbrev Stays (build : Build) (admin : Bool) (wanted : Room → Prop) (chptr : ChanId) (state : State)
    (action : Action) : Prop :=
  (state.perform build admin action).Has wanted chptr

/-- A listing that is about to begin. -/
structure State.Begins (options : LOpts) (state : State) : Prop where
  sound : state.Sound
  lopt : state.lopt = some options
  starthash : options.starthash = 0
  sent : state.sent = []

theorem State.Begins.follows (begins : state.Begins options) (has : state.Has wanted chptr) :
    ∃ hashv < chMax, state.Follows build admin options wanted chptr hashv := by
  obtain ⟨hashv, room, member, same, want⟩ := has
  have cursor : state.cursor = 0 := by
    rw [State.cursor, begins.lopt]
    exact begins.starthash
  refine ⟨hashv, ?_, begins.sound, ⟨room, member, same, want⟩, ?_, ?_, ?_, ?_⟩
  · rw [← begins.sound.placed hashv room member]
    exact hashChannelName_lt room.chname
  · rw [cursor]
    exact Nat.zero_le _
  · intro lopt left
    rw [begins.lopt] at left
    rw [Option.some.inj left]
  · intro _
    rw [begins.sent]
    rfl
  · intro late
    rw [cursor] at late
    exact absurd late (Nat.not_lt_zero _)

theorem follows_run (begins : start.Begins options) (has : start.Has wanted chptr)
    (run : (machine build admin).Run (Stays build admin wanted chptr) start final) :
    ∃ hashv < chMax, final.Follows build admin options wanted chptr hashv := by
  obtain ⟨hashv, small, follows⟩ := begins.follows has
  refine ⟨hashv, small, ?_⟩
  apply run.invariant (fun state => state.Follows build admin options wanted chptr hashv) _ follows
  intro state action possible stays follows
  exact follows.perform possible stays

/-- A listing that goes on has a bucket left. -/
def State.Within (state : State) : Prop := ∀ lopt, state.lopt = some lopt → lopt.starthash < chMax

theorem State.Within.bounded (within : state.Within) : state.cursor ≤ chMax := by
  unfold State.cursor
  cases listing : state.lopt with
  | none => exact le_rfl
  | some lopt => exact (within lopt listing).le

theorem State.Within.perform (within : state.Within) (action : Action) : (state.perform build admin action).Within := by
  cases action with
  | page numsend =>
    intro next left
    cases listing : state.lopt with
    | none =>
      rw [State.perform, State.page, listing] at left
      exact within next left
    | some lopt =>
      have start := within lopt listing
      have bounded := (sendLoop_bounds (lopt.shows build admin) state.table (chMax - lopt.starthash)
        lopt.starthash numsend).2
      rw [State.perform, page_eq build admin numsend listing] at left
      dsimp only at left
      split at left
      · cases left
      next unfinished =>
        obtain rfl := Option.some.inj left
        rw [pageLoop] at unfinished ⊢
        dsimp only
        omega
  | create room => exact within
  | destroy chptr chname => exact within
  | change room => exact within

theorem page_onwards (build : Build) (admin : Bool) (numsend : Int) (state : State) :
    state.cursor ≤ (state.page build admin numsend).cursor := by
  cases listing : state.lopt with
  | none =>
    rw [State.page, listing]
  | some lopt =>
    have start : state.cursor = lopt.starthash := by rw [State.cursor, listing]; rfl
    rw [page_cursor build admin numsend listing, start]
    exact (sendLoop_bounds ..).1

/-- A page that may send comes to another bucket. -/
theorem page_advances (build : Build) (admin : Bool) (within : state.Within) (unfinished : state.lopt ≠ none)
    (quota : 0 < numsend) : state.cursor < (state.page build admin numsend).cursor := by
  obtain ⟨lopt, listing⟩ := Option.ne_none_iff_exists'.mp unfinished
  have start : state.cursor = lopt.starthash := by rw [State.cursor, listing]; rfl
  obtain ⟨buckets, left⟩ : ∃ buckets, chMax - lopt.starthash = buckets + 1 :=
    Nat.exists_eq_add_one.mpr (Nat.sub_pos_of_lt (within lopt listing))
  rw [page_cursor build admin numsend listing, start, pageLoop, left, sendLoop_quota _ _ _ _ quota]
  exact (sendLoop_bounds ..).1

/-- A page whose quota lets something be sent. -/
def Action.sends : Action → Bool
  | .page numsend => 0 < numsend
  | _ => false

theorem cursor_perform (within : state.Within) (possible : state.Possible action) :
    (if action.sends then 1 else 0) + state.cursor ≤ (state.perform build admin action).cursor := by
  cases action with
  | page numsend =>
    by_cases quota : 0 < numsend
    · have advanced := page_advances build admin within possible quota
      rw [if_pos (show (Action.page numsend).sends = true from decide_eq_true quota), Nat.add_comm]
      exact advanced
    · rw [if_neg (by simpa [Action.sends] using quota), Nat.zero_add]
      exact page_onwards build admin numsend state
  | create room => exact (Nat.zero_add _).le
  | destroy chptr chname => exact (Nat.zero_add _).le
  | change room => exact (Nat.zero_add _).le

/-- Every such page takes a bucket, of which there are `CH_MAX`. -/
theorem sends_bounded (actions : List Action) (within : state.Within)
    (allows : (machine build admin).Allows Machine.Any state actions) :
    actions.countP Action.sends + state.cursor ≤ chMax := by
  induction actions generalizing state with
  | nil => simpa using within.bounded
  | cons action actions ih =>
    obtain ⟨possible, -, allows⟩ := allows
    have rest : actions.countP Action.sends + (state.perform build admin action).cursor ≤ chMax :=
      ih (within.perform action) allows
    have step : _ ≤ (state.perform build admin action).cursor := cursor_perform within possible
    rw [List.countP_cons]
    omega

/-- Nothing happens but that a page is sent. -/
abbrev Pages (numsend : Int) (_ : State) (action : Action) : Prop := action = .page numsend

theorem pages_end (build : Build) (admin : Bool) (within : state.Within) (quota : 0 < numsend) :
    ∃ final, (machine build admin).Run (Pages numsend) state final ∧ final.lopt = none := by
  induction left : chMax - state.cursor using Nat.strongRecOn generalizing state with
  | ind left ih =>
    by_cases ended : state.lopt = none
    · exact ⟨state, .refl state, ended⟩
    · have advanced := page_advances build admin within ended quota
      have next : (state.page build admin numsend).Within := within.perform (.page numsend)
      have bounded := next.bounded
      have possible : (machine build admin).possible state (.page numsend) := ended
      have first : (machine build admin).Run (Pages numsend) state (state.page build admin numsend) :=
        .tail (.refl state) possible rfl
      obtain ⟨final, rest, done⟩ := ih (chMax - (state.page build admin numsend).cursor) (by omega) next rfl
      exact ⟨final, first.trans rest, done⟩

/-- Pages leave the table of channels alone. -/
theorem stays_pages (run : (machine build admin).Run (Pages numsend) start final) (has : start.Has wanted chptr) :
    (machine build admin).Run (Stays build admin wanted chptr) start final ∧ final.Has wanted chptr := by
  induction run with
  | refl => exact ⟨.refl _, has⟩
  | @tail state _ before possible met ih =>
    obtain ⟨run, has⟩ := ih
    obtain rfl := met
    have kept : (state.perform build admin (.page numsend)).Has wanted chptr := by
      have table : (state.perform build admin (.page numsend)).table = state.table := page_table build admin numsend state
      rw [State.Has, table]
      exact has
    exact ⟨.tail run possible kept, kept⟩

/-- However a listing is cut into pages and whatever channels come and go between them, a channel
that is there all the time is sent at most once, and exactly once by the end if it always passes
the filters. The end comes: no listing has more pages that may send than there are buckets, and from
wherever it stands pages of any quota end it. -/
theorem listing_once (build : Build) (admin : Bool) (options : LOpts) (chptr : ChanId) (start : State)
    (begins : start.Begins options) :
    (start.Has (fun _ => True) chptr → ∀ final,
      (machine build admin).Run (Stays build admin (fun _ => True) chptr) start final →
        final.sent.count chptr ≤ 1) ∧
    (start.Has (fun room => options.shows build admin room = true) chptr → ∀ final,
      (machine build admin).Run (Stays build admin (fun room => options.shows build admin room = true) chptr)
        start final → final.lopt = none → final.sent.count chptr = 1) ∧
    (∀ actions, (machine build admin).Allows Machine.Any start actions → actions.countP Action.sends ≤ chMax) ∧
    (∀ middle, (machine build admin).Run Machine.Any start middle → ∀ numsend, 0 < numsend →
      ∃ final, (machine build admin).Run (Pages numsend) middle final ∧ final.lopt = none) := by
  have within : start.Within := by
    intro lopt listing
    rw [begins.lopt] at listing
    rw [← Option.some.inj listing, begins.starthash]
    decide
  refine ⟨?_, ?_, ?_, ?_⟩
  · intro has final run
    obtain ⟨hashv, -, follows⟩ := follows_run begins has run
    by_cases late : hashv < final.cursor
    · exact (follows.after late).1
    · rw [follows.before (Nat.le_of_not_lt late)]
      exact Nat.zero_le 1
  · intro has final run ended
    obtain ⟨hashv, small, follows⟩ := follows_run begins has run
    have finished : final.cursor = chMax := by rw [State.cursor, ended]; rfl
    exact (follows.after (finished ▸ small)).2 fun room shown => shown
  · intro actions allows
    exact (Nat.le_add_right ..).trans (sends_bounded actions within allows)
  · intro middle run numsend quota
    exact pages_end build admin (run.invariant State.Within (fun _ action _ _ within => within.perform action) within) quota

/-- `LIST` without options, when there is one channel. -/
private def lounge : Room := ⟨7, "#lounge".toList, 3, 900000, 0, false, false, false⟩

private def everything : LOpts := ⟨[], [], 0, true, true, 0, 0, 0, 0, 0, 0⟩

private def opening : State := State.create lounge ⟨fun _ => [], some everything, []⟩

private theorem opening_begins : opening.Begins everything where
  sound := sound_create ⟨by simp, by simp, by simp⟩ (by simp [State.Possible])
  lopt := rfl
  starthash := rfl
  sent := rfl

private theorem lounge_listed :
    opening.Has (fun room => everything.shows ⟨false, false, false⟩ false room = true) lounge.chptr := by
  refine ⟨hashChannelName lounge.chname, lounge, ?_, rfl, rfl⟩
  rw [opening, create_home]
  exact List.mem_cons_self ..

/-- The listing ends, and the channel was sent once. -/
theorem listing_once_lounge :
    ∃ final, (machine ⟨false, false, false⟩ false).Run (Pages 64) opening final ∧ final.lopt = none ∧
      final.sent.count lounge.chptr = 1 := by
  obtain ⟨-, once, -, ends⟩ := listing_once ⟨false, false, false⟩ false everything lounge.chptr opening opening_begins
  obtain ⟨final, run, ended⟩ := ends opening (.refl opening) 64 (by decide)
  exact ⟨final, run, ended, once lounge_listed final (stays_pages run lounge_listed).1 ended⟩

end SolidIrcd.Channel.Listing
