import SolidIrcd.UserBan.Shun

/-! AKILL and RAKILL: a network ban from the services, in a store with bans of all kinds. -/

namespace SolidIrcd.UserBan.Akill

open Scan (Text)
open Shun (Worded worded_made userMatchBan_same bans mem_bans unexpired_mono)

/-- The parameters of an AKILL; `length` and `timeset` as `atoi` reads them. -/
structure Message where
  host : Text
  user : Text
  length : Int
  timeset : Int
  reason : Text
  deriving DecidableEq

/-- A "permanent" AKILL is held for a week. -/
def Message.period (message : Message) : Int := if message.length = 0 then 86400 * 7 else message.length

/-- When it is over. -/
def Message.over (message : Message) : Int := message.timeset + message.period

variable (smalldate : Int → Text)

def Message.marks (message : Message) : Marks where
  network := true
  reason := some (message.reason.take 251 ++ " (".toList ++ smalldate message.timeset ++ [')'])
  lasts := some (message.timeset, message.period)

structure State where
  store : Store
  now : Int

def State.start : State := ⟨.empty, 0⟩

/-- `m_akill`, when a server of the services sends it. -/
def State.mAkill (state : State) (message : Message) : State :=
  if message.over ≤ state.now then state
  else
    match makeHostbasedBan (some message.user) message.host with
    | none => state
    | some ban =>
      match state.store.findUserbanExact ban {} with
      | some _ => state
      | none =>
        { state with store := (state.store.addHostbasedUserban (ban.mark (message.marks smalldate))).getD state.store }

/-- `m_rakill`, when a server of the services sends it. -/
def State.mRakill (state : State) (host user : Text) : State :=
  match makeHostbasedBan (some user) host with
  | none => state
  | some ban =>
    match state.store.findUserbanExact (ban.mark { network := true }) { network := true } with
    | none => state
    | some oban => { state with store := state.store.removeUserban oban.internalEnt }

inductive Action where
  | tick (seconds : Nat)
  | akill (message : Message)
  | rakill (host user : Text)
  /-- Any other ban. -/
  | add (user : Option Text) (host : Text) (marks : Marks)
  | remove (internalEnt : Nat)
  | expire

def State.perform (state : State) : Action → State
  | .tick seconds => { state with now := state.now + seconds }
  | .akill message => state.mAkill smalldate message
  | .rakill host user => state.mRakill host user
  | .add user host marks => { state with store := (state.store.perform (.add user host marks)).getD state.store }
  | .remove internalEnt => { state with store := state.store.removeUserban internalEnt }
  | .expire => { state with store := state.store.expireUserbans state.now }

/-- Only an AKILL makes a ban of the network. -/
def State.possible (_ : State) : Action → Prop
  | .add _ _ marks => marks.network = false
  | _ => True

def machine : Machine State Action := ⟨State.perform smalldate, State.possible⟩

/-- No RAKILL and no operator removes a ban with the mask. -/
def Spares (ban : Ban) (state : State) : Action → Prop
  | .rakill host user => ∀ other, makeHostbasedBan (some user) host = some other → ¬ ban.Same other
  | .remove internalEnt =>
    ∀ other, state.store.lists.Holds other → other.internalEnt = internalEnt → ¬ ban.Same other
  | _ => True

/-- Whatever happens to other masks, every client that the mask matches is found to be banned until the time comes. -/
def State.Enforces (state : State) (ban : Ban) (time : Int) : Prop :=
  ∀ final, (machine smalldate).Run (Spares ban) state final → final.now < time →
    ∀ client, userMatchBan client ban = true → (final.store.checkUserbanned final.now client everyCheck {}).isSome

/-- A ban that has not expired before the time. -/
def Ban.lasts (ban : Ban) (time : Int) : Prop := ban.flags.temporary = true → time ≤ ban.timeset + ban.duration

/-- The store is in order, and has a ban of the network for a mask once. -/
structure State.Kept (state : State) : Prop where
  proper : state.store.Proper
  worded : ∀ ban, state.store.lists.Holds ban → Worded ban
  unique : state.store.Unique (·.flags.network)

variable {smalldate : Int → Text} {state : State} {ban : Ban}

theorem same_mark (marks : Marks) : (ban.mark marks).Same other ↔ ban.Same other :=
  ⟨fun same => ⟨same.slot, same.wilduser, same.user, same.host, same.ip, same.mask⟩,
    fun same => ⟨same.slot, same.wilduser, same.user, same.host, same.ip, same.mask⟩⟩

theorem State.Kept.start : State.start.Kept where
  proper := .empty
  worded _ held := absurd held Shelf.holds_empty
  unique _ _ held := absurd held Shelf.holds_empty

/-- One ban more. -/
theorem State.Kept.add (kept : state.Kept) (made : makeHostbasedBan user host = some ban) (marks : Marks)
    (fresh : marks.network = true → ∀ other, state.store.lists.Holds other → other.flags.network = true →
      ¬ ban.Same other) :
    ∃ after, state.store.addHostbasedUserban (ban.mark marks) = some after ∧ State.Kept { state with store := after } ∧
      ∀ other, after.lists.Holds other ↔
        other = { ban.mark marks with internalEnt := state.store.next } ∨ state.store.lists.Holds other := by
  have kind := (makeHostbasedBan_kind made).mark marks
  obtain ⟨slot, place⟩ := slot_of_kind kind
  refine ⟨_, by rw [Store.addHostbasedUserban, place, Option.map_some], ?_, fun other => Shelf.holds_put⟩
  constructor
  case proper => exact kept.proper.add kind place
  case worded =>
    intro other held
    obtain rfl | old := Shelf.holds_put.mp held
    · exact ⟨(worded_made made).host, (worded_made made).user⟩
    · exact kept.worded other old
  case unique =>
    refine kept.unique.add fun network other held mine same => fresh network other held mine ?_
    exact ⟨same.slot, same.wilduser, same.user, same.host, same.ip, same.mask⟩

theorem State.Kept.discard (kept : state.Kept) (gone : Ban → Bool) :
    State.Kept { state with store := { state.store with lists := state.store.lists.discard gone } } where
  proper := kept.proper.discard gone
  worded other held := kept.worded other (Shelf.holds_discard.mp held).1
  unique := kept.unique.discard gone

/-- What `m_akill` does with a message that is not over. -/
theorem State.Kept.mAkill_cases (smalldate : Int → Text) (kept : state.Kept) (message : Message)
    (live : state.now < message.over)
    (made : makeHostbasedBan (some message.user) message.host = some ban) :
    (∃ oban, state.store.findUserbanExact ban {} = some oban ∧ state.mAkill smalldate message = state) ∨
      (state.store.findUserbanExact ban {} = none ∧ (state.mAkill smalldate message).Kept ∧
        (state.mAkill smalldate message).now = state.now ∧
        ∀ other, (state.mAkill smalldate message).store.lists.Holds other ↔
          other = { ban.mark (message.marks smalldate) with internalEnt := state.store.next } ∨
            state.store.lists.Holds other) := by
  unfold State.mAkill
  rw [if_neg (by omega), made]
  dsimp only
  cases found : state.store.findUserbanExact ban {} with
  | some oban => exact .inl ⟨oban, rfl, rfl⟩
  | none =>
    right
    obtain ⟨after, added, kept', holds⟩ := kept.add made (message.marks smalldate) fun _ other held _ =>
      kept.proper.find_none (makeHostbasedBan_kind made) found held rfl
    simp only [added, Option.getD_some]
    exact ⟨trivial, kept', trivial, holds⟩

theorem State.Kept.mAkill (kept : state.Kept) (message : Message) : (state.mAkill smalldate message).Kept := by
  by_cases live : state.now < message.over
  · cases made : makeHostbasedBan (some message.user) message.host with
    | none =>
      rw [State.mAkill, if_neg (by omega), made]
      exact kept
    | some ban =>
      obtain ⟨_, _, same⟩ | ⟨_, kept', _⟩ := kept.mAkill_cases smalldate message live made
      · rw [same]
        exact kept
      · exact kept'
  · rw [State.mAkill, if_pos (by omega)]
    exact kept

/-- What `m_rakill` does with a mask. -/
theorem State.Kept.mRakill_cases (kept : state.Kept) (made : makeHostbasedBan (some user) host = some ban) :
    (state.mRakill host user = state ∧ ∀ other, state.store.lists.Holds other → other.flags.network = true →
        ¬ ban.Same other) ∨
      ∃ oban, state.store.lists.Holds oban ∧ ban.Same oban ∧ oban.flags.network = true ∧
        state.mRakill host user = { state with store := state.store.removeUserban oban.internalEnt } := by
  have kind := (makeHostbasedBan_kind made).mark { network := true }
  unfold State.mRakill
  rw [made]
  dsimp only
  cases found : state.store.findUserbanExact (ban.mark { network := true }) { network := true } with
  | none =>
    refine .inl ⟨rfl, fun other held network same => ?_⟩
    exact kept.proper.find_none kind found held (by simp [Flags.agree, network, Ban.mark]) ((same_mark _).mpr same)
  | some oban =>
    obtain ⟨held, same, agree⟩ := kept.proper.find_some kind found
    exact .inr ⟨oban, held, (same_mark _).mp same, by simpa [Flags.agree, Ban.mark] using agree, rfl⟩

theorem State.Kept.perform (kept : state.Kept) (action : Action) (possible : state.possible action) :
    (state.perform smalldate action).Kept := by
  cases action with
  | tick seconds => exact ⟨kept.proper, kept.worded, kept.unique⟩
  | akill message => exact kept.mAkill message
  | rakill host user =>
    cases made : makeHostbasedBan (some user) host with
    | none =>
      rw [State.perform, State.mRakill, made]
      exact kept
    | some ban =>
      obtain ⟨same, _⟩ | ⟨oban, _, _, _, same⟩ := kept.mRakill_cases made
      · rw [State.perform, same]
        exact kept
      · rw [State.perform, same]
        exact kept.discard _
  | add user host marks =>
    simp only [State.perform, Store.perform]
    cases made : makeHostbasedBan user host with
    | none => exact kept
    | some ban =>
      have ordinary : marks.network = false := possible
      obtain ⟨after, added, kept', _⟩ := kept.add made marks fun network => by rw [ordinary] at network; cases network
      simp only [added, Option.getD_some]
      exact kept'
  | remove internalEnt => exact kept.discard _
  | expire => exact kept.discard _

theorem State.Kept.run (kept : state.Kept) (run : (machine smalldate).Run meets state final) : final.Kept :=
  run.invariant State.Kept (fun _ action possible _ kept => kept.perform action possible) kept

/-! A ban that lasts -/

theorem now_mono (action : Action) : state.now ≤ (state.perform smalldate action).now := by
  cases action with
  | tick seconds =>
    simp only [State.perform]
    omega
  | akill message =>
    simp only [State.perform, State.mAkill]
    split
    · exact Int.le_refl _
    · split
      · exact Int.le_refl _
      · split <;> exact Int.le_refl _
  | rakill host user =>
    simp only [State.perform, State.mRakill]
    split
    · exact Int.le_refl _
    · split <;> exact Int.le_refl _
  | _ => exact Int.le_refl _

theorem State.Kept.holds_perform (kept : state.Kept) {action : Action} (possible : state.possible action)
    (spares : Spares ban state action) (same : ban.Same b) (held : state.store.lists.Holds b)
    (live : b.expired state.now = false) : (state.perform smalldate action).store.lists.Holds b := by
  cases action with
  | tick seconds => exact held
  | akill message =>
    simp only [State.perform]
    by_cases due : state.now < message.over
    · cases made : makeHostbasedBan (some message.user) message.host with
      | none =>
        rw [State.mAkill, if_neg (by omega), made]
        exact held
      | some other =>
        obtain ⟨_, _, stays⟩ | ⟨_, _, _, holds⟩ := kept.mAkill_cases smalldate message due made
        · rw [stays]
          exact held
        · exact (holds b).mpr (.inr held)
    · rw [State.mAkill, if_pos (by omega)]
      exact held
  | rakill host user =>
    simp only [State.perform]
    cases made : makeHostbasedBan (some user) host with
    | none =>
      rw [State.mRakill, made]
      exact held
    | some other =>
      obtain ⟨stays, _⟩ | ⟨oban, there, same', _, gone⟩ := kept.mRakill_cases made
      · rw [stays]
        exact held
      · rw [gone]
        refine (kept.proper.holds_remove there).mpr ⟨held, ?_⟩
        rintro rfl
        exact spares other made (same.trans same'.symm)
  | add user host marks =>
    simp only [State.perform, Store.perform]
    cases made : makeHostbasedBan user host with
    | none => exact held
    | some other =>
      have ordinary : marks.network = false := possible
      obtain ⟨after, added, _, holds⟩ := kept.add made marks fun network => by rw [ordinary] at network; cases network
      simp only [added, Option.getD_some]
      exact (holds b).mpr (.inr held)
  | remove internalEnt =>
    refine Shelf.holds_discard.mpr ⟨held, beq_eq_false_iff_ne.mpr fun entry => ?_⟩
    exact spares b held entry same
  | expire => exact Shelf.holds_discard.mpr ⟨held, live⟩

theorem Ban.lasts.live (lasts : Ban.lasts b time) (before : now < time) : b.expired now = false := by
  unfold Ban.expired
  cases temporary : b.flags.temporary with
  | false => rfl
  | true =>
    have ends := lasts temporary
    rw [Bool.true_and, decide_eq_false_iff_not]
    omega

/-- A ban with the mask stays as long as it lasts. -/
theorem State.Kept.holds_run (kept : state.Kept) (run : (machine smalldate).Run (Spares ban) state final)
    (same : ban.Same b) (held : state.store.lists.Holds b) (lasts : Ban.lasts b time) :
    final.Kept ∧ (final.now < time → final.store.lists.Holds b) := by
  apply run.invariant (fun state => state.Kept ∧ (state.now < time → state.store.lists.Holds b))
  · intro state action possible spares ⟨kept, stays⟩
    refine ⟨kept.perform action possible, fun before => ?_⟩
    have earlier := Int.lt_of_le_of_lt (now_mono action) before
    exact kept.holds_perform possible spares same (stays earlier) (lasts.live earlier)
  · exact ⟨kept, fun _ => held⟩

theorem State.Kept.enforces (kept : state.Kept) (made : makeHostbasedBan user host = some ban) (same : ban.Same b)
    (held : state.store.lists.Holds b) (lasts : Ban.lasts b time) : state.Enforces smalldate ban time := by
  intro final run before client matched
  obtain ⟨kept', stays⟩ := kept.holds_run run same held lasts
  have there := stays before
  apply checkUserbanned_complete kept'.proper.filed kept'.proper.kinds there (lasts.live before)
  rw [← userMatchBan_same same (makeHostbasedBan_kind made) (kept'.proper.kinds b there) (worded_made made)
    (kept'.worded b there)]
  exact matched

/-! A ban that does not -/

/-- The operators remove the bans of a list. -/
theorem removed_run (smalldate : Int → Text) (kept : state.Kept) (ban : Ban) (gone : List Ban)
    (others : ∀ b ∈ gone, state.store.lists.Holds b ∧ ¬ ban.Same b) :
    ∃ final, (machine smalldate).Run (Spares ban) state final ∧ final.Kept ∧ final.now = state.now ∧
      ∀ b, final.store.lists.Holds b ↔ state.store.lists.Holds b ∧ b ∉ gone := by
  induction gone with
  | nil => exact ⟨state, .refl _, kept, rfl, fun b => by simp⟩
  | cons first gone ih =>
    obtain ⟨middle, run, kept', now, holds⟩ := ih fun b member => others b (.tail _ member)
    obtain ⟨there, differs⟩ := others first (.head _)
    by_cases again : first ∈ gone
    · refine ⟨middle, run, kept', now, fun b => (holds b).trans (and_congr_right fun _ => not_congr ?_)⟩
      rw [List.mem_cons]
      exact ⟨.inr, fun either => either.elim (fun same => same ▸ again) id⟩
    · have held : middle.store.lists.Holds first := (holds first).mpr ⟨there, again⟩
      let final : State := (machine smalldate).perform middle (.remove first.internalEnt)
      have longer : (machine smalldate).Run (Spares ban) state final := .tail run trivial ?_
      · refine ⟨final, longer, kept'.discard _, now, fun b => (kept'.proper.holds_remove held).trans ?_⟩
        rw [holds, List.mem_cons, not_or, and_assoc, and_comm (a := b ∉ gone)]
      · intro other held' entry
        rw [kept'.proper.single other first held' held entry]
        exact differs

open Classical in
/-- Once the other masks are gone nothing is left of the ban when its time is nearly over. -/
theorem State.Kept.not_enforces (kept : state.Kept) (due : state.now < time)
    (short : ∀ b, state.store.lists.Holds b → ban.Same b → ¬ Ban.lasts b time) (matched : userMatchBan client ban = true) :
    ¬ state.Enforces smalldate ban time := by
  intro enforces
  obtain ⟨cleared, run, kept', now, holds⟩ := removed_run smalldate kept ban
    ((bans state.store).filter fun b => ¬ ban.Same b) fun b member => by
      rw [List.mem_filter, mem_bans kept.proper] at member
      exact ⟨member.1, by simpa using member.2⟩
  let final : State := (machine smalldate).perform cleared (.tick (time - 1 - state.now).toNat)
  have clock : final.now = time - 1 := by
    change cleared.now + ((time - 1 - state.now).toNat : Int) = time - 1
    omega
  have found := enforces final (.tail run trivial trivial) (by omega) client matched
  obtain ⟨b, is⟩ := Option.isSome_iff_exists.mp found
  change cleared.store.checkUserbanned final.now client everyCheck {} = some b at is
  obtain ⟨held, live, _⟩ := checkUserbanned_sound kept'.proper.filed kept'.proper.kinds is
  obtain ⟨before, left⟩ := (holds b).mp held
  have same : ban.Same b := by
    by_contra differs
    exact left (List.mem_filter.mpr ⟨(mem_bans kept.proper).mpr before, by simpa using differs⟩)
  apply short b before same
  intro temporary
  rw [clock, Ban.expired, temporary, Bool.true_and, decide_eq_false_iff_not] at live
  omega

/-- An AKILL that is not over holds for its whole period exactly when no ban with the mask was there, or one that lasts
as long, or when it is for nobody; and a RAKILL leaves no ban of the network with the mask. -/
theorem akill_period (run : (machine smalldate).Run Machine.Any .start state) (message : Message)
    (live : state.now < message.over) (made : makeHostbasedBan (some message.user) message.host = some ban) :
    ((state.mAkill smalldate message).Enforces smalldate ban message.over ↔
      state.store.findUserbanExact ban {} = none ∨
        (∃ b, state.store.lists.Holds b ∧ ban.Same b ∧ Ban.lasts b message.over) ∨
          ∀ client, userMatchBan client ban = false) ∧
      ∀ other, (state.mRakill message.host message.user).store.lists.Holds other → other.flags.network = true →
        ¬ ban.Same other := by
  have kept : state.Kept := State.Kept.start.run run
  constructor
  · obtain ⟨oban, found, stays⟩ | ⟨none, kept', _, holds⟩ := kept.mAkill_cases smalldate message live made
    · rw [stays, found]
      simp only [reduceCtorEq, false_or]
      constructor
      · intro enforces
        by_contra neither
        rw [not_or] at neither
        obtain ⟨client, matched⟩ := not_forall.mp neither.2
        rw [Bool.not_eq_false] at matched
        exact kept.not_enforces live (fun b held same lasts => neither.1 ⟨b, held, same, lasts⟩) matched enforces
      · rintro (⟨b, held, same, lasts⟩ | nobody)
        · exact kept.enforces made same held lasts
        · intro _ _ _ client matched
          rw [nobody client] at matched
          cases matched
    · refine iff_of_true ?_ (.inl none)
      apply kept'.enforces made (b := { ban.mark (message.marks smalldate) with internalEnt := state.store.next })
      · exact ⟨rfl, rfl, .inr (mycmp_refl _), mycmp_refl _, rfl, rfl⟩
      · exact (holds _).mpr (.inl rfl)
      · exact fun _ => Int.le_refl _
  · intro other held network same
    obtain ⟨stays, none⟩ | ⟨oban, there, same', network', gone⟩ := kept.mRakill_cases made
    · rw [stays] at held
      exact none other held network same
    · rw [gone] at held
      obtain ⟨old, differs⟩ := (kept.proper.holds_remove there).mp held
      exact differs (kept.unique other oban old there network network' (same.symm.trans same'))

private def undated (_ : Int) : Text := []

private def foo (length timeset : Int) : Message := ⟨"foo.bar".toList, ['*'], length, timeset, []⟩

private theorem made_foo : makeHostbasedBan (some ['*']) "foo.bar".toList = some (Shun.fooBan ['*']) := by decide

theorem akill_period_fresh : (State.start.mAkill undated (foo 100 0)).Enforces undated (Shun.fooBan ['*']) 100 :=
  (akill_period (.refl _) (foo 100 0) (by decide) made_foo).1.mpr (.inl rfl)

/-- A KLINE of ten seconds that is over, but has not been purged. -/
private def overdue : List Action :=
  [.add (some ['*']) "foo.bar".toList { isLocal := true, lasts := some (0, 10) }, .tick 20]

/-- An AKILL for the mask of a ban that is over is not taken up. -/
theorem akill_dropped : ¬ ∀ (state : State) (message : Message) (ban : Ban),
    (machine undated).Run Machine.Any .start state → state.now < message.over →
    makeHostbasedBan (some message.user) message.host = some ban →
    (state.mAkill undated message).Enforces undated ban message.over := by
  intro holds
  have enforces := holds (overdue.foldl (machine undated).perform .start) (foo 100 20) (Shun.fooBan ['*'])
    (.of_list overdue (.refl _) ⟨rfl, trivial, trivial, trivial, trivial⟩) (by decide) made_foo
  have found := enforces _ (.refl _) (by decide) Shun.ann (by decide)
  revert found
  decide

end SolidIrcd.UserBan.Akill
