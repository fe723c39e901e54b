import SolidIrcd.Kill.Deliver

/-! When everything has been read both servers have the same users. -/

namespace SolidIrcd.Kill

open Scan (Text)
open Whowas (ClientId)

variable {home : ClientId → Side} {world start final : World}

/-- Both servers have the same users under the same nicknames, and nothing is on its way. -/
structure Linked (home : ClientId → Side) (world : World) : Prop where
  sound : ∀ side, (world.servers side).Sound home side
  same : ∀ user, (world.servers .left).nameOf user = (world.servers .right).nameOf user
  quiet : ∀ side, world.inbox side = []

/-- A line is read where the nicknames in it find whom the other server meant. -/
def Orderly (world : World) : Action → Prop
  | .deliver side => ∀ line ∈ (world.inbox side).head?, (world.servers side).Understands line
  | _ => True

theorem view_quiet (home : ClientId → Side) (quiet : ∀ side, world.inbox side = []) (user : ClientId) :
    (world.view home user).sent = [] ∧ (world.view home user).killed = false := by
  simp [World.view, quiet]

theorem Linked.own_eq_other (home : ClientId → Side)
    (same : ∀ user, (world.servers .left).nameOf user = (world.servers .right).nameOf user)
    (user : ClientId) : (world.view home user).own = (world.view home user).other := by
  unfold World.view
  cases home user with
  | left => exact same user
  | right => exact (same user).symm

theorem Linked.sane (linked : Linked home world) : Sane home world where
  sound := linked.sound
  proper side line member := by
    rw [linked.quiet side] at member
    cases member
  good user := by
    obtain ⟨sent, killed⟩ := view_quiet home linked.quiet user
    have same := Linked.own_eq_other home linked.same user
    cases known : (world.view home user).other with
    | none =>
      refine .inr ⟨known, fun nick => ?_, .inl (same.trans known)⟩
      rw [sent]
      exact List.not_mem_nil
    | some name =>
      refine .inl ⟨killed, .inr ⟨name, known, ?_⟩⟩
      rw [sent]
      exact same.trans known

theorem Sane.perform (sane : Sane home world) (action : Action) (possible : possible home world action)
    (orderly : Orderly world action) : Sane home (perform world action) := by
  cases action with
  | tick side seconds => exact sane.tick side seconds
  | connect side user nick username host => exact sane.connect possible.1 possible.2.1 possible.2.2
  | nick side sptr nick => exact sane.changeNick possible.1 possible.2.1 fun acptr found => (possible.2.2 acptr found).1
  | quit side sptr => exact sane.quit possible.1 possible.2
  | kill side sptr nick => exact sane.operKill possible.1 possible.2 nick
  | deliver side => exact sane.deliver orderly

/-- The servers agree whenever nothing is on its way. -/
theorem Sane.agree (sane : Sane home world) (quiet : ∀ side, world.inbox side = []) (user : ClientId) :
    (world.servers .left).nameOf user = (world.servers .right).nameOf user := by
  obtain ⟨sent, killed⟩ := view_quiet home quiet user
  have same := (sane.good user).quiet sent killed
  unfold World.view at same
  cases here : home user with
  | left =>
    rw [here] at same
    exact same
  | right =>
    rw [here] at same
    exact same.symm

/-- After every run in which the nicknames find whom they are meant for, the servers agree as soon as all is read. -/
theorem servers_agree (linked : Linked home start) (run : (link home).Run Orderly start final)
    (quiet : ∀ side, final.inbox side = []) (user : ClientId) :
    (final.servers .left).nameOf user = (final.servers .right).nameOf user := by
  have sane : Sane home final :=
    run.invariant (Sane home) (fun _ action can orderly sane => sane.perform action can orderly) linked.sane
  exact sane.agree quiet user

/-! A KILL crosses a change of the nickname -/

private def name (text : String) (short : text.toList.length ≤ nickLen := by decide) : Name := ⟨text.toList, short⟩

private def users (side : Side) : List Client :=
  [⟨0, name "x", 5, [], [], side = .left⟩, ⟨1, name "oper", 5, [], [], side = .right⟩]

private def joined : World := ⟨fun side => ⟨users side, [], 100⟩, fun _ => []⟩

private def homes (user : ClientId) : Side := if user = 1 then .right else .left

private theorem joined_linked : Linked homes joined where
  sound side := by
    constructor
    · cases side <;> exact (by decide : [0, 1].Nodup)
    · cases side <;> decide
    · cases side <;> decide
  same user := by
    cases zero : decide (0 = user) <;> cases one : decide (1 = user) <;>
      simp only [Server.nameOf, joined, users, List.find?_cons, zero, one] <;> rfl
  quiet _ := rfl

/-- User 0 changes its nickname, user 2 takes the old one, and the operator of the other server kills it: the KILL
comes to a nickname that has a new holder. -/
private def crossing : List Action :=
  [.nick .left ⟨0, name "x", 5, [], [], true⟩ (name "y"), .connect .left 2 (name "x") [] [],
    .kill .right ⟨1, name "oper", 5, [], [], true⟩ (name "x"), .deliver .left, .deliver .right, .deliver .right,
    .deliver .left]

private theorem stranger (world : World) (user : ClientId)
    (named : ∀ side, ∀ pair ∈ (world.servers side).named ++ (world.inbox side).flatMap Line.named, pair.2 ≠ user)
    (nick : Name) : ¬ world.Means nick user := by
  rintro ⟨side, known | ⟨line, inside, known⟩⟩
  · exact named side _ (List.mem_append_left _ known) rfl
  · exact named side _ (List.mem_append_right _ (List.mem_flatMap.mpr ⟨line, inside, known⟩)) rfl

private theorem crossing_allowed : (link homes).Allows Machine.Any joined crossing := by
  refine ⟨⟨.head _, rfl, ?_⟩, trivial, ⟨rfl, ?_, ?_⟩, trivial, ⟨.tail _ (.head _), rfl⟩, trivial, ?_,
    trivial, ?_, trivial, ?_, trivial, ?_, trivial, trivial⟩
  · exact fun acptr found => absurd (found.symm.trans (by decide : _ = none)) (Option.some_ne_none acptr)
  · apply stranger
    intro side
    cases side <;> decide
  · decide
  · exact List.cons_ne_nil _ _
  · exact List.cons_ne_nil _ _
  · exact List.cons_ne_nil _ _
  · exact List.cons_ne_nil _ _

/-- What a KILL does to a nickname with a new holder is never repaired. -/
theorem kill_new_holder : ¬ ∀ (home : ClientId → Side) (start final : World), Linked home start →
    (link home).Run Machine.Any start final → (∀ side, final.inbox side = []) →
    ∀ user, (final.servers .left).nameOf user = (final.servers .right).nameOf user := by
  intro agree
  have same := agree homes joined _ joined_linked (.of_list crossing (.refl _) crossing_allowed)
    (by intro side; cases side <;> rfl) 2
  exact absurd same (by decide)

/-- A KILL that crosses a change of the nickname goes after the user. -/
private def chasing : List Action :=
  [.nick .left ⟨0, name "x", 5, [], [], true⟩ (name "y"), .kill .right ⟨1, name "oper", 5, [], [], true⟩ (name "x"),
    .deliver .left, .deliver .right, .deliver .right, .deliver .left]

private theorem free_of_none (none : (world.servers side).findClient nick = none) (user : ClientId) :
    (world.servers side).Free nick user := by
  intro cptr found
  rw [none] at found
  cases found

private theorem sends_of_none (none : (world.servers side).findClient nick = none) (user : ClientId) :
    (world.servers side).Sends nick user :=
  fun cptr found => .inl (free_of_none none user cptr found)

private theorem chasing_allowed : (link homes).Allows Orderly joined chasing := by
  refine ⟨⟨.head _, rfl, ?_⟩, trivial, ⟨.tail _ (.head _), rfl⟩, trivial, ?_, ?_, ?_, ?_, ?_, ?_, ?_, ?_, trivial⟩
  · exact fun acptr found => absurd (found.symm.trans (by decide : _ = none)) (Option.some_ne_none acptr)
  · exact List.cons_ne_nil _ _
  · intro line is
    obtain rfl := Option.some.inj is
    exact ⟨fun _ => ⟨by decide, by decide⟩, fun _ => free_of_none (by decide) 0⟩
  · exact List.cons_ne_nil _ _
  · intro line is
    obtain rfl := Option.some.inj is
    exact ⟨sends_of_none (by decide) 0, fun there => absurd (by decide) there⟩
  · exact List.cons_ne_nil _ _
  · intro line is
    obtain rfl := Option.some.inj is
    exact ⟨fun there => absurd (by decide) there, fun _ => free_of_none (by decide) 0⟩
  · exact List.cons_ne_nil _ _
  · intro line is
    obtain rfl := Option.some.inj is
    exact ⟨fun there => absurd (by decide) there, fun _ => free_of_none (by decide) 0⟩

theorem servers_agree_chased :
    ((chasing.foldl (link homes).perform joined).servers .left).nameOf 0 =
      ((chasing.foldl (link homes).perform joined).servers .right).nameOf 0 :=
  servers_agree joined_linked (.of_list chasing (.refl _) chasing_allowed) (by intro side; cases side <;> rfl) 0

end SolidIrcd.Kill
