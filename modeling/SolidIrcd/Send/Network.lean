import Mathlib.Data.Fintype.Sum
import SolidIrcd.Lib.Flood
import SolidIrcd.Lib.Scan
import SolidIrcd.Send.Channel

/-! Lines that go from server to server: `sendto_serv_butone`, `sendto_channel_butone` and `sendto_prefix_one`,
as every server of a network calls them for what it is told. -/

namespace SolidIrcd.Send.Network

open Send.Channel (ClientId Member Members Call Buffer highestSerial)
open Scan (Text)

inductive Line (ν υ : Type) where
  /-- To all servers, as `GLOBOPS` is. -/
  | serv (speaker : ν) (text : Text)
  | channel (sender : υ) (name : Text) (text : Text)
  | user (sender acptr : υ) (text : Text)
  deriving DecidableEq

/-- Servers that are linked in a tree, and agree about who is where; no connection is lost. `passes` is what the
checks of `m_message` come to on a server (`can_send`, floods, silences). -/
structure Net (ν υ : Type) where
  tree : Tree ν
  client : ν ⊕ υ → ClientId
  distinct : Function.Injective client
  home : υ → ν
  serverList : ν → List ν
  joined : ∀ here c, c ∈ serverList here ↔ tree.Behind here c c
  fd : ν → ClientId → Nat
  fds : ∀ here, Function.Injective (fd here)
  servhub : ν → Bool
  deaf : υ → Bool
  uline : υ → Bool
  members : ν → Text → List υ
  once : ∀ here name, (members here name).Nodup
  same : ∀ here there name, ∀ user ∈ members here name, user ∈ members there name
  passes : ν → Line ν υ → Bool

/-- The serials of `sentalong`, and what was queued for whom. -/
structure Node (ν υ : Type) where
  stamps : Stamps Nat
  queued : List (ClientId × Line ν υ)

variable {ν υ : Type} [DecidableEq ν] [DecidableEq υ]

namespace Net

variable (net : Net ν υ)

/-- `from`, of a user. -/
def reached (here : ν) (user : υ) : ClientId :=
  if net.home user = here then net.client (.inr user) else net.client (.inl (net.tree.next here (net.home user)))

def member (here : ν) (user : υ) : Member where
  client := net.client (.inr user)
  link := net.reached here user
  myClient := net.home user = here
  deaf := net.deaf user
  uline := net.uline user

/-- The members of a channel, as a server lists them. -/
def membersOf (here : ν) (name : Text) : Members where
  list := (net.members here name).map (net.member here)
  once := by
    rw [List.map_map]
    exact (net.once here name).map (net.distinct.comp Sum.inr_injective)
  own := by
    intro member inside mine
    obtain ⟨user, _, rfl⟩ := List.mem_map.mp inside
    exact if_pos (of_decide_eq_true mine)
  links := by
    intro member inside remote other inside' _
    obtain ⟨user, _, rfl⟩ := List.mem_map.mp inside
    obtain ⟨user', _, rfl⟩ := List.mem_map.mp inside'
    have away : net.home user ≠ here := of_decide_eq_false remote
    have link : net.reached here user = net.client (.inl (net.tree.next here (net.home user))) := if_neg away
    exact fun same => absurd (net.distinct (link.symm.trans same)) Sum.inl_ne_inr

/-- The call of `m_message`; `cptr` is the sender, or the link that the line came over. -/
def call (here : ν) (came : Option ν) (sender : υ) (name : Text) : Call where
  members := net.membersOf here name
  one := net.client ((came.map Sum.inl).getD (.inr sender))
  myClient := net.home sender = here
  servhub := net.servhub here
  fd := net.fd here
  room := fun _ => true
  distinct := net.fds here

/-- `sendto_prefix_one` drops a line that would go back to where its sender is. -/
def fakeDirection (here : ν) (sender acptr : υ) : Bool :=
  net.home sender ≠ here ∧ net.reached here acptr = net.reached here sender

/-- What a server does with a line: what it queues for its users and for the other servers. -/
def take : Flood.Take ν (Node ν υ) (Line ν υ) := fun here node came line =>
  match line with
  | .serv _ _ => (node, fun c => if c ∈ net.serverList here ∧ came ≠ some c then [line] else [])
  | .channel sender name _ =>
    if net.passes here line then
      let (stamps, sent) := (net.call here came sender name).sendtoChannelButone node.stamps
      (⟨stamps, node.queued ++ sent.map fun copy => (copy.1, line)⟩,
        fun c => (Channel.queued sent (net.client (.inl c))).map fun _ => line)
    else (node, fun _ => [])
  | .user sender acptr _ =>
    if !net.passes here line || net.fakeDirection here sender acptr then (node, fun _ => [])
    else if net.home acptr = here then
      ({ node with queued := node.queued ++ [(net.client (.inr acptr), line)] }, fun _ => [])
    else (node, fun c => if c = net.tree.next here (net.home acptr) then [line] else [])

/-- The server that a line comes from. -/
def origin : Line ν υ → ν
  | .serv speaker _ => speaker
  | .channel sender _ _ => net.home sender
  | .user sender _ _ => net.home sender

/-- Whom a line is for. -/
def concerns (user : υ) : Line ν υ → Bool
  | .serv _ _ => false
  | .channel sender name _ => user ∈ net.members (net.home user) name ∧ user ≠ sender ∧ net.deaf user = false
  | .user _ acptr _ => acptr = user

/-- A services hub sends no channel line to a service. -/
def spares (here : ν) (user : υ) : Line ν υ → Bool
  | .channel _ _ _ => net.servhub here && net.uline user
  | _ => false

/-- A server lets a line through to a user. -/
def lets (here : ν) (user : υ) (line : Line ν υ) : Bool := net.passes here line && !net.spares here user line

/-- What a user is sent of the lines that come to the user's server. -/
def gets (user : υ) (line : Line ν υ) : Bool := net.concerns user line && net.lets (net.home user) user line

/-- What was queued for a user. -/
def copies (node : Node ν υ) (user : υ) : List (Line ν υ) :=
  (node.queued.filter fun copy => copy.1 = net.client (.inr user)).map Prod.snd

/-- A server that a line may be told. -/
def may (line : Line ν υ) (here : ν) : Prop :=
  match line with
  | .serv _ _ => True
  | .channel _ _ _ => ∃ user, net.home user = here ∧ net.concerns user line = true
  | .user _ acptr _ => net.home acptr = here

section Clear

variable [Fintype ν]

/-- Every server lets the line through to the user. -/
def clear (user : υ) (line : Line ν υ) : Bool := ∀ here, net.lets here user line = true

/-- A server with users that must get the line. -/
def must (line : Line ν υ) (here : ν) : Bool :=
  match line with
  | .serv _ _ => true
  | .channel _ name _ =>
    ∃ user ∈ net.members here name,
      net.home user = here ∧ net.concerns user line = true ∧ net.clear user line = true
  | .user _ acptr _ => net.clear acptr line ∧ net.home acptr = here

end Clear

variable {net} {here : ν} {came : Option ν} {sender user : υ} {name : Text} {stamps : Stamps Nat}

omit [DecidableEq υ] in
theorem reached_inl (away : net.home user ≠ here) :
    net.reached here user = net.client (.inl (net.tree.next here (net.home user))) := if_neg away

omit [DecidableEq ν] [DecidableEq υ] in
theorem queued_due (call : Call) (sound : stamps.Sound highestSerial) (link : ClientId) :
    Channel.queued (call.sendtoChannelButone stamps).2 link = call.due call.members.list link :=
  (Channel.served_loop call call.members.list call.members.once call.members.own call.members.links
    sound.unmarked_next).queued link

omit [DecidableEq υ] in
theorem eligible_member : (net.call here came sender name).eligible (net.member here user) = true ↔
    net.reached here user ≠ (net.call here came sender name).one ∧ net.deaf user = false ∧
      (net.servhub here && net.uline user) = false := by
  simp only [Call.eligible, member, call, Bool.and_eq_true, Bool.not_eq_true', and_assoc]
  exact and_congr_left fun _ => decide_eq_true_iff

omit [DecidableEq υ] in
/-- A member here is passed over as the sender only. -/
theorem eligible_here (arrives : Flood.Arrives net.tree here came (net.home sender)) (mine : net.home user = here) :
    (net.call here came sender name).eligible (net.member here user) = true ↔
      user ≠ sender ∧ net.deaf user = false ∧ (net.servhub here && net.uline user) = false := by
  have link : net.reached here user = net.client (.inr user) := if_pos mine
  rw [eligible_member, link]
  refine and_congr_left fun _ => ?_
  cases came with
  | none => simp [call, net.distinct.eq_iff]
  | some sender' =>
    have away : user ≠ sender := by
      rintro rfl
      exact arrives.1 mine
    simp [call, net.distinct.eq_iff, away]

omit [DecidableEq υ] in
/-- A member elsewhere is passed over where the line came from. -/
theorem eligible_away (arrives : Flood.Arrives net.tree here came (net.home sender)) (away : net.home user ≠ here) :
    (net.call here came sender name).eligible (net.member here user) = true ↔
      came ≠ some (net.tree.next here (net.home user)) ∧ net.deaf user = false ∧
        (net.servhub here && net.uline user) = false := by
  rw [eligible_member, reached_inl away]
  refine and_congr_left fun _ => ?_
  cases came with
  | none => simp [call, net.distinct.eq_iff]
  | some sender' => simp [call, net.distinct.eq_iff, eq_comm]

omit [DecidableEq υ] in
theorem reaches_iff (arrives : Flood.Arrives net.tree here came (net.home sender)) (mine : net.home user = here) :
    (net.call here came sender name).Reaches (net.membersOf here name).list (net.client (.inr user)) ↔
      user ∈ net.members here name ∧ user ≠ sender ∧ net.deaf user = false ∧
        (net.servhub here && net.uline user) = false := by
  rw [← eligible_here arrives mine]
  constructor
  · rintro ⟨member, inside, eligible, _, same⟩
    obtain ⟨other, present, rfl⟩ := List.mem_map.mp inside
    have same : other = user := Sum.inr_injective (net.distinct same)
    rw [← same]
    exact ⟨present, eligible⟩
  · rintro ⟨present, eligible⟩
    exact ⟨_, List.mem_map_of_mem present, eligible, decide_eq_true mine, rfl⟩

omit [DecidableEq υ] in
theorem leads_iff (arrives : Flood.Arrives net.tree here came (net.home sender)) :
    (net.call here came sender name).Leads (net.membersOf here name).list (net.client (.inl c)) ↔
      ∃ user ∈ net.members here name, net.tree.Behind here c (net.home user) ∧ came ≠ some c ∧
        net.deaf user = false ∧ (net.servhub here && net.uline user) = false := by
  constructor
  · rintro ⟨member, inside, eligible, remote, same⟩
    obtain ⟨user, present, rfl⟩ := List.mem_map.mp inside
    have away : net.home user ≠ here := of_decide_eq_false remote
    have next : net.tree.next here (net.home user) = c :=
      Sum.inl_injective (net.distinct ((reached_inl away).symm.trans same))
    rw [eligible_away arrives away, next] at eligible
    exact ⟨user, present, ⟨away, next⟩, eligible⟩
  · rintro ⟨user, present, ⟨away, next⟩, eligible⟩
    refine ⟨_, List.mem_map_of_mem present, (eligible_away arrives away).mpr (next ▸ eligible),
      decide_eq_false away, ?_⟩
    exact (reached_inl away).trans (next ▸ rfl)

omit [DecidableEq υ] in
theorem not_reaches :
    ¬ (net.call here came sender name).Reaches (net.membersOf here name).list (net.client (.inl c)) := by
  rintro ⟨member, inside, _, _, same⟩
  obtain ⟨user, _, rfl⟩ := List.mem_map.mp inside
  exact absurd (net.distinct same) Sum.inr_ne_inl

omit [DecidableEq υ] in
theorem not_leads :
    ¬ (net.call here came sender name).Leads (net.membersOf here name).list (net.client (.inr user)) := by
  rintro ⟨member, inside, _, remote, same⟩
  obtain ⟨other, _, rfl⟩ := List.mem_map.mp inside
  have away : net.home other ≠ here := of_decide_eq_false remote
  exact absurd (net.distinct ((reached_inl away).symm.trans same)) Sum.inl_ne_inr

omit [DecidableEq υ] in
/-- What a channel line puts on a link. -/
theorem sent_link (sound : stamps.Sound highestSerial) (c : ν) :
    Channel.queued ((net.call here came sender name).sendtoChannelButone stamps).2 (net.client (.inl c)) =
      if (net.call here came sender name).Leads (net.membersOf here name).list (net.client (.inl c))
      then [.remotebuf] else [] := by
  have members : (net.call here came sender name).members.list = (net.membersOf here name).list := rfl
  rw [queued_due _ sound, Call.due, members, if_neg (by simp [call]), if_neg not_reaches]

/-- What a channel line queues for a user here. -/
theorem sent_user (arrives : Flood.Arrives net.tree here came (net.home sender)) (sound : stamps.Sound highestSerial)
    (mine : net.home user = here) :
    Channel.queued ((net.call here came sender name).sendtoChannelButone stamps).2 (net.client (.inr user)) =
      if user ∈ net.members here name ∧ user ≠ sender ∧ net.deaf user = false ∧
        (net.servhub here && net.uline user) = false then [.sendbuf] else [] := by
  have members : (net.call here came sender name).members.list = (net.membersOf here name).list := rfl
  rw [queued_due _ sound, Call.due, members, if_neg (by simp [call]), if_neg not_leads]
  exact if_congr (reaches_iff arrives mine) rfl rfl

/-- The serials are in order, and each user here was queued all that was for the user. -/
def Fit (net : Net ν υ) (here : ν) (node : Node ν υ) (told : List (Line ν υ)) : Prop :=
  node.stamps.Sound highestSerial ∧ ∀ user, net.home user = here → net.copies node user = told.filter (net.gets user)

omit [DecidableEq υ] in
/-- A line to one user is dropped where it would go back. -/
theorem fakeDirection_iff (arrives : Flood.Arrives net.tree here came (net.home sender)) :
    net.fakeDirection here sender acptr = true ↔
      net.home acptr ≠ here ∧ came = some (net.tree.next here (net.home acptr)) := by
  simp only [fakeDirection, decide_eq_true_eq]
  cases came with
  | none =>
    have mine : net.home sender = here := Eq.symm arrives
    simp [mine]
  | some sender' =>
    obtain ⟨away, next⟩ : net.home sender ≠ here ∧ net.tree.next here (net.home sender) = sender' := arrives
    rw [reached_inl away, next]
    by_cases mine : net.home acptr = here
    · simp [reached, mine, away, net.distinct.eq_iff]
    · rw [reached_inl mine, net.distinct.eq_iff]
      simp [mine, away, eq_comm]

omit [DecidableEq ν] [DecidableEq υ] in
theorem copies_append : net.copies ⟨stamps, queued ++ more⟩ user =
    net.copies ⟨stamps', queued⟩ user ++ (more.filter fun copy => copy.1 = net.client (.inr user)).map Prod.snd := by
  simp [copies]

omit [DecidableEq ν] in
theorem gets_channel (passes : net.passes (net.home user) (.channel sender name text) = true) :
    net.gets user (.channel sender name text) = true ↔ user ∈ net.members (net.home user) name ∧ user ≠ sender ∧
      net.deaf user = false ∧ (net.servhub (net.home user) && net.uline user) = false := by
  simp only [gets, lets, spares, concerns, passes, Bool.true_and, Bool.and_eq_true, decide_eq_true_eq,
    Bool.not_eq_true', and_assoc]

/-- What a line adds to what a user here was queued. -/
theorem copies_take (arrives : Flood.Arrives net.tree here came (net.origin line))
    (sound : node.stamps.Sound highestSerial) (mine : net.home user = here) :
    net.copies (net.take here node came line).1 user = net.copies node user ++ [line].filter (net.gets user) := by
  subst mine
  cases line with
  | serv speaker text => simp [take, gets, concerns]
  | channel sender name text =>
    simp only [take]
    by_cases passes : net.passes (net.home user) (.channel sender name text) = true
    · have queued : (Channel.queued ((net.call (net.home user) came sender name).sendtoChannelButone node.stamps).2
          (net.client (.inr user))).map (fun _ => Line.channel sender name text) =
            [Line.channel sender name text].filter (net.gets user) := by
        rw [sent_user arrives sound rfl]
        by_cases got : net.gets user (.channel sender name text) = true
        · rw [if_pos ((gets_channel passes).mp got)]
          simp [got]
        · rw [if_neg fun all => got ((gets_channel passes).mpr all)]
          simp [got]
      rw [if_pos passes, copies_append, List.filter_map, List.map_map, ← queued, Channel.queued, List.map_map]
      rfl
    · simp [gets, lets, passes]
  | user sender acptr text =>
    simp only [take]
    by_cases own : acptr = user
    · subst own
      have direction : net.fakeDirection (net.home acptr) sender acptr = false := by
        rw [← Bool.not_eq_true, fakeDirection_iff arrives]
        simp
      cases passes : net.passes (net.home acptr) (.user sender acptr text) with
      | true => simp [direction, gets, lets, spares, concerns, passes, copies]
      | false => simp [gets, lets, passes]
    · have other : net.client (.inr acptr) ≠ net.client (.inr user) := by simp [net.distinct.eq_iff, own]
      split
      · simp [gets, concerns, own]
      · split
        · simp [gets, concerns, own, copies, other]
        · simp [gets, concerns, own]

omit [DecidableEq υ] in
/-- What a server does with a line keeps its serials in order. -/
theorem sound_take (sound : node.stamps.Sound highestSerial) :
    (net.take here node came line).1.stamps.Sound highestSerial := by
  cases line with
  | serv speaker text => exact sound
  | channel sender name text =>
    simp only [take]
    split
    · exact Channel.sound_loop _ _ (sound.next (by decide))
    · exact sound
  | user sender acptr text =>
    simp only [take]
    split
    · exact sound
    · split <;> exact sound

/-- The line goes to the neighbour `c`. -/
def Sends (net : Net ν υ) (here : ν) (came : Option ν) (line : Line ν υ) (c : ν) : Prop :=
  came ≠ some c ∧ match line with
    | .serv _ _ => net.tree.Behind here c c
    | .channel _ name _ => net.passes here line = true ∧ ∃ user ∈ net.members here name,
      net.tree.Behind here c (net.home user) ∧ net.deaf user = false ∧
        (net.servhub here && net.uline user) = false
    | .user _ acptr _ => net.passes here line = true ∧ net.tree.Behind here c (net.home acptr)

omit [DecidableEq υ] in
/-- It goes there once, or not at all. -/
theorem take_sends (arrives : Flood.Arrives net.tree here came (net.origin line))
    (sound : node.stamps.Sound highestSerial) (c : ν) :
    (net.take here node came line).2 c = [line] ∧ net.Sends here came line c ∨
      (net.take here node came line).2 c = [] ∧ ¬ net.Sends here came line c := by
  cases line with
  | serv speaker text =>
    simp only [take, Sends, ← net.joined]
    by_cases sent : c ∈ net.serverList here ∧ came ≠ some c
    · exact .inl ⟨if_pos sent, sent.symm⟩
    · exact .inr ⟨if_neg sent, fun both => sent both.symm⟩
  | channel sender name text =>
    simp only [take, Sends]
    by_cases passes : net.passes here (.channel sender name text) = true
    · simp only [if_pos passes]
      rw [sent_link sound]
      split
      next leads =>
        obtain ⟨user, present, behind, forth, rest⟩ := (leads_iff arrives).mp leads
        exact .inl ⟨rfl, forth, passes, user, present, behind, rest⟩
      next nobody =>
        refine .inr ⟨rfl, ?_⟩
        rintro ⟨forth, _, user, present, behind, rest⟩
        exact nobody ((leads_iff arrives).mpr ⟨user, present, behind, forth, rest⟩)
    · rw [if_neg passes]
      exact .inr ⟨rfl, fun sent => passes sent.2.1⟩
  | user sender acptr text =>
    simp only [take, Sends, Bool.or_eq_true, Bool.not_eq_true', fakeDirection_iff arrives]
    cases passes : net.passes here (.user sender acptr text) with
    | false => simp
    | true =>
      by_cases mine : net.home acptr = here
      · simp [mine, Tree.Behind]
      · by_cases next : c = net.tree.next here (net.home acptr)
        · subst next
          by_cases back : came = some (net.tree.next here (net.home acptr))
          · simp [back, mine]
          · simp [back, mine, Tree.Behind]
        · have other : net.tree.next here (net.home acptr) ≠ c := Ne.symm next
          split <;> simp [mine, next, other, Tree.Behind]

omit [DecidableEq ν] [DecidableEq υ] in
theorem lets_iff : net.lets here user line = true ↔ net.passes here line = true ∧ net.spares here user line = false := by
  simp only [lets, Bool.and_eq_true, Bool.not_eq_true']

omit [DecidableEq ν] [DecidableEq υ] in
theorem clear_iff [Fintype ν] : net.clear user line = true ↔ ∀ here, net.lets here user line = true :=
  decide_eq_true_iff

theorem sends_of_must [Fintype ν] (forth : came ≠ some c) (wanted : net.must line x = true)
    (ahead : net.tree.Behind here c x) : net.Sends here came line c := by
  refine ⟨forth, ?_⟩
  cases line with
  | serv speaker text => exact ahead.joined
  | channel sender name text =>
    obtain ⟨user, present, mine, concerns, clear⟩ := of_decide_eq_true wanted
    obtain ⟨passes, spares⟩ := lets_iff.mp (clear_iff.mp clear here)
    simp only [Net.concerns, decide_eq_true_eq] at concerns
    exact ⟨passes, user, net.same _ _ _ user present, mine ▸ ahead, concerns.2.2, spares⟩
  | user sender acptr text =>
    obtain ⟨clear, mine⟩ := of_decide_eq_true wanted
    exact ⟨(lets_iff.mp (clear_iff.mp clear here)).1, mine ▸ ahead⟩

omit [DecidableEq ν] in
theorem may_of_sends (arrives : Flood.Arrives net.tree here came (net.origin line))
    (sends : net.Sends here came line c) : ∃ x, net.may line x ∧ net.tree.Behind here c x := by
  obtain ⟨forth, why⟩ := sends
  cases line with
  | serv speaker text => exact ⟨c, trivial, why⟩
  | channel sender name text =>
    obtain ⟨_, user, present, behind, hears, _⟩ := why
    have other : user ≠ sender := by
      rintro rfl
      exact behind.sides.mp behind (arrives.past forth behind)
    exact ⟨_, ⟨user, rfl, by simp [concerns, net.same _ _ _ user present, other, hears]⟩, behind⟩
  | user sender acptr text => exact ⟨_, rfl, why.2⟩

/-- A server passes a line on once, to the servers with users it is for, and never back. -/
theorem relays [Fintype ν] :
    Flood.Relays net.tree net.take (Fit net) net.origin (fun line x => net.must line x = true) net.may where
  fit := fun ⟨sound, queued⟩ arrives _ => by
    refine ⟨sound_take sound, fun user mine => ?_⟩
    rw [copies_take arrives sound mine, queued user mine, List.filter_append]
  once := fun ⟨sound, _⟩ arrives => (take_sends arrives sound _).imp And.left And.left
  reaches := fun ⟨sound, _⟩ arrives forth wanted ahead =>
    (take_sends arrives sound _).elim And.left fun none => absurd (sends_of_must forth wanted ahead) none.2
  only := fun ⟨sound, _⟩ arrives _ inside => by
    obtain ⟨_, sends⟩ | ⟨none, _⟩ := take_sends arrives sound _
    · exact ⟨sends.1, may_of_sends arrives sends⟩
    · rw [none] at inside
      exact absurd inside List.not_mem_nil

omit [DecidableEq ν] in
theorem concerns_of_gets (got : net.gets user line = true) : net.concerns user line = true :=
  ((Bool.and_eq_true ..).mp got).1

omit [DecidableEq ν] in
/-- A user is sent all of the lines for the user that every server lets through. -/
theorem gets_of_clear [Fintype ν] :
    (net.gets user line && net.clear user line) = (net.concerns user line && net.clear user line) := by
  cases clear : net.clear user line with
  | false => simp
  | true => simp [gets, clear_iff.mp clear (net.home user)]

theorem must_of_concerns [Fintype ν] (both : (net.concerns user line && net.clear user line) = true) :
    net.must line (net.home user) = true := by
  obtain ⟨concerns, clear⟩ := (Bool.and_eq_true ..).mp both
  cases line with
  | serv speaker text => rfl
  | channel sender name text =>
    have present : user ∈ net.members (net.home user) name := by
      simp only [Net.concerns, decide_eq_true_eq] at concerns
      exact concerns.1
    exact decide_eq_true ⟨user, present, rfl, concerns, clear⟩
  | user sender acptr text =>
    have same : acptr = user := of_decide_eq_true concerns
    exact decide_eq_true ⟨same ▸ clear, same ▸ rfl⟩

/-- Servers that speak, read what they are sent and do other things, in any order. -/
def network (net : Net ν υ) :
    Machine (Flood.World ν (Node ν υ) (Line ν υ)) (Flood.Action ν (Node ν υ) (Line ν υ)) :=
  Flood.network net.take (Fit net) net.origin

/-- The lines for all servers. -/
def servs (lines : List (Line ν υ)) : List (Line ν υ) :=
  lines.filter fun line => match line with
    | .serv _ _ => true
    | _ => false

end Net

/-- No server has heard or queued anything. -/
def start : Flood.World ν (Node ν υ) (Line ν υ) := ⟨fun _ => ⟨.start, []⟩, fun _ _ => [], fun _ => [], fun _ => []⟩

section Results

variable [Fintype ν] {world : Flood.World ν (Node ν υ) (Line ν υ)}

theorem sound_network (net : Net ν υ) (run : net.network.Run Machine.Any start world) :
    Flood.Sound net.tree (Net.Fit net) net.origin net.must net.may world :=
  Flood.sound_run Net.relays (fun _ => ⟨Stamps.sound_start, fun _ _ => rfl⟩) run

/-- What comes from a server is heard nowhere twice and nowhere in another order; the lines for all servers come to
each of them, once nothing is on its way; and the servers have only to read on for that. -/
theorem serv_everywhere (net : Net ν υ) (run : net.network.Run Machine.Any start world) (speaker here : ν) :
    (Flood.own net.origin speaker (world.heard here)).Sublist (world.spoken speaker) ∧
      (world.Quiet → Net.servs (Flood.own net.origin speaker (world.heard here)) = Net.servs (world.spoken speaker)) ∧
      ∃ final, net.network.Run Flood.Reading world final ∧ final.spoken = world.spoken ∧ final.Quiet := by
  have sound := sound_network net run
  refine ⟨sound.heard_sublist speaker here, fun quiet => ?_, sound.settles Net.relays⟩
  refine sound.heard_filter quiet speaker here _ fun line serv => ?_
  cases line with
  | serv speaker text => rfl
  | channel sender name text => exact absurd serv Bool.false_ne_true
  | user sender acptr text => exact absurd serv Bool.false_ne_true

/-- A user is queued nothing but lines that are for the user, none twice and none in another order; and of those
that all servers let through to the user, every one, once nothing is on its way. -/
theorem lines_delivered (net : Net ν υ) (run : net.network.Run Machine.Any start world) (user : υ) (speaker : ν) :
    (Flood.own net.origin speaker (net.copies (world.node (net.home user)) user)).Sublist
        ((world.spoken speaker).filter (net.concerns user)) ∧
      (world.Quiet →
        (Flood.own net.origin speaker (net.copies (world.node (net.home user)) user)).filter (net.clear user) =
          (world.spoken speaker).filter fun line => net.concerns user line && net.clear user line) := by
  have sound := sound_network net run
  have queued := (sound.fit (net.home user)).2 user rfl
  have swap : Flood.own net.origin speaker ((world.heard (net.home user)).filter (net.gets user)) =
      (Flood.own net.origin speaker (world.heard (net.home user))).filter (net.gets user) := by
    rw [Flood.own, Flood.own, List.filter_filter, List.filter_filter]
    exact List.filter_congr fun line _ => Bool.and_comm ..
  rw [queued, swap]
  constructor
  · exact ((sound.heard_sublist speaker _).filter _).trans
      (List.monotone_filter_right _ fun line got => Net.concerns_of_gets got)
  · intro quiet
    rw [← sound.heard_filter quiet speaker (net.home user) _ fun line both => Net.must_of_concerns both,
      List.filter_filter]
    refine List.filter_congr fun line _ => ?_
    rw [Bool.and_comm]
    exact Net.gets_of_clear

/-- A line is heard by the server that it comes from, and on the way from there to servers that it is for. -/
theorem lines_confined (net : Net ν υ) (run : net.network.Run Machine.Any start world) (here : ν) :
    ∀ line ∈ world.heard here, here = net.origin line ∨
      ∃ x, net.may line x ∧ net.tree.Behind (net.tree.next here (net.origin line)) here x :=
  (sound_network net run).heard here

end Results

-- The numerals of `Fin 3` all rest on this one.
local instance three : @NeZero Nat ⟨0⟩ 3 := ⟨Nat.succ_ne_zero 2⟩

/-- Three servers in a row with a user on each of them, all in one channel. -/
def rowNet : Net (Fin 3) (Fin 3) where
  tree := .row
  client := Sum.elim (fun c => c.val) fun user => 3 + user.val
  distinct := by
    intro first second same
    revert first second
    decide
  home := id
  serverList here := if here = 1 then [0, 2] else [1]
  joined := by
    unfold Tree.Behind
    decide
  fd := fun _ => id
  fds := fun _ => Function.injective_id
  servhub := fun _ => false
  deaf := fun _ => false
  uline := fun _ => false
  members := fun _ _ => [0, 1, 2]
  once := fun _ _ => by decide
  same := fun _ _ _ _ present => present
  passes := fun _ _ => true

/-- The first user speaks to the channel, and the servers read. -/
def hello : Line (Fin 3) (Fin 3) := .channel 0 "#c".toList "hi".toList

def rowActions : List (Flood.Action (Fin 3) (Node (Fin 3) (Fin 3)) (Line (Fin 3) (Fin 3))) :=
  [.speak 0 hello, .read 0 1, .read 1 2]

theorem row_run : rowNet.network.Run Machine.Any start (rowActions.foldl (Flood.perform rowNet.take) start) :=
  Machine.Run.of_list rowActions (.refl start) ⟨rfl, trivial, trivial, trivial, trivial, trivial, trivial⟩

theorem lines_delivered_row :
    (Flood.own rowNet.origin 0
      (rowNet.copies ((rowActions.foldl (Flood.perform rowNet.take) start).node 2) 2)).filter (rowNet.clear 2) =
        [hello] := by
  have quiet : (rowActions.foldl (Flood.perform rowNet.take) start).Quiet := by
    unfold Flood.World.Quiet
    decide
  exact ((lines_delivered rowNet row_run 2 0).2 quiet).trans (by decide)

theorem lines_confined_row : 2 = rowNet.origin hello ∨
    ∃ x, rowNet.may hello x ∧ Tree.row.Behind (Tree.row.next 2 (rowNet.origin hello)) 2 x :=
  lines_confined rowNet row_run 2 hello (by decide)

/-- A line for all servers, which the last has not read. -/
def news : Line (Fin 3) (Fin 3) := .serv 0 "news".toList

def newsActions : List (Flood.Action (Fin 3) (Node (Fin 3) (Fin 3)) (Line (Fin 3) (Fin 3))) :=
  [.speak 0 news, .read 0 1]

theorem news_run : rowNet.network.Run Machine.Any start (newsActions.foldl (Flood.perform rowNet.take) start) :=
  Machine.Run.of_list newsActions (.refl start) ⟨rfl, trivial, trivial, trivial, trivial⟩

/-- The last server reads it in the end. -/
theorem serv_everywhere_row : ∃ final,
    rowNet.network.Run Flood.Reading (newsActions.foldl (Flood.perform rowNet.take) start) final ∧ final.Quiet ∧
      Net.servs (Flood.own rowNet.origin 0 (final.heard 2)) = [news] := by
  obtain ⟨final, run, spoken, quiet⟩ := (serv_everywhere rowNet news_run 0 2).2.2
  have whole : rowNet.network.Run Machine.Any start final := news_run.trans (run.mono fun _ _ _ => trivial)
  refine ⟨final, run, quiet, ?_⟩
  rw [(serv_everywhere rowNet whole 0 2).2.1 quiet, spoken]
  rfl

end SolidIrcd.Send.Network
