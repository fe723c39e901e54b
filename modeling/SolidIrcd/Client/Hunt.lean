import SolidIrcd.Channel.Collapse
import SolidIrcd.Lib.Flood

/-! `hunt_server`: a command for another server goes from server to server. The first puts the name of the server
that it has found in the place of a mask. -/

namespace SolidIrcd.Hunt

open Scan (Text)
open Mask (isWild collapse matchMask maxCalls)

/-- What a server knows of the others, in the order of its list `client`; `hidden` is the user mode that keeps a
client from commands of users. -/
structure View (κ : Type) where
  me : Text
  clients : List κ
  name : κ → Text
  status : κ → Status
  myClient : κ → Bool
  hidden : κ → Bool

inductive Error where
  | noSuchServer
  | noPrivileges
  deriving DecidableEq, Repr

/-- `HUNTED_ISME`, `HUNTED_NOSUCH` with the numeric that `sptr` is sent, and `HUNTED_PASS` with the client that the
command is sent to, and what stands in `parv[server]` then. -/
inductive Hunted (κ : Type) where
  | isMe
  | noSuch (error : Error)
  | pass (acptr : κ) (server : Text)

variable {κ : Type}

/-- The first server that a mask matches, or the registered client of that name. -/
def View.find (view : View κ) (server : Text) : Option (κ × Text) :=
  if '?' ∈ server ∨ '*' ∈ server then
    (view.clients.find? fun acptr => view.status acptr == .server && matchMask server (view.name acptr)).map
      fun acptr => (acptr, view.name acptr)
  else
    ((view.clients.find? fun acptr => mycmp server (view.name acptr)).filter
      fun acptr => (view.status acptr).isRegistered).map fun acptr => (acptr, server)

/-- `hunt_server`; `user` says that `sptr` is a user of this server and no operator. -/
def huntServer (view : View κ) (user : Bool) (server : Option Text) : Hunted κ :=
  match server with
  | none => .isMe
  | some [] => .isMe
  | some server =>
    if matchMask (collapse server) view.me then .isMe
    else
      match view.find (collapse server) with
      | none => .noSuch .noSuchServer
      | some (acptr, server) =>
        if user && view.hidden acptr then .noSuch .noPrivileges
        else if view.myClient acptr then .isMe
        else .pass acptr server

/-- Servers and users of a network in which every server knows all of them, in an order of its own. -/
structure Net (ν υ : Type) where
  tree : Tree ν
  home : υ → ν
  name : ν ⊕ υ → Text
  hidden : υ → Bool
  clients : ν → List (ν ⊕ υ)
  known : ∀ here x, x ∈ clients here
  alone : ∀ x y, mycmp (name x) (name y) = true → x = y
  plain : ∀ x, ∀ c ∈ name x, isWild c = false
  named : ∀ x, name x ≠ []
  short : ∀ x, (name x).length ≤ maxCalls

variable {ν υ : Type} [DecidableEq ν]

namespace Net

variable (net : Net ν υ)

/-- The server of a client. -/
def serverOf : ν ⊕ υ → ν := Sum.elim id net.home

def view (here : ν) : View (ν ⊕ υ) where
  me := net.name (.inl here)
  clients := net.clients here
  name := net.name
  status x := match x with
    | .inl c => if c = here then .me else .server
    | .inr _ => .client
  myClient x := match x with
    | .inl _ => false
    | .inr user => net.home user = here
  hidden := Sum.elim (fun _ => false) net.hidden

end Net

theorem collapse_plain (plain : ∀ c ∈ text, isWild c = false) : collapse text = text := by
  fun_induction collapse text with
  | case1 => rfl
  | case2 => rfl
  | case3 c rest ih =>
    rw [ih fun d member => plain d (by simp [member])]
  | case4 rest ih => exact absurd (plain '*' (List.mem_cons_self ..)) (by decide)
  | case5 c rest _ _ _ ih => rw [ih fun d member => plain d (by simp [member])]

/-- On names without wildcards, `match` is `mycmp`. -/
theorem matchMask_plain (plain : ∀ c ∈ text, isWild c = false) (short : text.length ≤ maxCalls) :
    matchMask text string = true ↔ mycmp text string = true :=
  ⟨fun found => (Mask.means_plain plain string).mp (Mask.matchMask_sound found),
    fun equal => Mask.matchMask_of_mycmp equal short⟩

theorem find?_alone {clients : List κ} {p : κ → Bool} (member : x ∈ clients) (found : p x = true)
    (alone : ∀ y, p y = true → y = x) : clients.find? p = some x := by
  cases searched : clients.find? p with
  | none => exact absurd found (List.find?_eq_none.mp searched x member)
  | some y => rw [alone y (List.find?_some searched)]

namespace Net

variable {net : Net ν υ} {server : Text}

omit [DecidableEq ν] in
theorem mycmp_name (same : mycmp server (net.name x) = true) : mycmp server (net.name y) = true ↔ y = x := by
  rw [mycmp_congr_left same]
  refine ⟨fun equal => (net.alone x y equal).symm, ?_⟩
  rintro rfl
  exact mycmp_refl _

theorem status_inl (here c : ν) : (net.view here).status (.inl c) = if c = here then .me else .server := rfl

theorem myClient_inl (here c : ν) : (net.view here).myClient (.inl c) = false := rfl

theorem myClient_inr (here : ν) (user : υ) : (net.view here).myClient (.inr user) = decide (net.home user = here) := rfl

/-- A name finds its client from everywhere. -/
theorem hunt_plain (plain : ∀ c ∈ server, isWild c = false) (same : mycmp server (net.name x) = true) (here : ν) :
    huntServer (net.view here) false (some server) = if net.serverOf x = here then .isMe else .pass x server := by
  have length : server.length = (net.name x).length := by
    simpa using congrArg List.length (mycmp_iff.mp same)
  obtain ⟨c, rest, rfl⟩ : ∃ c rest, server = c :: rest := by
    refine List.exists_cons_of_ne_nil fun empty => net.named x (List.eq_nil_of_length_eq_zero ?_)
    rw [← length, empty]
    rfl
  have me : matchMask (c :: rest) (net.view here).me = true ↔ .inl here = x :=
    (matchMask_plain plain (length ▸ net.short x)).trans (mycmp_name same)
  simp only [huntServer, collapse_plain plain]
  by_cases self : .inl here = x
  · subst self
    rw [if_pos (me.mpr rfl)]
    simp [serverOf]
  · rw [if_neg fun found => self (me.mp found)]
    have wild : ¬ ('?' ∈ c :: rest ∨ '*' ∈ c :: rest) := by
      rintro (mark | star)
      · exact absurd (plain _ mark) (by decide)
      · exact absurd (plain _ star) (by decide)
    have found : (net.clients here).find? (fun acptr => mycmp (c :: rest) (net.name acptr)) = some x :=
      find?_alone (net.known here x) same fun y equal => (mycmp_name same).mp equal
    have registered : ((net.view here).status x).isRegistered = true := by
      cases x with
      | inl other =>
        rw [status_inl, if_neg fun same : other = here => self (congrArg Sum.inl same.symm)]
        rfl
      | inr user => rfl
    have find : (net.view here).find (c :: rest) = some (x, c :: rest) := by
      rw [View.find, if_neg wild]
      change (((net.clients here).find? fun acptr => mycmp (c :: rest) (net.name acptr)).filter _).map _ = _
      rw [found]
      simp [Option.filter, registered]
    cases x with
    | inl other =>
      have away : other ≠ here := fun same => self (congrArg Sum.inl same.symm)
      simp [find, myClient_inl, serverOf, away]
    | inr user =>
      by_cases mine : net.home user = here
      · simp [find, myClient_inr, serverOf, mine]
      · simp [find, myClient_inr, serverOf, mine]

/-- A server finds other clients only, and puts names in the place of masks. -/
theorem find_some {mask : Text} (found : (net.view here).find mask = some (acptr, server)) :
    (∀ c ∈ server, isWild c = false) ∧ mycmp server (net.name acptr) = true ∧ acptr ≠ .inl here := by
  unfold View.find at found
  split at found
  · obtain ⟨acptr', first, same⟩ := Option.map_eq_some_iff.mp found
    obtain ⟨rfl, rfl⟩ := Prod.mk.inj same
    have server := List.find?_some first
    refine ⟨net.plain acptr', mycmp_refl _, ?_⟩
    rintro rfl
    simp [status_inl] at server
  next wild =>
    obtain ⟨acptr', first, same⟩ := Option.map_eq_some_iff.mp found
    obtain ⟨rfl, rfl⟩ := Prod.mk.inj same
    obtain ⟨first, registered⟩ := Option.filter_eq_some_iff.mp first
    refine ⟨fun c member => ?_, List.find?_some (p := fun acptr => mycmp mask (net.name acptr)) first, ?_⟩
    · refine Bool.eq_false_iff.mpr fun mark => wild ?_
      obtain rfl | rfl := (Mask.isWild_iff c).mp mark
      · exact .inr member
      · exact .inl member
    · rintro rfl
      simp [status_inl, Status.isRegistered] at registered

/-- What a server hands on names a client of another server, and has no wildcards. -/
theorem hunt_pass (passed : huntServer (net.view here) user param = .pass acptr server) :
    (∀ c ∈ server, isWild c = false) ∧ mycmp server (net.name acptr) = true ∧ net.serverOf acptr ≠ here := by
  unfold huntServer at passed
  split at passed
  · exact absurd passed nofun
  · exact absurd passed nofun
  split at passed
  · exact absurd passed nofun
  split at passed
  · exact absurd passed nofun
  next acptr' server' found =>
    obtain ⟨plain, same, other⟩ := find_some found
    split at passed
    · exact absurd passed nofun
    split at passed
    · exact absurd passed nofun
    next away =>
      obtain ⟨rfl, rfl⟩ := Hunted.pass.inj passed
      refine ⟨plain, same, fun here' => ?_⟩
      cases acptr' with
      | inl c => exact other (congrArg Sum.inl here')
      | inr user => exact away (decide_eq_true here')

end Net

/-- A command as its first server got it. -/
structure Request (ν : Type) where
  speaker : ν
  user : Bool
  server : Option Text
  text : Text

/-- The commands that a server has run, and the errors that it has sent. -/
structure Node (ν : Type) where
  ran : List (Request ν)
  errors : List (Request ν × Error)

namespace Net

variable (net : Net ν υ)

/-- What the first server makes of a command. -/
def outcome (request : Request ν) : Hunted (ν ⊕ υ) :=
  huntServer (net.view request.speaker) request.user request.server

/-- The parameter that it sends on. -/
def wire (request : Request ν) : Option Text :=
  match net.outcome request with
  | .pass _ server => some server
  | _ => none

/-- A server runs the command, refuses it or sends it to where it knows the target to be. -/
def take : Flood.Take ν (Node ν) (Request ν) := fun here node came request =>
  match huntServer (net.view here) (came.isNone && request.user)
    (if came.isNone then request.server else net.wire request) with
  | .isMe => ({ node with ran := node.ran ++ [request] }, fun _ => [])
  | .noSuch error => ({ node with errors := node.errors ++ [(request, error)] }, fun _ => [])
  | .pass acptr _ => (node, fun c => if c = net.tree.next here (net.serverOf acptr) then [request] else [])

/-- The server that is to run the command. -/
def actor (request : Request ν) : Option ν :=
  match net.outcome request with
  | .isMe => some request.speaker
  | .noSuch _ => none
  | .pass acptr _ => some (net.serverOf acptr)

def error (request : Request ν) : Option (Request ν × Error) :=
  match net.outcome request with
  | .noSuch error => some (request, error)
  | _ => none

/-- A server runs what it is to run of what it is told, and refuses only what was spoken to it. -/
def Fit (here : ν) (node : Node ν) (told : List (Request ν)) : Prop :=
  node.ran = (told.filter fun request => net.actor request = some here) ∧
    node.errors = (told.filter fun request => request.speaker = here).filterMap net.error

variable {net}

/-- Away from its first server, a command is run where its target is and sent on elsewhere. -/
theorem take_passed (outcome : net.outcome request = .pass acptr server) (sender : ν) :
    net.take here node (some sender) request =
      if net.serverOf acptr = here then ({ node with ran := node.ran ++ [request] }, fun _ => [])
      else (node, fun c => if c = net.tree.next here (net.serverOf acptr) then [request] else []) := by
  obtain ⟨plain, same, _⟩ := hunt_pass outcome
  have wire : net.wire request = some server := by rw [Net.wire, outcome]
  have again := hunt_plain plain same here
  by_cases mine : net.serverOf acptr = here
  · rw [if_pos mine] at again ⊢
    simp [take, wire, again]
  · rw [if_neg mine] at again ⊢
    simp [take, wire, again]

/-- The first server of a command sends it on to where it has found its target. -/
theorem take_own : net.take request.speaker node none request =
    match net.outcome request with
    | .isMe => ({ node with ran := node.ran ++ [request] }, fun _ => [])
    | .noSuch error => ({ node with errors := node.errors ++ [(request, error)] }, fun _ => [])
    | .pass acptr _ => (node, fun c =>
      if c = net.tree.next request.speaker (net.serverOf acptr) then [request] else []) := rfl

def must (request : Request ν) (here : ν) : Bool :=
  match net.outcome request with
  | .pass acptr _ => net.serverOf acptr = here
  | _ => false

theorem must_iff : net.must request here = true ↔
    ∃ acptr server, net.outcome request = .pass acptr server ∧ net.serverOf acptr = here := by
  unfold must
  cases net.outcome request with
  | isMe => simp
  | noSuch error => simp
  | pass acptr server => simp

theorem must_unique (first : net.must request x = true) (second : net.must request y = true) : x = y := by
  obtain ⟨acptr, server, outcome, rfl⟩ := must_iff.mp first
  obtain ⟨acptr', server', outcome', rfl⟩ := must_iff.mp second
  obtain ⟨rfl, _⟩ := Hunted.pass.inj (outcome.symm.trans outcome')
  rfl

/-- What has no target elsewhere stays with its first server. -/
theorem take_stops (arrives : Flood.Arrives net.tree here came request.speaker)
    (stops : ∀ acptr server, net.outcome request ≠ .pass acptr server) (c : ν) :
    (net.take here node came request).2 c = [] := by
  cases came with
  | none =>
    obtain rfl : here = request.speaker := arrives
    rw [take_own]
    cases outcome : net.outcome request with
    | isMe => rfl
    | noSuch error => rfl
    | pass acptr server => exact absurd outcome (stops acptr server)
  | some sender =>
    have wire : net.wire request = none := by
      unfold Net.wire
      split
      next acptr server outcome => exact absurd outcome (stops acptr server)
      · rfl
    simp [take, wire, huntServer]

/-- A command is sent to the neighbour that leads to its target. -/
theorem take_sends (arrives : Flood.Arrives net.tree here came request.speaker) (c : ν) :
    (net.take here node came request).2 c = [request] ∧
        (∃ x, net.must request x = true ∧ net.tree.Behind here c x) ∨
      (net.take here node came request).2 c = [] ∧
        ¬ ∃ x, net.must request x = true ∧ net.tree.Behind here c x := by
  by_cases stops : ∀ acptr server, net.outcome request ≠ .pass acptr server
  · refine .inr ⟨take_stops arrives stops c, ?_⟩
    rintro ⟨x, must, _⟩
    obtain ⟨acptr, server, outcome, _⟩ := must_iff.mp must
    exact stops acptr server outcome
  · obtain ⟨acptr, server, outcome⟩ : ∃ acptr server, net.outcome request = .pass acptr server := by
      simpa only [not_forall, not_not] using stops
    have target (x : ν) : net.must request x = true ↔ x = net.serverOf acptr := by
      simp [must, outcome, eq_comm]
    have ahead : (∃ x, net.must request x = true ∧ net.tree.Behind here c x) ↔
        net.serverOf acptr ≠ here ∧ c = net.tree.next here (net.serverOf acptr) := by
      simp [target, Tree.Behind, eq_comm]
    have sent : (net.take here node came request).2 c =
        if net.serverOf acptr ≠ here ∧ c = net.tree.next here (net.serverOf acptr) then [request] else [] := by
      cases came with
      | none =>
        obtain rfl : here = request.speaker := arrives
        have away := (hunt_pass outcome).2.2
        simp [take_own, outcome, away]
      | some sender =>
        rw [take_passed outcome]
        by_cases mine : net.serverOf acptr = here <;> simp [mine]
    rw [ahead, sent]
    by_cases next : net.serverOf acptr ≠ here ∧ c = net.tree.next here (net.serverOf acptr)
    · exact .inl ⟨if_pos next, next⟩
    · exact .inr ⟨if_neg next, next⟩

theorem fit_take (fit : net.Fit here node told) (arrives : Flood.Arrives net.tree here came request.speaker)
    (leads : Flood.Leads net.tree (fun request x => net.must request x = true) here came request) :
    net.Fit here (net.take here node came request).1 (told ++ [request]) := by
  obtain ⟨ran, errors⟩ := fit
  cases came with
  | none =>
    obtain rfl : here = request.speaker := arrives
    rw [take_own]
    cases outcome : net.outcome request with
    | isMe => constructor <;> simp [ran, errors, actor, Net.error, outcome]
    | noSuch error => constructor <;> simp [ran, errors, actor, Net.error, outcome]
    | pass acptr server =>
      have away := (hunt_pass outcome).2.2
      constructor <;> simp [ran, errors, actor, Net.error, outcome, away]
  | some sender =>
    obtain ⟨x, wanted, _⟩ := leads sender rfl
    obtain ⟨acptr, server, outcome, _⟩ := must_iff.mp wanted
    have other : request.speaker ≠ here := arrives.1
    rw [take_passed outcome]
    by_cases mine : net.serverOf acptr = here
    · constructor <;> simp [ran, errors, actor, outcome, mine, other]
    · constructor <;> simp [ran, errors, actor, outcome, mine, other]

theorem relays : Flood.Relays net.tree net.take net.Fit Request.speaker (fun request x => net.must request x = true)
    (fun request x => net.must request x = true) where
  fit := fun fit arrives leads => fit_take fit arrives leads
  once := fun _ arrives => (take_sends arrives _).imp And.left And.left
  reaches := fun _ arrives _ wanted ahead =>
    (take_sends arrives _).elim And.left fun none => absurd ⟨_, wanted, ahead⟩ none.2
  only := fun _ arrives leads inside => by
    obtain ⟨_, x, wanted, ahead⟩ | ⟨none, _⟩ := take_sends arrives _
    · refine ⟨?_, x, wanted, ahead⟩
      rintro rfl
      obtain ⟨y, wanted', behind⟩ := leads _ rfl
      have same : y = x := must_unique wanted' wanted
      exact ahead.sides.mp ahead (same ▸ behind)
    · rw [none] at inside
      exact absurd inside List.not_mem_nil

/-- Elsewhere than at its first server, a command is run by its target. -/
theorem actor_eq (other : here ≠ request.speaker) :
    decide (net.actor request = some here) = net.must request here := by
  unfold actor must
  cases net.outcome request with
  | isMe => simpa using other.symm
  | noSuch error => rfl
  | pass acptr server => simp

/-- Servers that get commands, and read what they are sent. -/
def network (net : Net ν υ) : Machine (Flood.World ν (Node ν) (Request ν)) (Flood.Action ν (Node ν) (Request ν)) :=
  Flood.network net.take net.Fit Request.speaker

end Net

/-- No command has been given. -/
def start : Flood.World ν (Node ν) (Request ν) := ⟨fun _ => ⟨[], []⟩, fun _ _ => [], fun _ => [], fun _ => []⟩

variable {world : Flood.World ν (Node ν) (Request ν)}

theorem sound_network (net : Net ν υ) (run : net.network.Run Machine.Any start world) :
    Flood.Sound net.tree net.Fit Request.speaker net.must (fun request x => net.must request x = true) world :=
  Flood.sound_run Net.relays (fun _ => ⟨rfl, rfl⟩) run

/-- A command that its first server does not refuse is run by one server, the one that the first has found, whatever
the orders in which the servers know each other: by no other, by none twice, and by that one once nothing is on its
way, for which the servers have only to read on. No other server refuses it. -/
theorem hunted_once [Fintype ν] (net : Net ν υ) (run : net.network.Run Machine.Any start world) (speaker here : ν) :
    (Flood.own Request.speaker speaker (world.node here).ran).Sublist
        ((world.spoken speaker).filter fun request => net.actor request = some here) ∧
      (world.Quiet → Flood.own Request.speaker speaker (world.node here).ran =
        (world.spoken speaker).filter fun request => net.actor request = some here) ∧
      (world.node here).errors = (world.spoken here).filterMap net.error ∧
      ∃ final, net.network.Run Flood.Reading world final ∧ final.spoken = world.spoken ∧ final.Quiet := by
  have sound := sound_network net run
  obtain ⟨ran, errors⟩ := sound.fit here
  have swap :
      Flood.own Request.speaker speaker ((world.heard here).filter fun request => net.actor request = some here) =
      (Flood.own Request.speaker speaker (world.heard here)).filter fun request => net.actor request = some here := by
    rw [Flood.own, Flood.own, List.filter_filter, List.filter_filter]
    exact List.filter_congr fun line _ => Bool.and_comm ..
  rw [ran, swap, errors]
  refine ⟨(sound.heard_sublist speaker here).filter _, fun quiet => ?_, ?_, sound.settles Net.relays⟩
  · by_cases self : here = speaker
    · subst self
      rw [sound.spoken here]
    · have wanted (messages : List (Request ν)) (spoken : Flood.own Request.speaker speaker messages = messages) :
          (messages.filter fun request => net.actor request = some here) =
            messages.filter fun request => net.must request here := by
        refine List.filter_congr fun request inside => ?_
        have own : request.speaker = speaker := by
          rw [← spoken] at inside
          simpa using List.of_mem_filter inside
        exact Net.actor_eq (own ▸ self)
      have twice (messages : List (Request ν)) :
          Flood.own Request.speaker speaker (Flood.own Request.speaker speaker messages) =
            Flood.own Request.speaker speaker messages := by
        simp [Flood.own]
      rw [wanted _ (twice _), wanted _ (sound.spoken speaker ▸ twice _)]
      exact sound.heard_filter quiet speaker here _ fun request needed => needed
  · rw [← sound.spoken here]
    rfl

-- The numerals of `Fin 3` all rest on this one.
local instance three : @NeZero Nat ⟨0⟩ 3 := ⟨Nat.succ_ne_zero 2⟩

/-- `a.x`, `b.x` and `c.x` in a row. -/
def rowName (c : Fin 3) : Text := if c = 0 then "a.x".toList else if c = 1 then "b.x".toList else "c.x".toList

theorem rowName_plain (c : Fin 3) : ∀ d ∈ rowName c, isWild d = false := by
  have all : ∀ c, ((rowName c).all fun d => !isWild d) = true := by decide
  intro d member
  simpa using List.all_eq_true.mp (all c) d member

def rowNet : Net (Fin 3) (Fin 0) where
  tree := .row
  home := Fin.elim0
  name := Sum.elim rowName Fin.elim0
  hidden := Fin.elim0
  clients := fun _ => (List.finRange 3).map .inl
  known := by
    rintro here (c | user)
    · exact List.mem_map_of_mem (List.mem_finRange c)
    · exact user.elim0
  alone := by
    rintro (c | user) (c' | user')
    · revert c c'
      decide
    · exact user'.elim0
    · exact user.elim0
    · exact user.elim0
  plain := by
    rintro (c | user)
    · exact rowName_plain c
    · exact user.elim0
  named := by
    rintro (c | user)
    · revert c
      decide
    · exact user.elim0
  short := by
    rintro (c | user)
    · revert c
      decide
    · exact user.elim0

/-- An operator of `a.x` asks for the version of `c.x`. -/
def version : Request (Fin 3) := ⟨0, false, some (rowName 2), "VERSION".toList⟩

theorem actor_version : rowNet.actor version = some 2 := by
  have same : mycmp (rowName 2) (rowNet.name (.inl 2)) = true := mycmp_refl _
  have outcome : rowNet.outcome version = .pass (.inl 2) (rowName 2) := Net.hunt_plain (rowName_plain 2) same 0
  rw [Net.actor, outcome]
  rfl

theorem hunted_once_row : ∃ final,
    rowNet.network.Run Flood.Reading ([.speak 0 version].foldl (Flood.perform rowNet.take) start) final ∧ final.Quiet ∧
      Flood.own Request.speaker 0 (final.node 2).ran = [version] := by
  have run : rowNet.network.Run Machine.Any start ([.speak 0 version].foldl (Flood.perform rowNet.take) start) :=
    Machine.Run.of_list [Flood.Action.speak 0 version] (.refl start) ⟨rfl, trivial, trivial⟩
  obtain ⟨final, run', spoken, quiet⟩ := (hunted_once rowNet run 0 2).2.2.2
  have whole : rowNet.network.Run Machine.Any start final := run.trans (run'.mono fun _ _ _ => trivial)
  refine ⟨final, run', quiet, ?_⟩
  rw [(hunted_once rowNet whole 0 2).2.1 quiet, spoken]
  simp [Flood.perform, Flood.World.handle, Flood.World.speak, start, actor_version]

end SolidIrcd.Hunt
