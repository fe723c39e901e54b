import Mathlib.Data.List.MinMax
import Mathlib.Data.List.Nodup
import Mathlib.Logic.Relation
import SolidIrcd.Lib.Scan

/-! Server splits: `exit_one_server` takes a server out of the list of clients with all that is
behind it, and tells the other servers. -/

namespace SolidIrcd.Squit

open Scan (Text)
open Relation (ReflTransGen)

abbrev ClientId := Nat

inductive Status where
  | me
  | server
  | person
  | other
  deriving DecidableEq, Repr

/-- `struct Client`; `link` is the pointer `from`. -/
structure Client where
  cptr : ClientId
  uplink : ClientId
  link : ClientId
  status : Status
  name : Text
  deriving DecidableEq, Repr

/-- An entry of `server_list`, with CAPAB_NOQUIT. -/
structure Link where
  cptr : ClientId
  noquit : Bool
  deriving DecidableEq, Repr

inductive Message where
  | quit (name reason : Text)
  | squit (source : Option Text) (name comment : Text)
  deriving DecidableEq, Repr

/-- What is done in the course of a split: a message to a link, or a client that is gone. -/
inductive Event where
  | sent (link : ClientId) (message : Message)
  | removed (cptr : Client)
  deriving DecidableEq, Repr

/-- What stays the same through the recursion; `source` is the name of `from`. -/
structure Split where
  dead : ClientId
  source : Text
  lcptr : ClientId
  spinfo : Text
  comment : Text
  me : ClientId
  servers : List Link

/-- The list `client`, and what has been done. -/
structure State where
  clients : List Client
  log : List Event
  deriving DecidableEq, Repr

/-- `remove_client_from_list`. -/
def State.remove (state : State) (cptr : Client) (sends : List Event) : State :=
  ⟨state.clients.filter fun other => other.cptr ≠ cptr.cptr, state.log ++ (sends ++ [.removed cptr])⟩

/-- `sendto_non_noquit_servs_butone`. -/
def sendtoNonNoquitServsButone (servers : List Link) (one : ClientId) (message : Message) : List Event :=
  (servers.filter fun cptr => !(cptr.noquit || one == cptr.cptr)).map fun cptr => .sent cptr.cptr message

/-- `exit_one_client_in_split`. -/
def exitOneClientInSplit (split : Split) (cptr : Client) (state : State) : State :=
  state.remove cptr (sendtoNonNoquitServsButone split.servers split.dead (.quit cptr.name split.spinfo))

/-- The loop over `server_list` in `exit_one_server`. -/
def sendSquits (split : Split) (cptr : Client) : List Event :=
  split.servers.filterMap fun acptr =>
    if acptr.cptr = cptr.cptr ∨ acptr.cptr = split.me ∨ acptr.cptr = split.dead ∨ acptr.cptr = split.lcptr then none
    else if acptr.noquit = true ∧ cptr.cptr ≠ split.dead then none
    else if cptr.link = acptr.cptr then some (.sent acptr.cptr (.squit (some split.source) cptr.name split.comment))
    else some (.sent acptr.cptr (.squit none cptr.name split.comment))

/-- The first loop of `exit_one_server`, over the users of the server. -/
def exitUsers (split : Split) (cptr : Client) : List Client → State → State
  | [], state => state
  | acptr :: rest, state =>
    if acptr.uplink ≠ cptr.cptr ∨ acptr.status ≠ .person then exitUsers split cptr rest state
    else exitUsers split cptr rest (exitOneClientInSplit split acptr state)

mutual

/-- `exit_one_server`; the calls are counted. -/
def exitOneServer (split : Split) : Nat → Client → State → Option State
  | 0, _, _ => none
  | calls + 1, cptr, state =>
    let state := exitUsers split cptr state.clients state
    match exitServers split calls cptr state.clients state with
    | none => none
    | some state => some (state.remove cptr (sendSquits split cptr))

/-- The second loop, over the servers behind; it starts again after each. -/
def exitServers (split : Split) : Nat → Client → List Client → State → Option State
  | 0, _, _, _ => none
  | _ + 1, _, [], state => some state
  | calls + 1, cptr, acptr :: rest, state =>
    if acptr.uplink ≠ cptr.cptr ∨ acptr.status ≠ .server then exitServers split calls cptr rest state
    else
      match exitOneServer split calls acptr state with
      | none => none
      | some state => exitServers split calls cptr state.clients state

end

/-- The clients that were removed, in order. -/
def gone (log : List Event) : List Client :=
  log.filterMap fun event =>
    match event with
    | .removed cptr => some cptr
    | .sent _ _ => none

/-- The messages to a link, in order. -/
def messagesTo (link : ClientId) (log : List Event) : List Message :=
  log.filterMap fun event =>
    match event with
    | .sent link' message => if link' = link then some message else none
    | .removed _ => none

/-- A user or a server directly behind a server. -/
def Below (clients : List Client) (server child : Client) : Prop :=
  server ∈ clients ∧ child ∈ clients ∧ server.status = .server ∧ (child.status = .person ∨ child.status = .server) ∧
    child.uplink = server.cptr

/-- Behind a server at any depth, or the server itself. -/
def Behind (clients : List Client) : Client → Client → Prop := ReflTransGen (Below clients)

/-- Uplinks make a forest. -/
structure Forest (clients : List Client) : Prop where
  distinct : (clients.map Client.cptr).Nodup
  acyclic : ∃ depth : Client → Nat, ∀ server child, Below clients server child → depth server < depth child

section

variable {clients : List Client} {first second : Client}

theorem Forest.same (forest : Forest clients) (member : first ∈ clients) (member' : second ∈ clients)
    (same : first.cptr = second.cptr) : first = second :=
  List.inj_on_of_nodup_map forest.distinct member member' same

/-- Only one server is directly above a client. -/
theorem Forest.above (forest : Forest clients) (below : Below clients first child) (below' : Below clients second child) :
    first = second :=
  forest.same below.1 below'.1 (below.2.2.2.2.symm.trans below'.2.2.2.2)

theorem Forest.antisymm (forest : Forest clients) (behind : Behind clients first second)
    (behind' : Behind clients second first) : first = second := by
  obtain ⟨depth, deeper⟩ := forest.acyclic
  have weak (first second : Client) (behind : Behind clients first second) : depth first ≤ depth second := by
    induction behind with
    | refl => exact Nat.le_refl _
    | tail _ below ih => exact Nat.le_of_lt (Nat.lt_of_le_of_lt ih (deeper _ _ below))
  rcases ReflTransGen.cases_head behind with same | ⟨middle, below, rest⟩
  · exact same
  · have down := deeper _ _ below
    have on := weak _ _ rest
    have back := weak _ _ behind'
    omega

/-- Of two servers that a client is behind, one is behind the other. -/
theorem Forest.comparable (forest : Forest clients) (behind : Behind clients first child)
    (behind' : Behind clients second child) : Behind clients first second ∨ Behind clients second first := by
  have unique : Relator.RightUnique (Function.swap (Below clients)) :=
    fun _ _ _ below below' => forest.above below below'
  have total := ReflTransGen.total_of_right_unique unique behind.swap behind'.swap
  rcases total with up | up
  · exact .inr up.swap
  · exact .inl up.swap

/-- What holds of a server whenever it holds of all below it holds of every server. -/
theorem Forest.induct (forest : Forest clients) {motive : Client → Prop}
    (step : ∀ server, (∀ child, Below clients server child → motive child) → motive server) (server : Client) :
    motive server := by
  obtain ⟨depth, deeper⟩ := forest.acyclic
  obtain ⟨deepest, bound⟩ : ∃ deepest, ∀ cptr ∈ clients, depth cptr ≤ deepest := by
    refine ⟨(clients.map depth).foldr max 0, fun cptr member => ?_⟩
    exact List.le_max_of_le' 0 (List.mem_map_of_mem member) (Nat.le_refl _)
  have below (left : Nat) : ∀ server, deepest < depth server + left → motive server := by
    induction left with
    | zero =>
      intro server far
      apply step server
      intro child below
      have near := bound server below.1
      omega
    | succ left ih =>
      intro server far
      apply step server
      intro child below
      have down := deeper server child below
      exact ih child (by omega)
  exact below (deepest + 1) server (by omega)

theorem Forest.not_below_self (forest : Forest clients) (below : Below clients first first) : False := by
  obtain ⟨depth, deeper⟩ := forest.acyclic
  exact Nat.lt_irrefl _ (deeper _ _ below)

/-- Nobody is behind two of the servers below one server. -/
theorem Forest.apart (forest : Forest clients) (below : Below clients server first)
    (below' : Below clients server second) (behind : Behind clients first child)
    (behind' : Behind clients second child) : first = second := by
  have close {first second : Client} (below : Below clients server first) (below' : Below clients server second)
      (behind : Behind clients first second) : first = second := by
    rcases ReflTransGen.cases_tail behind with same | ⟨middle, upper, last⟩
    · exact same.symm
    · have same := forest.above last below'
      rw [same] at upper
      have loop := forest.antisymm upper (.single below)
      rw [loop] at below
      exact (forest.not_below_self below).elim
  rcases forest.comparable behind behind' with down | down
  · exact close below below' down
  · exact (close below' below down).symm

/-- Who is behind a server and is not the server is behind one directly below it. -/
theorem behind_cases (behind : Behind clients server child) :
    child = server ∨ ∃ next, Below clients server next ∧ Behind clients next child := by
  rcases ReflTransGen.cases_head behind with same | found
  · exact .inl same.symm
  · exact .inr found

theorem Behind.member (behind : Behind clients server child) (member : server ∈ clients) : child ∈ clients := by
  rcases ReflTransGen.cases_tail behind with same | ⟨middle, upper, last⟩
  · exact same ▸ member
  · exact last.2.1

end

/-- What is done for one client that is removed. -/
def block (split : Split) (cptr : Client) : List Event :=
  (if cptr.status = .server then sendSquits split cptr
  else sendtoNonNoquitServsButone split.servers split.dead (.quit cptr.name split.spinfo)) ++ [.removed cptr]

/-- `final` comes from `state` when the clients in `order` are removed one after the other. -/
structure Cleared (split : Split) (state final : State) (order : List Client) : Prop where
  clients : final.clients = state.clients.filter fun cptr => cptr ∉ order
  log : final.log = state.log ++ order.flatMap (block split)

section

variable {split : Split} {clients : List Client} {state : State}

theorem Cleared.nil (split : Split) (state : State) : Cleared split state state [] :=
  ⟨by simp, by simp⟩

theorem Cleared.trans (first : Cleared split state middle order) (second : Cleared split middle final order') :
    Cleared split state final (order ++ order') := by
  refine ⟨?_, ?_⟩
  · rw [second.clients, first.clients, List.filter_filter]
    apply List.filter_congr
    intro cptr member
    simp only [List.mem_append, not_or, Bool.decide_and]
    exact Bool.and_comm _ _
  · rw [second.log, first.log, List.flatMap_append, List.append_assoc]

theorem Cleared.mem (cleared : Cleared split state final order) :
    cptr ∈ final.clients ↔ cptr ∈ state.clients ∧ cptr ∉ order := by
  rw [cleared.clients]
  simp

theorem Cleared.sublist (cleared : Cleared split state final order) : final.clients.Sublist state.clients := by
  rw [cleared.clients]
  exact List.filter_sublist

theorem Cleared.length_lt (cleared : Cleared split state final order) (member : cptr ∈ state.clients)
    (removed : cptr ∈ order) : final.clients.length < state.clients.length := by
  rw [cleared.clients]
  apply List.length_filter_lt_length_iff_exists.mpr
  exact ⟨cptr, member, by simpa using removed⟩

/-- Taking one client out of the list takes out no other. -/
theorem Forest.cleared_remove (forest : Forest clients) (inside : state.clients ⊆ clients) (member : cptr ∈ clients)
    (sends : List Event) (whole : block split cptr = sends ++ [.removed cptr]) :
    Cleared split state (state.remove cptr sends) [cptr] := by
  refine ⟨?_, by simp [State.remove, whole]⟩
  apply List.filter_congr
  intro other member'
  have iff : other.cptr = cptr.cptr ↔ other = cptr :=
    ⟨fun same => forest.same (inside member') member same, fun same => congrArg _ same⟩
  simp only [ne_eq, iff, List.mem_singleton]

/-- The users that are directly on a server. -/
def usersOn (cptr : Client) (clients : List Client) : List Client :=
  clients.filter fun acptr => acptr.uplink = cptr.cptr ∧ acptr.status = .person

/-- The first loop removes the users of the server. -/
theorem Forest.cleared_users (forest : Forest clients) (split : Split) (cptr : Client) (todo : List Client)
    (inside : state.clients ⊆ clients) (known : todo ⊆ clients) :
    Cleared split state (exitUsers split cptr todo state) (usersOn cptr todo) := by
  induction todo generalizing state with
  | nil => exact .nil split state
  | cons acptr todo ih =>
    obtain ⟨member, known⟩ := List.cons_subset.mp known
    by_cases other : acptr.uplink ≠ cptr.cptr ∨ acptr.status ≠ .person
    · have skip : usersOn cptr (acptr :: todo) = usersOn cptr todo := by
        apply List.filter_cons_of_neg
        simpa only [decide_eq_true_eq, not_and_or] using other
      rw [skip, exitUsers, if_pos other]
      exact ih inside known
    · have on : acptr.uplink = cptr.cptr ∧ acptr.status = .person := by
        simpa only [ne_eq, not_or, not_not] using other
      have take : usersOn cptr (acptr :: todo) = [acptr] ++ usersOn cptr todo :=
        List.filter_cons_of_pos (by simpa using on)
      have removed : Cleared split state (exitOneClientInSplit split acptr state) [acptr] := by
        apply forest.cleared_remove inside member
        simp [block, on.2]
      rw [take, exitUsers, if_neg other]
      exact removed.trans (ih (List.Subset.trans removed.sublist.subset inside) known)

/-- An order in which no client comes after the server it was on. -/
def Upward (clients : List Client) (order : List Client) : Prop :=
  order.Nodup ∧ order.Pairwise fun earlier later => ¬ Below clients earlier later

theorem Upward.append (first : Upward clients order) (second : Upward clients order')
    (apart : ∀ cptr ∈ order, ∀ other ∈ order', cptr ≠ other ∧ ¬ Below clients cptr other) :
    Upward clients (order ++ order') := by
  refine ⟨?_, ?_⟩
  · exact List.pairwise_append.mpr ⟨first.1, second.1, fun cptr member other member' => (apart _ member _ member').1⟩
  · exact List.pairwise_append.mpr ⟨first.2, second.2, fun cptr member other member' => (apart _ member _ member').2⟩

/-- All that is behind the server is still in the list. -/
def Intact (clients : List Client) (cptr : Client) (state : State) : Prop :=
  state.clients.Sublist clients ∧ ∀ child, Behind clients cptr child → child ∈ state.clients

/-- `exit_one_server` returns and has removed exactly what is behind the server. -/
def Exits (split : Split) (clients : List Client) (cptr : Client) (state : State) : Prop :=
  ∃ bound final order, (∀ calls, bound ≤ calls → exitOneServer split calls cptr state = some final) ∧
    Cleared split state final order ∧ (∀ child, child ∈ order ↔ Behind clients cptr child) ∧ Upward clients order

/-- The users of the server are gone, and each server below it is there with all behind it or gone with it. -/
structure Walk (clients : List Client) (cptr : Client) (state : State) : Prop where
  inside : state.clients.Sublist clients
  servers : ∀ child ∈ state.clients, Below clients cptr child → child.status = .server ∧ Intact clients child state
  gone : ∀ child, Below clients cptr child → child ∉ state.clients → ∀ other, Behind clients child other →
    other ∉ state.clients

/-- The second loop returns and has removed what was left behind the server. -/
def Walks (split : Split) (clients : List Client) (cptr : Client) (rest : List Client) (state : State) : Prop :=
  ∃ bound final order, (∀ calls, bound ≤ calls → exitServers split calls cptr rest state = some final) ∧
    Cleared split state final order ∧
    (∀ child, child ∈ order ↔ Behind clients cptr child ∧ child ≠ cptr ∧ child ∈ state.clients) ∧
    Upward clients order

theorem below_usersOn (server : cptr ∈ clients ∧ cptr.status = .server) (inside : state.clients.Sublist clients)
    (on : child ∈ usersOn cptr state.clients) : Below clients cptr child ∧ child.status = .person := by
  obtain ⟨member, on⟩ := List.mem_filter.mp on
  obtain ⟨uplink, person⟩ := of_decide_eq_true on
  exact ⟨⟨server.1, inside.subset member, server.2, .inl person, uplink⟩, person⟩

theorem upward_usersOn (server : cptr ∈ clients ∧ cptr.status = .server) (forest : Forest clients)
    (inside : state.clients.Sublist clients) : Upward clients (usersOn cptr state.clients) := by
  refine ⟨((forest.distinct.of_map _).sublist inside).filter _, ?_⟩
  apply List.pairwise_of_forall_mem_list
  intro earlier member _ _ below
  have person := (below_usersOn server inside member).2
  rw [below.2.2.1] at person
  contradiction

/-- With the users gone the second loop can begin. -/
theorem Forest.walk_begins (forest : Forest clients) (server : cptr ∈ clients ∧ cptr.status = .server)
    (intact : Intact clients cptr state) (cleared : Cleared split state final (usersOn cptr state.clients)) :
    Walk clients cptr final := by
  refine ⟨cleared.sublist.trans intact.1, ?_, ?_⟩
  · intro child member below
    obtain ⟨before, stays⟩ := cleared.mem.mp member
    have status : child.status = .server := by
      rcases below.2.2.2.1 with person | status
      · have on : child ∈ usersOn cptr state.clients := by
          apply List.mem_filter.mpr
          exact ⟨before, decide_eq_true ⟨below.2.2.2.2, person⟩⟩
        exact absurd on stays
      · exact status
    refine ⟨status, cleared.sublist.trans intact.1, fun other behind => ?_⟩
    apply cleared.mem.mpr
    refine ⟨intact.2 other (.head below behind), fun on => ?_⟩
    obtain ⟨below', person⟩ := below_usersOn server intact.1 on
    have same := forest.apart below below' behind .refl
    rw [← same, status] at person
    contradiction
  · intro child below missing other behind
    have on : child ∈ usersOn cptr state.clients := by
      by_contra stays
      exact missing (cleared.mem.mpr ⟨intact.2 child (.single below), stays⟩)
    have person := (below_usersOn server intact.1 on).2
    rcases behind_cases behind with same | ⟨next, below', _⟩
    · exact same ▸ missing
    · rw [below'.2.2.1] at person
      contradiction

/-- When one server is gone with all behind it the second loop can go on. -/
theorem Forest.walk_goes_on (forest : Forest clients) (walk : Walk clients cptr state)
    (below : Below clients cptr acptr) (cleared : Cleared split state final order)
    (behind : ∀ child, child ∈ order ↔ Behind clients acptr child) : Walk clients cptr final := by
  refine ⟨cleared.sublist.trans walk.inside, ?_, ?_⟩
  · intro child member below'
    obtain ⟨before, stays⟩ := cleared.mem.mp member
    obtain ⟨status, intact⟩ := walk.servers child before below'
    refine ⟨status, cleared.sublist.trans walk.inside, fun other behind' => ?_⟩
    apply cleared.mem.mpr
    refine ⟨intact.2 other behind', fun removed => stays ?_⟩
    have same := forest.apart below below' ((behind other).mp removed) behind'
    exact (behind child).mpr (same ▸ .refl)
  · intro child below' missing other behind' left
    obtain ⟨before, stays⟩ := cleared.mem.mp left
    by_cases present : child ∈ state.clients
    · have removed : child ∈ order := by
        by_contra kept
        exact missing (cleared.mem.mpr ⟨present, kept⟩)
      exact stays ((behind other).mpr (((behind child).mp removed).trans behind'))
    · exact walk.gone child below' present other behind' before

/-- The second loop has an end: each server that is found makes the list shorter. -/
theorem Forest.walks (forest : Forest clients) (server : cptr ∈ clients ∧ cptr.status = .server)
    (exits : ∀ child, Below clients cptr child → child.status = .server → ∀ state, Intact clients child state →
      Exits split clients child state) :
    ∀ length state, state.clients.length = length → Walk clients cptr state →
      ∀ rest before, state.clients = before ++ rest →
        (∀ acptr ∈ before, acptr.uplink ≠ cptr.cptr ∨ acptr.status ≠ .server) →
        Walks split clients cptr rest state := by
  intro length
  induction length using Nat.strong_induction_on with
  | _ length ih =>
    intro state whole walk rest
    induction rest with
    | nil =>
      intro before split' skipped
      refine ⟨1, state, [], ?_, .nil split state, ?_, ⟨.nil, .nil⟩⟩
      · intro calls enough
        obtain ⟨calls, rfl⟩ := Nat.exists_eq_add_of_le' enough
        rfl
      · intro child
        refine ⟨fun member => absurd member List.not_mem_nil, fun ⟨behind, differs, present⟩ => ?_⟩
        rcases behind_cases behind with same | ⟨next, below, behind⟩
        · exact absurd same differs
        · have missing : next ∉ state.clients := by
            intro member
            have status := (walk.servers next member below).1
            rw [split', List.append_nil] at member
            rcases skipped next member with uplink | status'
            · exact uplink below.2.2.2.2
            · exact status' status
          exact absurd present (walk.gone next below missing child behind)
    | cons acptr rest ih' =>
      intro before split' skipped
      by_cases other : acptr.uplink ≠ cptr.cptr ∨ acptr.status ≠ .server
      · have skipped' : ∀ cptr' ∈ before ++ [acptr], cptr'.uplink ≠ cptr.cptr ∨ cptr'.status ≠ .server := by
          intro cptr' member
          rcases List.mem_append.mp member with member | member
          · exact skipped cptr' member
          · exact List.mem_singleton.mp member ▸ other
        obtain ⟨bound, final, order, returns, facts⟩ := ih' (before ++ [acptr]) (by simpa using split') skipped'
        refine ⟨bound + 1, final, order, ?_, facts⟩
        intro calls enough
        obtain ⟨calls, rfl⟩ := Nat.exists_eq_add_of_le' enough
        rw [← Nat.add_assoc, exitServers, if_pos other]
        exact returns _ (Nat.le_add_left _ _)
      · obtain ⟨uplink, status⟩ : acptr.uplink = cptr.cptr ∧ acptr.status = .server := by
          simpa only [ne_eq, not_or, not_not] using other
        have member : acptr ∈ state.clients := by simp [split']
        have below : Below clients cptr acptr :=
          ⟨server.1, walk.inside.subset member, server.2, .inr status, uplink⟩
        obtain ⟨bound, middle, order, returns, cleared, behind, upward⟩ :=
          exits acptr below status state (walk.servers acptr member below).2
        have shorter := cleared.length_lt member ((behind acptr).mpr .refl)
        obtain ⟨bound', final, order', returns', cleared', behind', upward'⟩ :=
          ih _ (whole ▸ shorter) middle rfl (forest.walk_goes_on walk below cleared behind) middle.clients [] rfl
            (fun _ member => absurd member List.not_mem_nil)
        refine ⟨max bound bound' + 1, final, order ++ order', ?_, cleared.trans cleared', ?_, ?_⟩
        · intro calls enough
          obtain ⟨calls, rfl⟩ := Nat.exists_eq_add_of_le' enough
          rw [← Nat.add_assoc, exitServers, if_neg other, returns _ (by omega)]
          exact returns' _ (by omega)
        · intro child
          rw [List.mem_append, behind, behind', cleared.mem, behind]
          constructor
          · rintro (found | ⟨found, differs, present, _⟩)
            · refine ⟨.head below found, ?_, (walk.servers acptr member below).2.2 child found⟩
              rintro rfl
              have same := forest.antisymm found (.single below)
              exact forest.not_below_self (same ▸ below)
            · exact ⟨found, differs, present⟩
          · rintro ⟨found, differs, present⟩
            by_cases first : Behind clients acptr child
            · exact .inl first
            · exact .inr ⟨found, differs, present, first⟩
        · apply upward.append upward'
          intro first member' second member''
          obtain ⟨_, _, present⟩ := (behind' second).mp member''
          have kept := (cleared.mem.mp present).2
          refine ⟨fun same => kept (same ▸ member'), fun below' => kept ?_⟩
          exact (behind second).mpr (((behind first).mp member').tail below')

/-- A server with all behind it in the list is taken out with exactly that. -/
theorem Forest.exits (forest : Forest clients) (split : Split) (cptr : Client) :
    cptr ∈ clients ∧ cptr.status = .server → ∀ state, Intact clients cptr state → Exits split clients cptr state := by
  induction cptr using forest.induct with
  | step cptr ih =>
    intro server state intact
    have cleared := forest.cleared_users split cptr state.clients intact.1.subset intact.1.subset
    have walk := forest.walk_begins server intact cleared
    have upward := upward_usersOn server forest intact.1
    obtain ⟨bound, last, order, returns, cleared', behind, upward'⟩ :=
      forest.walks server (fun child below status => ih child below ⟨below.2.1, status⟩) _
        (exitUsers split cptr state.clients state) rfl walk _ [] rfl (fun _ member => absurd member List.not_mem_nil)
    have removed : Cleared split last (last.remove cptr (sendSquits split cptr)) [cptr] := by
      apply forest.cleared_remove (cleared'.sublist.trans walk.inside).subset server.1
      simp [block, server.2]
    refine ⟨bound + 1, _, usersOn cptr state.clients ++ order ++ [cptr], ?_,
      (cleared.trans cleared').trans removed, ?_, ?_⟩
    · intro calls enough
      obtain ⟨calls, rfl⟩ := Nat.exists_eq_add_of_le' enough
      rw [← Nat.add_assoc, exitOneServer]
      simp only [returns _ (Nat.le_add_left _ _)]
    · intro child
      rw [List.mem_append, List.mem_append, List.mem_singleton, behind]
      constructor
      · rintro ((on | found) | same)
        · exact .single (below_usersOn server intact.1 on).1
        · exact found.1
        · exact same ▸ .refl
      · intro found
        by_cases same : child = cptr
        · exact .inr same
        · by_cases on : child ∈ usersOn cptr state.clients
          · exact .inl (.inl on)
          · exact .inl (.inr ⟨found, same, cleared.mem.mpr ⟨intact.2 child found, on⟩⟩)
    · apply (upward.append upward' ?_).append ⟨List.nodup_singleton _, List.pairwise_singleton _ _⟩
      · intro other member first single
        obtain rfl := List.mem_singleton.mp single
        have found : Behind clients first other ∧ other ≠ first := by
          rcases List.mem_append.mp member with on | found
          · obtain ⟨below, person⟩ := below_usersOn server intact.1 on
            refine ⟨.single below, ?_⟩
            rintro rfl
            exact forest.not_below_self below
          · obtain ⟨found, differs, _⟩ := (behind other).mp found
            exact ⟨found, differs⟩
        exact ⟨found.2, fun below => found.2 (forest.antisymm (.single below) found.1)⟩
      · intro first on second found
        obtain ⟨_, _, present⟩ := (behind second).mp found
        obtain ⟨_, person⟩ := below_usersOn server intact.1 on
        refine ⟨fun same => (cleared.mem.mp present).2 (same ▸ on), fun below => ?_⟩
        rw [below.2.2.1] at person
        contradiction

end

/-- What tells a link that a client is gone; a server behind the link itself is taken away in the name of
the one who caused it. -/
def removalFor (split : Split) (link : ClientId) (cptr : Client) : Message :=
  if cptr.status = .server then
    .squit (if cptr.link = link then some split.source else none) cptr.name split.comment
  else .quit cptr.name split.spinfo

/-- `server_list` holds the servers that are linked to `me`, each once. -/
structure Linked (split : Split) (clients : List Client) : Prop where
  here : ∃ cptr ∈ clients, cptr.cptr = split.me ∧ cptr.status = .me
  distinct : (split.servers.map Link.cptr).Nodup
  direct : ∀ link ∈ split.servers, ∃ cptr ∈ clients, cptr.cptr = link.cptr ∧ cptr.status = .server ∧
    cptr.uplink = split.me

section

variable {split : Split} {clients : List Client} {link : Link} {servers : List Link} {order : List Client}
  {server dead : Client}

theorem messagesTo_append (link : ClientId) (first second : List Event) :
    messagesTo link (first ++ second) = messagesTo link first ++ messagesTo link second :=
  List.filterMap_append

theorem messagesTo_flatMap (link : ClientId) (order : List Client) (events : Client → List Event) :
    messagesTo link (order.flatMap events) = order.flatMap fun cptr => messagesTo link (events cptr) := by
  induction order with
  | nil => rfl
  | cons cptr order ih => rw [List.flatMap_cons, messagesTo_append, ih, List.flatMap_cons]

theorem gone_flatMap_block (split : Split) (order : List Client) : gone (order.flatMap (block split)) = order := by
  have silent (cptr : Client) : gone (block split cptr) = [cptr] := by
    have quiet (sends : List Event) (sent : ∀ event ∈ sends, ∃ link message, event = .sent link message) :
        gone (sends ++ [.removed cptr]) = [cptr] := by
      rw [gone, List.filterMap_append, List.filterMap_eq_nil_iff.mpr, List.nil_append]
      · rfl
      · intro event member
        obtain ⟨link, message, rfl⟩ := sent event member
        rfl
    apply quiet
    intro event member
    split_ifs at member
    · obtain ⟨acptr, _, found⟩ := List.mem_filterMap.mp member
      split_ifs at found
      · exact ⟨_, _, (Option.some.inj found).symm⟩
      · exact ⟨_, _, (Option.some.inj found).symm⟩
    · obtain ⟨acptr, _, found⟩ := List.mem_map.mp member
      exact ⟨_, _, found.symm⟩
  induction order with
  | nil => rfl
  | cons cptr order ih =>
    rw [List.flatMap_cons, gone, List.filterMap_append]
    exact congrArg₂ (· ++ ·) (silent cptr) ih

/-- When a loop over `server_list` sends at most one message to each, a server gets its own. -/
theorem messagesTo_filterMap (distinct : (servers.map Link.cptr).Nodup) (member : link ∈ servers)
    (send : Link → Option Message) :
    messagesTo link.cptr (servers.filterMap fun acptr => (send acptr).map (.sent acptr.cptr)) = (send link).toList := by
  have missing (servers : List Link) (fresh : link.cptr ∉ servers.map Link.cptr) :
      messagesTo link.cptr (servers.filterMap fun acptr => (send acptr).map (.sent acptr.cptr)) = [] := by
    apply List.filterMap_eq_nil_iff.mpr
    intro event found
    obtain ⟨acptr, present, sent⟩ := List.mem_filterMap.mp found
    obtain ⟨message, _, rfl⟩ := Option.map_eq_some_iff.mp sent
    have differs : acptr.cptr ≠ link.cptr := fun same => fresh (same ▸ List.mem_map_of_mem present)
    simp [differs]
  induction servers with
  | nil => exact absurd member List.not_mem_nil
  | cons acptr servers ih =>
    obtain ⟨fresh, distinct⟩ := List.nodup_cons.mp distinct
    have head (acptr : Link) (rest : List Event) : messagesTo link.cptr
        (((send acptr).map (Event.sent acptr.cptr)).toList ++ rest) =
          (if acptr.cptr = link.cptr then (send acptr).toList else []) ++ messagesTo link.cptr rest := by
      rw [messagesTo_append]
      cases send acptr with
      | none => simp [messagesTo]
      | some message =>
        by_cases same : acptr.cptr = link.cptr
        · simp [messagesTo, same]
        · simp [messagesTo, same]
    have whole : (acptr :: servers).filterMap (fun acptr => (send acptr).map (Event.sent acptr.cptr)) =
        ((send acptr).map (Event.sent acptr.cptr)).toList ++
          servers.filterMap fun acptr => (send acptr).map (Event.sent acptr.cptr) := by
      rw [List.filterMap_cons]
      cases send acptr with
      | none => rfl
      | some message => rfl
    rw [whole, head]
    rcases List.mem_cons.mp member with rfl | member
    · rw [if_pos rfl, missing servers fresh, List.append_nil]
    · have differs : acptr.cptr ≠ link.cptr := fun same => fresh (same ▸ List.mem_map_of_mem member)
      rw [if_neg differs, List.nil_append, ih distinct member]

theorem sendtoNonNoquitServsButone_eq (servers : List Link) (one : ClientId) (message : Message) :
    sendtoNonNoquitServsButone servers one message =
      servers.filterMap fun acptr =>
        (if acptr.noquit || one == acptr.cptr then none else some message).map (.sent acptr.cptr) := by
  induction servers with
  | nil => rfl
  | cons acptr servers ih =>
    rw [sendtoNonNoquitServsButone] at ih ⊢
    cases spared : acptr.noquit || one == acptr.cptr with
    | true =>
      rw [List.filter_cons_of_neg (by simp only [spared]; decide), List.filterMap_cons_none (by rw [spared]; rfl), ih]
    | false =>
      rw [List.filter_cons_of_pos (by simp only [spared]; decide), List.map_cons, ih]
      exact (List.filterMap_cons_some (by rw [spared]; rfl)).symm

/-- The body of the loop over `server_list`, for one server. -/
theorem sendSquits_eq (split : Split) (cptr : Client) :
    sendSquits split cptr = split.servers.filterMap fun acptr =>
      (if acptr.cptr = cptr.cptr ∨ acptr.cptr = split.me ∨ acptr.cptr = split.dead ∨ acptr.cptr = split.lcptr ∨
          acptr.noquit = true ∧ cptr.cptr ≠ split.dead then none
      else some (.squit (if cptr.link = acptr.cptr then some split.source else none) cptr.name split.comment)).map
        (.sent acptr.cptr) := by
  apply List.filterMap_congr
  intro acptr _
  split_ifs <;> first | rfl | (exfalso; tauto)

/-- What a linked server is sent for one client that is removed. -/
theorem messagesTo_block (linked : Linked split clients) (member : link ∈ split.servers)
    (away : link.cptr ≠ split.dead) (other : link.cptr ≠ cptr.cptr) :
    messagesTo link.cptr (block split cptr) =
      if link.noquit = true ∧ (cptr.status = .server → cptr.cptr ≠ split.dead) ∨
        cptr.status = .server ∧ (link.cptr = split.me ∨ link.cptr = split.lcptr) then []
      else [removalFor split link.cptr cptr] := by
  have quiet : messagesTo link.cptr [.removed cptr] = [] := rfl
  rw [block, messagesTo_append, quiet, List.append_nil]
  by_cases server : cptr.status = .server
  · rw [if_pos server, sendSquits_eq, messagesTo_filterMap linked.distinct member]
    simp only [server, away, other, removalFor, if_true, true_and, false_or, forall_const]
    split_ifs <;> first | rfl | (exfalso; tauto)
  · rw [if_neg server, sendtoNonNoquitServsButone_eq, messagesTo_filterMap linked.distinct member]
    have away' : (split.dead == link.cptr) = false := beq_false_of_ne away.symm
    simp only [server, away', removalFor, if_false, Bool.or_false, false_and, or_false, false_implies, and_true]
    split_ifs <;> rfl

/-- No linked server is behind another server. -/
theorem Linked.outside (linked : Linked split clients) (forest : Forest clients) (member : link ∈ split.servers)
    (away : link.cptr ≠ server.cptr) (behind : Behind clients server cptr) : link.cptr ≠ cptr.cptr := by
  intro same
  obtain ⟨own, present, self, _, uplink⟩ := linked.direct link member
  obtain ⟨here, present', at', status⟩ := linked.here
  rcases ReflTransGen.cases_tail behind with last | ⟨middle, _, below⟩
  · exact away (same.trans (congrArg _ last))
  · have known := forest.same present below.2.1 (self.trans same)
    have top := forest.same present' below.1 (at'.trans (uplink.symm.trans (known ▸ below.2.2.2.2)))
    rw [top, below.2.2.1] at status
    contradiction

theorem Linked.not_me (linked : Linked split clients) (forest : Forest clients) (member : link ∈ split.servers) :
    link.cptr ≠ split.me := by
  intro same
  obtain ⟨own, present, self, server, _⟩ := linked.direct link member
  obtain ⟨here, present', at', status⟩ := linked.here
  have both := forest.same present present' (self.trans (same.trans at'.symm))
  rw [both, status] at server
  contradiction

/-- A server that understands NOQUIT hears of the dead server only. -/
theorem flatMap_once (order : List Client) (once : order.Nodup) (member : dead ∈ order) (message : Message) :
    (order.flatMap fun cptr => if cptr = dead then [message] else []) = [message] := by
  induction order with
  | nil => exact absurd member List.not_mem_nil
  | cons cptr order ih =>
    obtain ⟨fresh, once⟩ := List.nodup_cons.mp once
    rw [List.flatMap_cons]
    rcases List.mem_cons.mp member with rfl | member
    · have rest : (order.flatMap fun cptr => if cptr = dead then [message] else []) = [] := by
        apply List.flatMap_eq_nil_iff.mpr
        intro cptr present
        exact if_neg fun (same : cptr = dead) => fresh (same ▸ present)
      rw [if_pos rfl, rest, List.append_nil]
    · rw [if_neg fun (same : cptr = dead) => fresh (same ▸ member), List.nil_append, ih once member]

theorem messagesTo_order (linked : Linked split clients) (forest : Forest clients) (member : link ∈ split.servers)
    (away : link.cptr ≠ split.dead) (present : server ∈ clients) (status : server.status = .server)
    (dead : split.dead = server.cptr) (behind : ∀ cptr, cptr ∈ order ↔ Behind clients server cptr)
    (once : order.Nodup) :
    messagesTo link.cptr (order.flatMap (block split)) =
      if link.cptr = split.lcptr then
        if link.noquit then [] else (order.filter fun cptr => cptr.status ≠ .server).map (removalFor split link.cptr)
      else if link.noquit then [removalFor split link.cptr server] else order.map (removalFor split link.cptr) := by
  have each : ∀ cptr ∈ order, messagesTo link.cptr (block split cptr) =
      if link.noquit = true ∧ cptr ≠ server ∨ cptr.status = .server ∧ link.cptr = split.lcptr then []
      else [removalFor split link.cptr cptr] := by
    intro cptr inside
    have found := (behind cptr).mp inside
    have other := linked.outside forest member (dead ▸ away) found
    have same : cptr.cptr = server.cptr ↔ cptr = server :=
      ⟨fun same => forest.same (found.member present) present same, fun same => congrArg _ same⟩
    have differs : (cptr.status = .server → cptr.cptr ≠ split.dead) ↔ cptr ≠ server := by
      rw [dead, ne_eq, same]
      exact ⟨fun differs both => differs (both ▸ status) both, fun differs _ => differs⟩
    rw [messagesTo_block linked member away other]
    simp only [differs, linked.not_me forest member, false_or]
  rw [messagesTo_flatMap, List.flatMap_congr each]
  by_cases upstream : link.cptr = split.lcptr
  · rw [if_pos upstream]
    cases spared : link.noquit with
    | true =>
      apply List.flatMap_eq_nil_iff.mpr
      intro cptr _
      by_cases same : cptr = server
      · simp [same, status, upstream]
      · simp [same]
    | false =>
      rw [if_neg Bool.false_ne_true]
      clear each behind once
      induction order with
      | nil => rfl
      | cons cptr order ih =>
        rw [List.flatMap_cons, ih]
        by_cases server : cptr.status = .server
        · simp [server, upstream]
        · simp [server]
  · rw [if_neg upstream]
    cases spared : link.noquit with
    | true =>
      have alone := flatMap_once order once ((behind server).mpr .refl) (removalFor split link.cptr server)
      rw [if_pos rfl, ← alone]
      apply List.flatMap_congr
      intro cptr _
      by_cases same : cptr = server
      · simp [same, upstream]
      · simp [same]
    | false =>
      rw [if_neg Bool.false_ne_true, List.map_eq_flatMap]
      apply List.flatMap_congr
      intro cptr _
      simp [upstream]

/-- A split takes away what is behind the dead server and nothing else, each client once and before the server
it was on, and tells the linked servers: one that reported the split hears of no server again. -/
theorem exitOneServer_exact (split : Split) (forest : Forest clients) (linked : Linked split clients)
    (present : server ∈ clients) (status : server.status = .server) (dead : split.dead = server.cptr) :
    ∃ bound final order, (∀ calls, bound ≤ calls → exitOneServer split calls server ⟨clients, []⟩ = some final) ∧
      gone final.log = order ∧ (∀ cptr, cptr ∈ order ↔ Behind clients server cptr) ∧ order.Nodup ∧
      order.Pairwise (fun earlier later => ¬ Below clients earlier later) ∧
      (final.clients = clients.filter fun cptr => cptr ∉ order) ∧
      ∀ link ∈ split.servers, link.cptr ≠ split.dead → messagesTo link.cptr final.log =
        if link.cptr = split.lcptr then
          if link.noquit then [] else (order.filter fun cptr => cptr.status ≠ .server).map (removalFor split link.cptr)
        else if link.noquit then [removalFor split link.cptr server]
        else order.map (removalFor split link.cptr) := by
  have intact : Intact clients server ⟨clients, []⟩ := ⟨List.Sublist.refl _, fun _ behind => behind.member present⟩
  obtain ⟨bound, final, order, returns, cleared, behind, once, upward⟩ :=
    forest.exits split server ⟨present, status⟩ _ intact
  have log : final.log = order.flatMap (block split) := cleared.log
  refine ⟨bound, final, order, returns, ?_, behind, once, upward, cleared.clients, ?_⟩
  · rw [log, gone_flatMap_block]
  · intro link member away
    rw [log]
    exact messagesTo_order linked forest member away present status dead behind once

/-- More calls change nothing for a recursion that has returned. -/
theorem exit_succ (split : Split) (calls : Nat) :
    (∀ cptr state final, exitOneServer split calls cptr state = some final →
      exitOneServer split (calls + 1) cptr state = some final) ∧
    ∀ cptr rest state final, exitServers split calls cptr rest state = some final →
      exitServers split (calls + 1) cptr rest state = some final := by
  induction calls with
  | zero => exact ⟨nofun, nofun⟩
  | succ calls ih =>
    obtain ⟨server, servers⟩ := ih
    constructor
    · intro cptr state final returned
      rw [exitOneServer] at returned ⊢
      cases walked : exitServers split calls cptr (exitUsers split cptr state.clients state).clients
          (exitUsers split cptr state.clients state) with
      | none => simp [walked] at returned
      | some middle =>
        rw [servers _ _ _ _ walked]
        simpa [walked] using returned
    · intro cptr rest state final returned
      cases rest with
      | nil => simpa [exitServers] using returned
      | cons acptr rest =>
        rw [exitServers] at returned ⊢
        split
        next other =>
          rw [if_pos other] at returned
          exact servers _ _ _ _ returned
        next below =>
          rw [if_neg below] at returned
          cases exited : exitOneServer split calls acptr state with
          | none => simp [exited] at returned
          | some middle =>
            rw [server _ _ _ exited]
            simp only [exited] at returned
            exact servers _ _ _ _ returned

theorem exitOneServer_mono (enough : calls ≤ more) (returned : exitOneServer split calls cptr state = some final) :
    exitOneServer split more cptr state = some final := by
  induction enough with
  | refl => exact returned
  | step _ ih => exact (exit_succ split _).1 _ _ _ ih

/-- Whenever it returns, it has removed what is behind the server. -/
theorem Forest.exit_behind (forest : Forest clients) (member : cptr ∈ clients) (status : cptr.status = .server)
    (returned : exitOneServer split calls cptr ⟨clients, []⟩ = some final) :
    (gone final.log).Nodup ∧ ∀ child, child ∈ gone final.log ↔ Behind clients cptr child := by
  obtain ⟨bound, final', order, returns, cleared, behind, once, _⟩ :=
    forest.exits split cptr ⟨member, status⟩ ⟨clients, []⟩ ⟨List.Sublist.refl _, fun _ behind => behind.member member⟩
  have more := exitOneServer_mono (Nat.le_max_left calls bound) returned
  have same : final' = final := Option.some.inj ((returns _ (Nat.le_max_right calls bound)).symm.trans more)
  have log : gone final.log = order := by
    rw [← same, cleared.log]
    exact gone_flatMap_block split order
  exact ⟨log ▸ once, log ▸ behind⟩

/-- Clients that are numbered as they came make a forest. -/
theorem Forest.of_numbers (distinct : (clients.map Client.cptr).Nodup)
    (earlier : ∀ cptr ∈ clients, cptr.status = .person ∨ cptr.status = .server → cptr.uplink < cptr.cptr) :
    Forest clients := by
  refine ⟨distinct, Client.cptr, fun server child below => ?_⟩
  rw [← below.2.2.2.2]
  exact earlier child below.2.1 below.2.2.2.1

end

/-- `hub` with `near`, which has `far` behind it, and `side`, which understands NOQUIT. -/
def network : List Client :=
  [⟨0, 0, 0, .me, "hub".toList⟩, ⟨1, 0, 1, .server, "near".toList⟩, ⟨2, 0, 2, .server, "side".toList⟩,
    ⟨3, 1, 1, .server, "far".toList⟩, ⟨4, 3, 1, .person, "ann".toList⟩]

/-- `near` reports that it has lost `far`. -/
def farSplit : Split :=
  ⟨3, "near".toList, 1, "near far".toList, "gone".toList, 0, [⟨1, false⟩, ⟨2, true⟩]⟩

theorem forest_network : Forest network :=
  Forest.of_numbers (by decide) (by decide)

theorem linked_farSplit : Linked farSplit network :=
  ⟨by decide, by decide, by decide⟩

theorem exitOneServer_exact_network :
    ∃ bound final order, (∀ calls, bound ≤ calls →
      exitOneServer farSplit calls ⟨3, 1, 1, .server, "far".toList⟩ ⟨network, []⟩ = some final) ∧
      gone final.log = order ∧
      (∀ cptr, cptr ∈ order ↔ Behind network ⟨3, 1, 1, .server, "far".toList⟩ cptr) ∧ order.Nodup ∧
      order.Pairwise (fun earlier later => ¬ Below network earlier later) ∧
      (final.clients = network.filter fun cptr => cptr ∉ order) ∧
      ∀ link ∈ farSplit.servers, link.cptr ≠ farSplit.dead → messagesTo link.cptr final.log =
        if link.cptr = farSplit.lcptr then
          if link.noquit then []
          else (order.filter fun cptr => cptr.status ≠ .server).map (removalFor farSplit link.cptr)
        else if link.noquit then [removalFor farSplit link.cptr ⟨3, 1, 1, .server, "far".toList⟩]
        else order.map (removalFor farSplit link.cptr) :=
  exitOneServer_exact farSplit forest_network linked_farSplit (by decide) rfl rfl

/-- The link that reported the split is sent the QUIT of `ann` but not the SQUIT of `far`. -/
theorem exitOneServer_upstream :
    ¬ ∀ (split : Split) (clients : List Client) (server : Client), Forest clients → Linked split clients →
      server ∈ clients → server.status = .server → split.dead = server.cptr →
      ∀ calls final, exitOneServer split calls server ⟨clients, []⟩ = some final →
      ∀ link ∈ split.servers, link.cptr ≠ split.dead → link.noquit = false →
        messagesTo link.cptr final.log = (gone final.log).map (removalFor split link.cptr) := by
  intro claim
  have told := claim farSplit network ⟨3, 1, 1, .server, "far".toList⟩ forest_network linked_farSplit (by decide) rfl
    rfl 12 _ rfl ⟨1, false⟩ (by decide) (by decide) rfl
  revert told
  decide

end SolidIrcd.Squit
