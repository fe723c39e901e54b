import SolidIrcd.Conf.Merged
import SolidIrcd.Lib.Machine

/-! Connections come, register, get and lose operator blocks, link and exit, and the configuration is read again at any
time: no block is freed while somebody is attached to it. -/

namespace SolidIrcd.Blocks

open Scan (Text)

inductive Action where
  | accept
  | register (cptr : Ptr) (who : Who) (passes : Bool)
  | oper (cptr : Ptr) (name username sockhost hostip : Text)
  | umode (cptr : Ptr)
  | server (cptr : Ptr) (name : Text)
  | estab (cptr : Ptr)
  | exit (cptr : Ptr)
  | rehash (conf : Conf)

/-- `add_connection`. -/
def addConnection (state : State) : State :=
  { state with clients := ⟨state.next, .unknown, none, none, none, none⟩ :: state.clients, next := state.next + 1 }

def State.perform (state : State) : Action → Option State
  | .accept => some (addConnection state)
  | .register ptr who passes => do registerUser state (← state.clientAt ptr) who passes
  | .oper ptr name username sockhost hostip => do mOper state (← state.clientAt ptr) name username sockhost hostip
  | .umode ptr => do mUmode state (← state.clientAt ptr)
  | .server ptr name => do checkServerInit state (← state.clientAt ptr) name
  | .estab ptr => do doServerEstab state (← state.clientAt ptr)
  | .exit ptr => do exitClient state (← state.clientAt ptr)
  | .rehash conf => Blocks.rehash state conf

/-- A connection registers once, an operator is one until it is no more, and a server does not exit while somebody else
negotiates keys with its Connect block. A class that is read may have any number of links but -1, and `default` is
always among those that are read. -/
def State.possible (state : State) : Action → Prop
  | .accept => True
  | .register ptr _ _ => ∃ cptr, state.clientAt ptr = some cptr ∧ cptr.status = .unknown
  | .oper ptr _ _ _ _ => ∃ cptr, state.clientAt ptr = some cptr ∧ cptr.status = .person ∧ cptr.oper = none
  | .umode ptr => ∃ cptr, state.clientAt ptr = some cptr ∧ cptr.status = .person ∧ cptr.oper ≠ none
  | .server ptr _ => ∃ cptr, state.clientAt ptr = some cptr ∧ cptr.status = .unknown
  | .estab ptr => ∃ cptr, state.clientAt ptr = some cptr ∧ cptr.status = .unknown ∧ cptr.aconn ≠ none
  | .exit ptr => ∃ cptr, state.clientAt ptr = some cptr ∧ state.Alone cptr
  | .rehash conf => (∀ cl ∈ conf.classes, cl.maxlinks ≠ -1) ∧ Reads conf.classes none

/-- The server; nothing comes after an access to a block that has been freed. -/
def machine : Machine (Option State) Action where
  perform := fun state action => state.bind fun state => state.perform action
  possible := fun state action => ∃ current, state = some current ∧ current.possible action

/-- The server starts: nothing is there, and a configuration is read. -/
def boot (conf : Conf) : Option State := mergeConfs ⟨[], [], [], [], [], 0, fun _ => 0⟩ conf

/-- Every pointer points to a block that is there, and every block counts those that are attached to it. -/
structure InUse (state : State) : Prop where
  classOf : ∀ cptr ∈ state.clients, ∀ ptr, cptr.cls = some ptr → (state.classAt ptr).isSome
  allowOf : ∀ cptr ∈ state.clients, ∀ ptr, cptr.allow = some ptr → (state.allowAt ptr).isSome
  operOf : ∀ cptr ∈ state.clients, ∀ ptr, cptr.oper = some ptr → (state.operAt ptr).isSome
  connectOf : ∀ cptr ∈ state.clients, ∀ ptr, cptr.aconn = some ptr → (state.connectAt ptr).isSome
  allowClass : ∀ allow ∈ state.allows, (state.classAt allow.cls).isSome
  operClass : ∀ aoper ∈ state.opers, (state.classAt aoper.cls).isSome
  connectClass : ∀ aconn ∈ state.connects, (state.classAt aconn.cls).isSome
  links : ∀ cl ∈ state.classes, cl.links = state.clients.countP fun cptr => cptr.cls = some cl.ptr
  refs : ∀ cl ∈ state.classes, cl.refs = (state.clients.countP fun cptr => cptr.cls = some cl.ptr) +
    (state.allows.countP fun allow => allow.cls = cl.ptr) + (state.opers.countP fun aoper => aoper.cls = cl.ptr) +
    (state.connects.countP fun aconn => aconn.cls = cl.ptr) + state.lost cl.ptr
  clients : ∀ allow ∈ state.allows, allow.clients = state.clients.countP fun cptr => cptr.allow = some allow.ptr
  opers : ∀ aoper ∈ state.opers, aoper.opers = state.clients.countP fun cptr => cptr.oper = some aoper.ptr
  classesGo : ∀ cl ∈ state.classes, ¬ (cl.refs = 0 ∧ cl.maxlinks = -1)
  allowsGo : ∀ allow ∈ state.allows, ¬ (allow.legal = -1 ∧ allow.clients = 0)

theorem tally_eq_countP {α : Type} (field : α → Option Ptr) (list : List α) (ptr : Ptr) :
    tally field list ptr = list.countP fun entry => field entry = some ptr := by
  induction list with
  | nil => rfl
  | cons first rest ih =>
    rw [tally_cons, ih, List.countP_cons, one]
    by_cases same : field first = some ptr
    · simp only [same, if_true, decide_true]
      omega
    · simp only [same, if_false, decide_false, Bool.false_eq_true]
      omega

section

variable {state : State} {cptr : AClient}

theorem find_isSome {α : Type} {key : α → Ptr} {list : List α} (present : ptr ∈ list.map key) :
    (list.find? fun entry => key entry = ptr).isSome = true := by
  obtain ⟨entry, _, _, found⟩ := find_ptr present
  rw [found]
  rfl

/-- The class that something refers to is there. -/
theorem Steady.held (steady : Steady state) (some : 0 < state.held ptr) : (state.classAt ptr).isSome := by
  apply find_isSome
  apply steady.books.ledger.present
  simpa only [nothing, Int.add_zero] using some

theorem Steady.inUse (steady : Steady state) : InUse state := by
  have clients := tally_nonneg AClient.cls state.clients
  have allows := tally_nonneg (fun allow : AAllow => some allow.cls) state.allows
  have opers := tally_nonneg (fun aoper : AOper => some aoper.cls) state.opers
  have connects := tally_nonneg (fun aconn : AConnect => some aconn.cls) state.connects
  have lost := steady.books.lost
  refine ⟨fun cptr member ptr points => steady.held ?_, fun cptr member ptr points => find_isSome ?_,
    fun cptr member ptr points => find_isSome ?_, fun cptr member ptr points => ?_,
    fun allow member => steady.held ?_, fun aoper member => steady.held ?_, fun aconn member => steady.held ?_,
    fun cl member => ?_, fun cl member => ?_, fun allow member => ?_, fun aoper member => ?_, fun cl member => ?_,
    fun allow member => ?_⟩
  · have := tally_pos AClient.cls member points
    have := allows ptr
    have := opers ptr
    have := connects ptr
    have := lost ptr
    simp only [State.held]
    omega
  · apply steady.books.allows.live
    have := tally_pos AClient.allow member points
    show _ + (0 : Int) ≠ 0
    omega
  · apply steady.books.opers.live
    have := tally_pos AClient.oper member points
    show _ + (0 : Int) ≠ 0
    omega
  · obtain ⟨aconn, inside, same, _⟩ := steady.shape.used cptr member ptr points
    exact find_isSome (same ▸ List.mem_map_of_mem inside)
  · have := tally_pos (fun allow : AAllow => some allow.cls) member rfl
    have := clients allow.cls
    have := opers allow.cls
    have := connects allow.cls
    have := lost allow.cls
    simp only [State.held]
    omega
  · have := tally_pos (fun aoper : AOper => some aoper.cls) member rfl
    have := clients aoper.cls
    have := allows aoper.cls
    have := connects aoper.cls
    have := lost aoper.cls
    simp only [State.held]
    omega
  · have := tally_pos (fun aconn : AConnect => some aconn.cls) member rfl
    have := clients aconn.cls
    have := allows aconn.cls
    have := opers aconn.cls
    have := lost aconn.cls
    simp only [State.held]
    omega
  · rw [steady.books.ledger.links cl member, tally_eq_countP]
    exact Int.add_zero _
  · have counted : cl.refs = state.held cl.ptr + 0 := steady.books.ledger.refs.counted cl member
    rw [counted]
    simp [State.held, tally_eq_countP]
  · have counted : allow.clients = tally AClient.allow state.clients allow.ptr + 0 :=
      steady.books.allows.counted allow member
    rw [counted, tally_eq_countP, Int.add_zero]
  · have counted : aoper.opers = tally AClient.oper state.clients aoper.ptr + 0 :=
      steady.books.opers.counted aoper member
    rw [counted, tally_eq_countP, Int.add_zero]
  · simpa [classKind] using steady.tidyClasses cl member
  · rintro ⟨legal, free⟩
    have := steady.tidyAllows allow member
    simp [allowKind, legal, free] at this

theorem Sound.accept (sound : Sound state) : Sound (addConnection state) := by
  have grown := sound.shape.grow (Nat.le_succ state.next)
  have tallied (field : AClient → Option Ptr) (bare : field ⟨state.next, .unknown, none, none, none, none⟩ = none)
      (ptr : Ptr) : tally field (addConnection state).clients ptr = tally field state.clients ptr := by
    rw [addConnection, tally_cons, bare, one_none, Int.zero_add]
  have books : Books (addConnection state) nothing nothing nothing nothing := by
    refine ⟨sound.books.ledger.congr (fun ptr => ?_) fun ptr => ?_, ?_, ?_, sound.books.lost⟩
    · simp only [State.held, tallied AClient.cls rfl]
      rfl
    · rw [tallied AClient.cls rfl]
    · simp only [tallied AClient.allow rfl]
      exact sound.books.allows
    · simp only [tallied AClient.oper rfl]
      exact sound.books.opers
  have shape : Shape (addConnection state) := by
    refine { grown with
      clients := List.nodup_cons.mpr ⟨fun present => ?_, sound.shape.clients⟩
      used := fun other member => ?_
      servers := fun other member => ?_
      clientsFresh := fun other member => ?_ }
    · obtain ⟨other, inside, (same : other.ptr = state.next)⟩ := List.mem_map.mp present
      exact Nat.lt_irrefl state.next (same ▸ sound.shape.clientsFresh other inside)
    · rcases List.mem_cons.mp member with rfl | before
      · intro ptr points
        cases points
      · exact sound.shape.used other before
    · rcases List.mem_cons.mp member with rfl | before
      · intro linked
        cases linked
      · exact sound.shape.servers other before
    · rcases List.mem_cons.mp member with rfl | before
      · exact Nat.lt_succ_self state.next
      · exact grown.clientsFresh other before
  refine ⟨⟨books, shape, sound.serves, sound.tidyClasses, sound.tidyAllows⟩, fun other member => ?_⟩
  rcases List.mem_cons.mp member with rfl | before
  · exact fun _ => ⟨rfl, rfl⟩
  · exact sound.fresh other before

/-- Each action leaves the books right. -/
theorem Sound.perform (sound : Sound state) (action : Action) (possible : state.possible action) :
    ∃ after, state.perform action = some after ∧ Sound after := by
  cases action with
  | accept => exact ⟨_, rfl, sound.accept⟩
  | register ptr who passes =>
    obtain ⟨cptr, found, unknown⟩ := possible
    simp only [State.perform, found, Option.bind_eq_bind, Option.bind_some]
    exact sound.register (List.mem_of_find?_eq_some found) unknown who passes
  | oper ptr name username sockhost hostip =>
    obtain ⟨cptr, found, person, bare⟩ := possible
    simp only [State.perform, found, Option.bind_eq_bind, Option.bind_some]
    exact sound.oper (List.mem_of_find?_eq_some found) person bare name username sockhost hostip
  | umode ptr =>
    obtain ⟨cptr, found, person, up⟩ := possible
    obtain ⟨oper, points⟩ := Option.ne_none_iff_exists'.mp up
    simp only [State.perform, found, Option.bind_eq_bind, Option.bind_some]
    exact sound.umode (List.mem_of_find?_eq_some found) person points
  | server ptr name =>
    obtain ⟨cptr, found, unknown⟩ := possible
    simp only [State.perform, found, Option.bind_eq_bind, Option.bind_some]
    exact sound.check (List.mem_of_find?_eq_some found) unknown name
  | estab ptr =>
    obtain ⟨cptr, found, unknown, checked⟩ := possible
    simp only [State.perform, found, Option.bind_eq_bind, Option.bind_some]
    exact sound.establish (List.mem_of_find?_eq_some found) unknown checked
  | exit ptr =>
    obtain ⟨cptr, found, alone⟩ := possible
    simp only [State.perform, found, Option.bind_eq_bind, Option.bind_some]
    exact sound.exit (List.mem_of_find?_eq_some found) alone
  | rehash conf =>
    obtain ⟨wanted, default⟩ := possible
    exact sound.rehash conf wanted default

end

/-- A Connect block that is to go goes with its server, whoever else has it: the reason for `State.Alone`. -/
theorem exit_takes_connect {state after : State} {cptr : AClient} {aconn : AConnect} (linked : cptr.status = .server)
    (points : cptr.aconn = some ptr) (found : state.connectAt ptr = some aconn) (gone : aconn.legal = -1)
    (exits : exitClient state cptr = some after) : after.connectAt ptr = none := by
  simp only [exitClient, clearConflinks, if_pos linked, Option.bind_eq_bind] at exits
  obtain ⟨classes, -, exits⟩ := Option.bind_eq_some_iff.mp exits
  have found' : State.connectAt { state with
      clients := state.clients.filter fun other => other.ptr ≠ cptr.ptr
      classes := classes } ptr = some aconn := found
  simp only [clearConnect, points, found', if_pos gone, Option.bind_eq_bind, Option.bind_some] at exits
  obtain ⟨dropped, -, exits⟩ := Option.bind_eq_some_iff.mp exits
  cases exits
  refine List.find?_eq_none.mpr fun other member => ?_
  simpa using (List.mem_filter.mp member).2

/-- Before a configuration has been read. -/
theorem boot_sound (conf : Conf) (wanted : ∀ cl ∈ conf.classes, cl.maxlinks ≠ -1) (default : Reads conf.classes none)
    (classes : setClasses conf = true) : ∃ state, boot conf = some state ∧ Sound state := by
  have books : Books ⟨[], [], [], [], [], 0, fun _ => 0⟩ nothing nothing nothing nothing :=
    ⟨⟨⟨List.nodup_nil, fun _ some => absurd rfl some, nofun⟩, nofun⟩,
      ⟨List.nodup_nil, fun _ some => absurd rfl some, nofun⟩, ⟨List.nodup_nil, fun _ some => absurd rfl some, nofun⟩,
      fun _ => Int.le_refl 0⟩
  have shape : Shape ⟨[], [], [], [], [], 0, fun _ => 0⟩ :=
    ⟨List.nodup_nil, List.nodup_nil, nofun, nofun, nofun, nofun, nofun, nofun, nofun⟩
  obtain ⟨state, merges, steady, clients⟩ := books.mergeConfs conf shape wanted default classes
  exact ⟨state, merges, steady, clients ▸ nofun⟩

/-- Whatever happens, no block is freed that is in use: every access finds its block, every count is exact, and a class
or an allow that is to go and that nobody holds is not there. -/
theorem no_block_lost (conf : Conf) (wanted : ∀ cl ∈ conf.classes, cl.maxlinks ≠ -1) (default : Reads conf.classes none)
    (classes : setClasses conf = true) (run : machine.Run Machine.Any (boot conf) final) :
    ∃ state, final = some state ∧ InUse state := by
  have sound : ∃ state, final = some state ∧ Sound state := by
    refine run.invariant (fun state => ∃ current, state = some current ∧ Sound current) ?_
      (boot_sound conf wanted default classes)
    rintro _ action ⟨current, rfl, possible⟩ - ⟨_, same, sound⟩
    cases Option.some.inj same
    exact sound.perform action possible
  obtain ⟨state, rfl, sound⟩ := sound
  exact ⟨state, rfl, sound.toSteady.inUse⟩

/-- Two classes, an allow and an operator. -/
def sample : Conf where
  classes := [⟨"users".toList, ⟨0, 90, 1000, 0, 0⟩, 5⟩, ⟨"default".toList, ⟨0, 90, 1000, 0, 0⟩, 5⟩]
  connects := []
  allows := [⟨0, "*".toList, "*".toList, none, 0, ⟨false, false, true, false, 0⟩, some "users".toList, 0, 0, 0⟩]
  opers := [⟨0, "op".toList, ["*".toList], "pw".toList, 0, none, 0, 0, 0⟩]

/-- Of two connections one exits, and the other registers when the configuration has been read again. -/
def visit : List Action :=
  [.accept, .accept, .exit 4, .rehash sample, .register 5 ⟨"u".toList, "1.2.3.4".toList, none, 6667⟩ true]

theorem no_block_lost_visit : ∃ state, visit.foldl machine.perform (boot sample) = some state ∧ InUse state := by
  have allows : machine.Allows Machine.Any (boot sample) visit :=
    ⟨⟨_, rfl, trivial⟩, trivial, ⟨_, rfl, trivial⟩, trivial,
      ⟨_, rfl, _, rfl, by intro linked; cases linked⟩, trivial,
      ⟨_, rfl, by decide, rfl⟩, trivial, ⟨_, rfl, _, rfl, rfl⟩, trivial, trivial⟩
  exact no_block_lost sample (by decide) rfl rfl (.of_list visit (.refl _) allows)

end SolidIrcd.Blocks
