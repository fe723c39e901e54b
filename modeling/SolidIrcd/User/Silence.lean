import SolidIrcd.Channel.MaskMatch
import SolidIrcd.Lib.Cascade
import SolidIrcd.Lib.Machine

/-! The SILENCE list of one user as the servers of a network have it: `is_silenced`,
`del_silence`, `add_silence` and `m_silence` of `s_user.c`, with the messages to that user
that make servers hand masks on. -/

namespace SolidIrcd.Silence

open Mask (matchMask matchMask_of_mycmp prettyMask)
open Scan (Text)

def maxSiles : Nat := 10
def maxSileLength : Nat := 128

variable {σ : Type}

/-- A client as one server sees it; `link` is the server next to it the client is behind,
and none for its own connections. -/
structure Person (σ : Type) where
  username : Text
  host : Text
  link : Option σ

/-- `is_silenced`: the first mask that blocks the sender. -/
def isSilenced (silence : List Text) (name : Text) (sptr : Person σ) : Option Text :=
  silence.find? fun mask => matchMask mask (name ++ '!' :: sptr.username ++ '@' :: sptr.host)

def delSilence (silence : List Text) (mask : Text) : Option (List Text) :=
  if silence.any (mycmp mask) then some (silence.eraseP (mycmp mask)) else none

/-- The loop of `add_silence`. -/
def refuses (mine : Bool) (mask : Text) : Nat → Nat → List Text → Bool
  | _, _, [] => false
  | len, cnt, old :: rest =>
    if mine then
      len + old.length > maxSileLength || cnt + 1 ≥ maxSiles || matchMask old mask ||
        refuses mine mask (len + old.length) (cnt + 1) rest
    else mycmp old mask || refuses mine mask len cnt rest

def addSilence (mine : Bool) (silence : List Text) (mask : Text) : Option (List Text) :=
  if refuses mine mask 0 0 silence then none else some (mask :: silence)

/-- A line `:user SILENCE target :mask` from one server to another. -/
structure Line where
  target : Text
  mask : Text

/-- `m_silence` for the user itself: the new list, and what all servers are told. -/
def mSilence (findPerson : Text → Bool) (silence : List Text) : Option Text → List Text × Option Line
  | none => (silence, none)
  | some parameter =>
    if parameter = [] ∨ findPerson parameter then (silence, none)
    else
      match parameter with
      | '-' :: cp =>
        match delSilence silence (prettyMask cp) with
        | some rest => (rest, some ⟨['*'], '-' :: prettyMask cp⟩)
        | none => (silence, none)
      | '+' :: cp => ((addSilence true silence (prettyMask cp)).getD silence, none)
      | cp =>
        if cp.any fun c => c == '@' || c == '.' || c == '!' || c == '*' then
          ((addSilence true silence (prettyMask cp)).getD silence, none)
        else (silence, none)

inductive Relay (σ : Type) where
  | nobody
  /-- `sendto_serv_butone(cptr, ...)`. -/
  | others
  | toward (link : σ)

/-- `m_silence` for a line from the user's direction. -/
def mSilenceRemote (findPerson : Text → Option (Person σ)) (silence : List Text) (line : Line) :
    List Text × Relay σ :=
  match line.mask with
  | [] => (silence, .nobody)
  | '-' :: mask =>
    match delSilence silence mask with
    | some rest => (rest, .others)
    | none => (silence, .nobody)
  | mask =>
    match findPerson line.target with
    | none => (silence, .nobody)
    | some acptr => ((addSilence false silence mask).getD silence, (acptr.link.map .toward).getD .nobody)

/-- The servers: the one the user is on, and the next server towards it for each other. -/
structure Network (σ : Type) where
  home : σ
  uplink : σ → Option σ
  tree : Cascade.Tree uplink home

structure State (σ : Type) where
  silence : σ → List Text
  people : σ → Text → Option (Person σ)
  /-- Senders of the messages to the user that a server has passed on to its uplink. -/
  up : σ → List Text
  /-- Lines from its uplink that a server has yet to read. -/
  down : σ → List Line

/-- How far `m_message` gets with a target before `is_silenced`. -/
inductive Checks where
  /-- Another check stops the message. -/
  | stops
  /-- A U-lined sender, or a `user@server` target. -/
  | skips
  | reaches
  deriving DecidableEq

inductive Action (σ : Type) where
  /-- The user sends SILENCE to its server. -/
  | silence (parameter : Option Text)
  /-- A server learns of a client, or forgets it. -/
  | meet (server : σ) (name : Text) (person : Option (Person σ))
  /-- A client of the server sends the user a message. -/
  | speak (server : σ) (name : Text) (checks : Checks)
  /-- The uplink of the server reads the next message. -/
  | arriveUp (server : σ) (checks : Checks)
  /-- The server reads the next line from its uplink. -/
  | arriveDown (server : σ)

variable [DecidableEq σ]

/-- `sendto_one` to a link of `server`; what does not go away from the user is ignored
where it comes to, as being from the wrong direction. -/
def State.sendOne (state : State σ) (network : Network σ) (server link : σ) (line : Line) : State σ :=
  { state with
    down := fun other =>
      if other = link ∧ network.uplink link = some server then state.down other ++ [line] else state.down other }

/-- `sendto_serv_butone` to all links of `server` but its uplink. -/
def State.sendServ (state : State σ) (network : Network σ) (server : σ) (line : Line) : State σ :=
  { state with
    down := fun other => if network.uplink other = some server then state.down other ++ [line] else state.down other }

def State.setSilence (state : State σ) (server : σ) (silence : List Text) : State σ :=
  { state with silence := Function.update state.silence server silence }

/-- `sendto_prefix_one` for the message itself. -/
def State.forward (state : State σ) (network : Network σ) (server : σ) (name : Text) : State σ :=
  if network.uplink server = none then state
  else { state with up := Function.update state.up server (state.up server ++ [name]) }

/-- `m_message` at a server, for a message from `sptr` to the user. -/
def State.mMessage (state : State σ) (network : Network σ) (server : σ) (name : Text) (sptr : Person σ) :
    Checks → State σ
  | .stops => state
  | .skips => state.forward network server name
  | .reaches =>
    match isSilenced (state.silence server) name sptr with
    | none => state.forward network server name
    | some mask =>
      match sptr.link with
      | none => state
      | some link => state.sendOne network server link ⟨name, mask⟩

def State.perform (network : Network σ) (state : State σ) : Action σ → State σ
  | .silence parameter =>
    let (silence, line) :=
      mSilence (fun name => (state.people network.home name).isSome) (state.silence network.home) parameter
    match line with
    | none => state.setSilence network.home silence
    | some line => (state.setSilence network.home silence).sendServ network network.home line
  | .meet server name person =>
    { state with people := Function.update state.people server (Function.update (state.people server) name person) }
  | .speak server name checks =>
    match state.people server name with
    | none => state
    | some sptr => if sptr.link = none then state.mMessage network server name sptr checks else state
  | .arriveUp server checks =>
    match network.uplink server, state.up server with
    | some above, name :: rest =>
      let state := { state with up := Function.update state.up server rest }
      match state.people above name with
      | none => state
      | some sptr => if sptr.link = some server then state.mMessage network above name sptr checks else state
    | _, _ => state
  | .arriveDown server =>
    match state.down server with
    | [] => state
    | line :: rest =>
      let state := { state with down := Function.update state.down server rest }
      let (silence, relay) := mSilenceRemote (state.people server) (state.silence server) line
      let state := state.setSilence server silence
      match relay with
      | .nobody => state
      | .others => state.sendServ network server line
      | .toward link => state.sendOne network server link line

def traffic (network : Network σ) : Machine (State σ) (Action σ) := ⟨State.perform network, fun _ _ => True⟩

/-- Only the user's own server has a list yet, and nothing is on its way. -/
def State.Fresh (network : Network σ) (state : State σ) : Prop :=
  (∀ server, server ≠ network.home → state.silence server = []) ∧ ∀ server, state.up server = [] ∧ state.down server = []

def State.Delivered (state : State σ) : Prop := ∀ server, state.up server = [] ∧ state.down server = []

/-- `mycmp` makes one of masks that differ in case only. -/
def fold (mask : Text) : Text := mask.map toUpper

def Line.change (line : Line) : Option (Cascade.Change Text) :=
  match line.mask with
  | [] => none
  | '-' :: mask => some (.drop mask)
  | mask => some (.add mask)

def State.copies (state : State σ) : Cascade.Copies σ Text :=
  ⟨state.silence, fun server => (state.down server).filterMap Line.change⟩

structure State.Sound (network : Network σ) (state : State σ) : Prop where
  copies : Cascade.Sound fold network.uplink network.home state.copies
  /-- Nobody is above the user's own server. -/
  top : state.down network.home = []

omit [DecidableEq σ] in
theorem delSilence_eq (removed : delSilence silence mask = some rest) : rest = Cascade.remove fold silence mask := by
  unfold delSilence at removed
  split at removed
  · cases removed
    unfold Cascade.remove
    congr 1
    funext other
    apply Bool.eq_iff_iff.mpr
    rw [mycmp_iff, decide_eq_true_iff]
    rfl
  · cases removed

omit [DecidableEq σ] in
theorem absent_of_delSilence (kept : delSilence silence mask = none) : fold mask ∉ silence.map fold := by
  unfold delSilence at kept
  split at kept
  · cases kept
  next absent =>
    intro member
    obtain ⟨other, listed, same⟩ := List.mem_map.mp member
    exact absent (List.any_eq_true.mpr ⟨other, listed, mycmp_iff.mpr same.symm⟩)

theorem refuses_eq (mask : Text) (len cnt : Nat) (silence : List Text) :
    refuses false mask len cnt silence = silence.any fun old => mycmp old mask := by
  induction silence with
  | nil => rfl
  | cons old rest ih => simp only [refuses, Bool.false_eq_true, if_false, ih, List.any_cons]

theorem addSilence_eq (silence : List Text) (mask : Text) :
    (addSilence false silence mask).getD silence = Cascade.insert fold silence mask := by
  have same : refuses false mask 0 0 silence = true ↔ fold mask ∈ silence.map fold := by
    rw [refuses_eq, List.any_eq_true, List.mem_map]
    simp only [mycmp_iff, fold]
  unfold addSilence Cascade.insert
  by_cases known : fold mask ∈ silence.map fold
  · rw [if_pos (same.mpr known), if_pos known]
    rfl
  · rw [if_neg fun refused => known (same.mp refused), if_neg known]
    rfl

theorem mem_addSilence (member : mask ∈ silence) (new : Text) : mask ∈ (addSilence mine silence new).getD silence := by
  unfold addSilence
  split
  next => exact member
  next => exact List.mem_cons_of_mem _ member

/-- What the user can do to its own list. -/
theorem mSilence_cases (findPerson : Text → Bool) (silence : List Text) (parameter : Option Text) :
    (∃ more, mSilence findPerson silence parameter = (more, none) ∧ ∀ mask ∈ silence, mask ∈ more) ∨
      ∃ mask, mSilence findPerson silence parameter =
        (Cascade.remove fold silence mask, some ⟨['*'], '-' :: mask⟩) := by
  cases parameter with
  | none => exact .inl ⟨silence, rfl, fun _ member => member⟩
  | some parameter =>
    by_cases listing : parameter = [] ∨ findPerson parameter = true
    · exact .inl ⟨silence, by simp only [mSilence, if_pos listing], fun _ member => member⟩
    · simp only [mSilence, if_neg listing]
      split
      next cp =>
        cases removal : delSilence silence (prettyMask cp) with
        | none => exact .inl ⟨silence, rfl, fun _ member => member⟩
        | some rest => exact .inr ⟨prettyMask cp, by rw [delSilence_eq removal]⟩
      next cp => exact .inl ⟨_, rfl, fun _ member => mem_addSilence member _⟩
      next cp _ _ =>
        split
        next => exact .inl ⟨_, rfl, fun _ member => mem_addSilence member _⟩
        next => exact .inl ⟨silence, rfl, fun _ member => member⟩

omit [DecidableEq σ] in
/-- What a server can make of a line from above. -/
theorem mSilenceRemote_cases (findPerson : Text → Option (Person σ)) (silence : List Text) (line : Line) :
    (line.change = none ∧ mSilenceRemote findPerson silence line = (silence, .nobody)) ∨
      (∃ mask, line.change = some (.drop mask) ∧
        (fold mask ∉ silence.map fold ∧ mSilenceRemote findPerson silence line = (silence, .nobody) ∨
          mSilenceRemote findPerson silence line = (Cascade.remove fold silence mask, .others))) ∨
      ∃ mask, line.change = some (.add mask) ∧
        (mSilenceRemote findPerson silence line = (silence, .nobody) ∨
          mSilenceRemote findPerson silence line = (Cascade.insert fold silence mask, .nobody) ∨
            ∃ link, mSilenceRemote findPerson silence line = (Cascade.insert fold silence mask, .toward link)) := by
  obtain ⟨target, mask⟩ := line
  simp only [mSilenceRemote, Line.change]
  split
  next => exact .inl ⟨rfl, rfl⟩
  next mask =>
    right; left
    refine ⟨mask, rfl, ?_⟩
    cases removal : delSilence silence mask with
    | none => exact .inl ⟨absent_of_delSilence removal, rfl⟩
    | some rest => exact .inr (by rw [delSilence_eq removal])
  next =>
    right; right
    refine ⟨mask, rfl, ?_⟩
    cases findPerson target with
    | none => exact .inl rfl
    | some acptr =>
      right
      simp only [addSilence_eq]
      cases acptr.link with
      | none => exact .inl rfl
      | some link => exact .inr ⟨link, rfl⟩

theorem State.copies_sendOne (state : State σ) (network : Network σ) (server link : σ) (line : Line) :
    (state.sendOne network server link line).copies = ⟨state.copies.list, fun other => state.copies.queue other ++
      if other = link ∧ network.uplink link = some server then line.change.toList else []⟩ := by
  simp only [State.copies, State.sendOne, Cascade.Copies.mk.injEq, true_and]
  funext other
  split
  next => cases change : line.change <;> simp [List.filterMap_append, change]
  next => simp

theorem State.copies_sendServ (state : State σ) (network : Network σ) (server : σ) (line : Line)
    (change : line.change = some next) :
    (state.sendServ network server line).copies = ⟨state.copies.list, fun other => state.copies.queue other ++
      if network.uplink other = some server then [next] else []⟩ := by
  simp only [State.copies, State.sendServ, Cascade.Copies.mk.injEq, true_and]
  funext other
  split
  next => simp [List.filterMap_append, change]
  next => simp

namespace State.Sound

variable {network : Network σ} {state : State σ}

omit [DecidableEq σ] in
/-- Only the lists and what goes down count. -/
theorem congr {state' : State σ} (sound : state.Sound network) (silence : state'.silence = state.silence)
    (down : state'.down = state.down) : state'.Sound network := by
  refine ⟨?_, down ▸ sound.top⟩
  have same : state'.copies = state.copies := by
    simp only [State.copies, silence, down]
  rw [same]
  exact sound.copies

theorem sendOne (sound : state.Sound network) (link : σ) (line : Line)
    (passed : ∀ mask, line.change = some (.add mask) → fold mask ∈ (state.silence server).map fold ∧
      (mask ∈ state.silence network.home ∨ Cascade.Recalled fold network.uplink state.copies server mask)) :
    (state.sendOne network server link line).Sound network := by
  have sent := sound.copies.send
    (fun other => if other = link ∧ network.uplink link = some server then line.change.toList else []) ?_
  · refine ⟨state.copies_sendOne network server link line ▸ sent, ?_⟩
    simp only [State.sendOne]
    split
    next away =>
      rw [← away.1, network.tree.top] at away
      cases away.2
    next => exact sound.top
  · intro other mask added
    split at added
    next away =>
      obtain ⟨rfl, child⟩ := away
      exact ⟨server, child, passed mask (by simpa using added)⟩
    next => cases added

/-- Everyone below the server is told to drop the mask, and then it does itself. -/
theorem sendServ (sound : state.Sound network) (server : σ) (line : Line) (drop : line.change = some (.drop mask)) :
    (state.sendServ network server line).Sound network ∧
      ∀ child other, network.uplink child = some server →
        other ∈ Cascade.settle fold ((state.sendServ network server line).copies.list child)
          ((state.sendServ network server line).copies.queue child) → fold other ≠ fold mask := by
  have sent := sound.copies.send (fun other => if network.uplink other = some server then [.drop mask] else []) ?_
  · rw [State.copies_sendServ state network server line drop]
    refine ⟨⟨State.copies_sendServ state network server line drop ▸ sent, ?_⟩, ?_⟩
    · simp only [State.sendServ, network.tree.top]
      exact sound.top
    · intro child other link member
      have inner : child ≠ network.home := by
        rintro rfl
        rw [network.tree.top] at link
        cases link
      simp only [link, if_true] at member
      exact Cascade.ne_of_settle_drop (sound.copies.distinct child inner) member
  · intro other mask added
    split at added <;> simp at added

theorem mMessage (sound : state.Sound network) (server : σ) (name : Text) (sptr : Person σ) (checks : Checks) :
    (state.mMessage network server name sptr checks).Sound network := by
  have forward : (state.forward network server name).Sound network := by
    unfold State.forward
    split
    next => exact sound
    next => exact sound.congr rfl rfl
  cases checks with
  | stops => exact sound
  | skips => exact forward
  | reaches =>
    simp only [State.mMessage]
    split
    next => exact forward
    next mask blocks =>
      split
      next => exact sound
      next link _ =>
        apply sound.sendOne link
        intro other change
        have listed : mask ∈ state.silence server := List.mem_of_find?_eq_some blocks
        have same : other = mask := by
          unfold Line.change at change
          split at change <;> cases change
          rfl
        rw [same]
        exact ⟨List.mem_map_of_mem listed, sound.copies.meant server mask listed⟩

/-- The user edits its list. -/
theorem silence (sound : state.Sound network) (parameter : Option Text) :
    (state.perform network (.silence parameter)).Sound network := by
  simp only [State.perform]
  rcases mSilence_cases (fun name => (state.people network.home name).isSome) (state.silence network.home) parameter
    with ⟨more, result, kept⟩ | ⟨mask, result⟩
  · rw [result]
    refine ⟨sound.copies.grow ?_ ?_ network.tree.top rfl, sound.top⟩
    · intro mask member
      simpa [State.copies, State.setSilence] using kept mask member
    · intro server other
      simp [State.copies, State.setSilence, Function.update_of_ne other]
  · rw [result]
    obtain ⟨sent, lacking⟩ := sound.sendServ network.home ⟨['*'], '-' :: mask⟩ rfl
    refine ⟨sent.copies.withdraw network.tree lacking ?_ (.inl ⟨rfl, rfl⟩) ?_, sent.top⟩
    · simp [State.copies, State.setSilence, State.sendServ]
    · intro server other
      refine ⟨?_, rfl⟩
      simp [State.copies, State.setSilence, State.sendServ, Function.update_of_ne other]

/-- A server reads a line from above that asks for nothing, or for a mask to be added. -/
theorem read (sound : state.Sound network) (waiting : state.down server = line :: rest) (inner : server ≠ network.home)
    (silence : List Text)
    (change : line.change = none ∧ silence = state.silence server ∨ ∃ mask, line.change = some (.add mask) ∧
      (silence = Cascade.insert fold (state.silence server) mask ∨ silence = state.silence server)) :
    (({ state with down := Function.update state.down server rest }).setSilence server silence).Sound network := by
  refine ⟨?_, by simpa [State.setSilence, Function.update_of_ne inner.symm] using sound.top⟩
  rcases change with ⟨none, rfl⟩ | ⟨mask, add, result⟩
  · have same : (({ state with down := Function.update state.down server rest }).setSilence server
        (state.silence server)).copies = state.copies := by
      simp only [State.copies, State.setSilence, Function.update_eq_self, Cascade.Copies.mk.injEq, true_and]
      funext other
      by_cases self : other = server
      · subst self
        rw [Function.update_self, waiting, List.filterMap_cons, none]
      · rw [Function.update_of_ne self]
    rw [same]
    exact sound.copies
  · obtain ⟨above, child⟩ := network.tree.exists_up inner
    have next : state.copies.queue server = .add mask :: rest.filterMap Line.change := by
      simp only [State.copies, waiting, List.filterMap_cons, add]
    refine sound.copies.take child next ?_ ?_ ?_ inner
    · simpa only [State.copies, State.setSilence, Function.update_self] using result
    · simp only [State.copies, State.setSilence, Function.update_self]
    · intro other self
      simp only [State.copies, State.setSilence, Function.update_of_ne self, and_self]

/-- A server reads a line from above that asks for a mask it has not got to go. -/
theorem readAbsent (sound : state.Sound network) (waiting : state.down server = line :: rest)
    (inner : server ≠ network.home) (drop : line.change = some (.drop mask))
    (absent : fold mask ∉ (state.silence server).map fold) :
    (({ state with down := Function.update state.down server rest }).setSilence server
      (state.silence server)).Sound network := by
  refine ⟨?_, by simpa [State.setSilence, Function.update_of_ne inner.symm] using sound.top⟩
  refine sound.copies.withdraw network.tree (sound.copies.lacking absent) ?_ (.inr ⟨inner, ?_⟩) ?_
  · simp only [State.copies, State.setSilence, Function.update_self, Cascade.remove_of_not_mem absent]
  · simp only [State.copies, State.setSilence, waiting, List.filterMap_cons, drop, Function.update_self]
  · intro other self
    simp only [State.copies, State.setSilence, Function.update_of_ne self, and_self]

/-- A server reads a line from above that makes it drop a mask. -/
theorem readDrop (sound : state.Sound network) (waiting : state.down server = line :: rest)
    (inner : server ≠ network.home) (drop : line.change = some (.drop mask)) :
    ((({ state with down := Function.update state.down server rest }).setSilence server
      (Cascade.remove fold (state.silence server) mask)).sendServ network server line).Sound network := by
  obtain ⟨sent, lacking⟩ := sound.sendServ server line drop
  have acyclic : network.uplink server ≠ some server := fun loop => network.tree.acyclic loop .refl
  refine ⟨sent.copies.withdraw network.tree lacking ?_ (.inr ⟨inner, ?_⟩) ?_, ?_⟩
  · simp only [State.copies, State.setSilence, State.sendServ, Function.update_self]
  · simp only [State.copies, State.setSilence, State.sendServ, if_neg acyclic, waiting, List.filterMap_cons, drop,
      Function.update_self]
  · intro other self
    simp only [State.copies, State.setSilence, State.sendServ, Function.update_of_ne self, and_self]
  · simp only [State.setSilence, State.sendServ, network.tree.top, Function.update_of_ne inner.symm]
    exact sound.top

/-- A server reads the next line from above. -/
theorem arriveDown (sound : state.Sound network) (server : σ) :
    (state.perform network (.arriveDown server)).Sound network := by
  simp only [State.perform]
  split
  next => exact sound
  next line rest waiting =>
    have inner : server ≠ network.home := by
      rintro rfl
      rw [sound.top] at waiting
      cases waiting
    rcases mSilenceRemote_cases (state.people server) (state.silence server) line with
      ⟨change, result⟩ | ⟨mask, change, ⟨absent, result⟩ | result⟩ | ⟨mask, change, result | result | ⟨link, result⟩⟩
    · rw [result]
      exact sound.read waiting inner _ (.inl ⟨change, rfl⟩)
    · rw [result]
      exact sound.readAbsent waiting inner change absent
    · rw [result]
      exact sound.readDrop waiting inner change
    · rw [result]
      exact sound.read waiting inner _ (.inr ⟨mask, change, .inr rfl⟩)
    · rw [result]
      exact sound.read waiting inner _ (.inr ⟨mask, change, .inl rfl⟩)
    · rw [result]
      have taken := sound.read waiting inner _ (.inr ⟨mask, change, .inl rfl⟩)
      let next := ({ state with down := Function.update state.down server rest } : State σ).setSilence server
        (Cascade.insert fold (state.silence server) mask)
      apply taken.sendOne link line
      intro other same
      rw [change] at same
      cases same
      obtain ⟨above, child⟩ := network.tree.exists_up inner
      have queued : state.copies.queue server = .add mask :: rest.filterMap Line.change := by
        simp only [State.copies, waiting, List.filterMap_cons, change]
      refine ⟨?_, ?_⟩
      · simp only [State.setSilence, Function.update_self]
        exact Cascade.key_mem_insert fold _ mask
      · change mask ∈ next.copies.list network.home ∨ Cascade.Recalled fold network.uplink next.copies server mask
        refine sound.copies.next_meant child queued ?_ ?_ (Cascade.drops_of_next queued ?_ ?_)
        · simp only [next, State.copies, State.setSilence, Function.update_of_ne inner.symm]
        · simp only [next, State.copies, State.setSilence, Function.update_self]
        · simp only [next, State.copies, State.setSilence, Function.update_self]
        · intro other self
          simp only [next, State.copies, State.setSilence, Function.update_of_ne self]

/-- Every step keeps it. -/
theorem perform (sound : state.Sound network) (action : Action σ) : (state.perform network action).Sound network := by
  cases action with
  | silence parameter => exact sound.silence parameter
  | meet server name person => exact sound.congr rfl rfl
  | speak server name checks =>
    simp only [State.perform]
    split
    next => exact sound
    next sptr _ =>
      split
      next => exact sound.mMessage server name sptr checks
      next => exact sound
  | arriveUp server checks =>
    simp only [State.perform]
    split
    next above name rest _ _ =>
      have popped : ({ state with up := Function.update state.up server rest } : State σ).Sound network :=
        sound.congr rfl rfl
      split
      next => exact popped
      next sptr _ =>
        split
        next => exact popped.mMessage above name sptr checks
        next => exact popped
    next => exact sound
  | arriveDown server => exact sound.arriveDown server

omit [DecidableEq σ] in
theorem fresh (fresh : state.Fresh network) : state.Sound network := by
  refine ⟨.start fresh.1 network.tree.top fun server => ?_, (fresh.2 network.home).2⟩
  simp only [State.copies, (fresh.2 server).2, List.filterMap_nil]

theorem run (sound : state.Sound network) (run : (traffic network).Run Machine.Any state final) :
    final.Sound network :=
  run.invariant (State.Sound network) (fun _ action _ _ sound => sound.perform action) sound

end State.Sound

variable {network : Network σ} {start final : State σ}

/-- Once everything has come, what any server stores is on the list of the user's own. -/
theorem stored_masks_current (fresh : start.Fresh network) (run : (traffic network).Run Machine.Any start final)
    (delivered : final.Delivered) (server : σ) (mask : Text) (stored : mask ∈ final.silence server) :
    mask ∈ final.silence network.home := by
  have sound := (State.Sound.fresh fresh).run run
  refine sound.copies.quiet (fun other => ?_) stored
  simp only [State.copies, (delivered other).2, List.filterMap_nil]

private inductive Place where
  | hub | middle | leaf
  deriving DecidableEq

private def Place.uplink : Place → Option Place
  | .hub => none
  | .middle => some .hub
  | .leaf => some .middle

private def line : Network Place where
  home := .hub
  uplink := Place.uplink
  tree := by
    have middle : Cascade.Below Place.uplink .hub .middle := .single rfl
    refine ⟨rfl, fun server => ?_⟩
    cases server with
    | hub => exact .refl
    | middle => exact middle
    | leaf => exact middle.tail rfl

private def eve (link : Option Place) (name : Text) : Option (Person Place) :=
  if name = "eve".toList then some ⟨"eve".toList, "host".toList, link⟩ else none

private def blocking : Text := "eve!eve@host".toList

private def atStart : State Place where
  silence
    | .hub => [blocking, "bob!*@*".toList]
    | _ => []
  people
    | .hub => eve (some .middle)
    | .middle => eve (some .leaf)
    | .leaf => eve none
  up _ := []
  down _ := []

/-- A message of `eve` comes as far as the link of the user's server. -/
private def coming : List (Action Place) := [.speak .leaf "eve".toList .reaches, .arriveUp .leaf .reaches]

/-- The mask goes down to `eve`, and another one is taken back meanwhile. -/
private def returning : List (Action Place) :=
  [.arriveDown .middle, .silence (some "-bob!*@*".toList), .arriveDown .leaf, .arriveDown .middle]

private def atHub : State Place := coming.foldl (State.perform line) atStart

private def sent : State Place :=
  ({ atHub with up := Function.update atHub.up .middle [] } : State Place).sendOne line .hub .middle
    ⟨"eve".toList, blocking⟩

private theorem sent_eq : atHub.perform line (.arriveUp .middle .reaches) = sent := by
  have passed : atHub.perform line (.arriveUp .middle .reaches) =
      ({ atHub with up := Function.update atHub.up .middle [] } : State Place).mMessage line .hub "eve".toList
        ⟨"eve".toList, "host".toList, some .middle⟩ .reaches := rfl
  have hit : matchMask blocking blocking = true := matchMask_of_mycmp (mycmp_refl _) (by decide)
  have found : isSilenced (atHub.silence .hub) "eve".toList
      (⟨"eve".toList, "host".toList, some .middle⟩ : Person Place) = some blocking := by
    change [blocking, _].find? (fun mask => matchMask mask blocking) = _
    rw [List.find?_cons, hit]
  rw [passed]
  simp only [State.mMessage, found]
  rfl

theorem stored_masks_current_line :
    blocking ∈ ((coming ++ .arriveUp .middle .reaches :: returning).foldl (traffic line).perform atStart).silence .hub := by
  have final : (coming ++ .arriveUp .middle .reaches :: returning).foldl (traffic line).perform atStart =
      returning.foldl (State.perform line) sent := by
    rw [List.foldl_append, List.foldl_cons]
    exact congrArg (List.foldl (State.perform line) · returning) sent_eq
  have run : (traffic line).Run Machine.Any atStart
      ((coming ++ .arriveUp .middle .reaches :: returning).foldl (traffic line).perform atStart) :=
    Machine.Run.of_list _ (.refl atStart) (by repeat' constructor)
  refine stored_masks_current ⟨?_, fun _ => ⟨rfl, rfl⟩⟩ run ?_ .leaf _ ?_
  · intro server other
    cases server with
    | hub => exact absurd rfl other
    | middle => rfl
    | leaf => rfl
  · intro server
    rw [final]
    cases server <;> decide +kernel
  · rw [final]
    decide +kernel

end SolidIrcd.Silence
