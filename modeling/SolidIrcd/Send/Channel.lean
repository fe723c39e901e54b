import Mathlib.Data.List.Induction
import Mathlib.Data.List.Nodup
import SolidIrcd.Lib.Machine
import SolidIrcd.Lib.Stamp

/-! `sendto_channel_butone`: whom a message to a channel is queued for. Links are told apart by
the serial number that the last message left in `sentalong`. -/

namespace SolidIrcd.Send.Channel

abbrev ClientId := Nat

/-- HIGHEST_SERIAL, which is INT_MAX. -/
def highestSerial : Nat := 2147483647

/-- A member; `link` is the connection it is reached by. -/
structure Member where
  client : ClientId
  link : ClientId
  myClient : Bool
  deaf : Bool
  uline : Bool
  deriving DecidableEq, Repr

/-- The members of a channel: each is there once, users of this server are reached by their own
connections, and no other member is reached by the connection of a user. -/
structure Members where
  list : List Member
  once : (list.map Member.client).Nodup
  own : ∀ member ∈ list, member.myClient = true → member.link = member.client
  links : ∀ member ∈ list, member.myClient = false → ∀ other ∈ list, other.myClient = true →
    member.link ≠ other.client

/-- The two texts: the sender with user and host for users, the name alone for servers. -/
inductive Buffer where
  | sendbuf | remotebuf
  deriving DecidableEq, Repr

/-- A call. The callers pass the connection that the sender is reached by as `one`. `room` says
of a connection that it is not dead and has room in its queue when its turn comes. -/
structure Call where
  members : Members
  one : ClientId
  myClient : Bool
  servhub : Bool
  fd : ClientId → Nat
  room : ClientId → Bool
  distinct : Function.Injective fd

abbrev Sent := List (ClientId × Buffer)

/-- `send_message`, to the connection. -/
def Call.sendMessage (call : Call) (sent : Sent) (link : ClientId) (buffer : Buffer) : Sent :=
  if call.room link then sent ++ [(link, buffer)] else sent

/-- `check_fake_direction`, of a sender that is reached by `one`. -/
def Call.checkFakeDirection (call : Call) (member : Member) : Bool :=
  !call.myClient && member.link == call.one

/-- One turn of the loop of `sendto_channel_butone`. -/
def Call.turn (call : Call) (state : Stamps Nat × Sent) (member : Member) : Stamps Nat × Sent :=
  if member.link = call.one then state
  else if member.deaf then state
  else if call.servhub && member.uline then state
  else if member.myClient then
    if call.checkFakeDirection member then state
    else (state.1.mark (call.fd member.link), call.sendMessage state.2 member.link .sendbuf)
  else if call.checkFakeDirection member then state
  else if state.1.marked (call.fd member.link) then state
  else (state.1.mark (call.fd member.link), call.sendMessage state.2 member.link .remotebuf)

/-- `sendto_channel_butone`. -/
def Call.sendtoChannelButone (call : Call) (stamps : Stamps Nat) : Stamps Nat × Sent :=
  call.members.list.foldl call.turn (stamps.next highestSerial, [])

/-- What happens to `sentalong`: a call, or another function that counts on and marks some
descriptors. -/
inductive Action where
  | channel (call : Call)
  | other (fds : List Nat)

def perform (stamps : Stamps Nat) : Action → Stamps Nat
  | .channel call => (call.sendtoChannelButone stamps).1
  | .other fds => fds.foldl Stamps.mark (stamps.next highestSerial)

def machine : Machine (Stamps Nat) Action := ⟨perform, Machine.Any⟩

/-- The member is to get the message. -/
def Call.eligible (call : Call) (member : Member) : Bool :=
  decide (member.link ≠ call.one) && !member.deaf && !(call.servhub && member.uline)

/-- What was queued for a connection. -/
def queued (sent : Sent) (link : ClientId) : List Buffer :=
  (sent.filter fun copy => copy.1 == link).map Prod.snd

/-- An eligible member is a user of this server with this connection. -/
def Call.Reaches (call : Call) (members : List Member) (link : ClientId) : Prop :=
  ∃ member ∈ members, call.eligible member = true ∧ member.myClient = true ∧ member.client = link

/-- The link leads to an eligible member. -/
def Call.Leads (call : Call) (members : List Member) (link : ClientId) : Prop :=
  ∃ member ∈ members, call.eligible member = true ∧ member.myClient = false ∧ member.link = link

instance (call : Call) (members : List Member) (link : ClientId) : Decidable (call.Reaches members link) :=
  inferInstanceAs (Decidable (∃ member ∈ members,
    call.eligible member = true ∧ member.myClient = true ∧ member.client = link))

instance (call : Call) (members : List Member) (link : ClientId) : Decidable (call.Leads members link) :=
  inferInstanceAs (Decidable (∃ member ∈ members,
    call.eligible member = true ∧ member.myClient = false ∧ member.link = link))

/-- What should be: users get the text for users, links the text for links. -/
def Call.due (call : Call) (members : List Member) (link : ClientId) : List Buffer :=
  if call.room link = false then []
  else if call.Reaches members link then [.sendbuf]
  else if call.Leads members link then [.remotebuf]
  else []

variable {call : Call} {stamps : Stamps Nat} {sent : Sent}

theorem turn_skipped (skipped : call.eligible member = false) : call.turn (stamps, sent) member = (stamps, sent) := by
  unfold Call.turn
  unfold Call.eligible at skipped
  by_cases one : member.link = call.one
  · rw [if_pos one]
  · by_cases deaf : member.deaf = true
    · rw [if_neg one, if_pos deaf]
    · have hub : (call.servhub && member.uline) = true := by simpa [one, deaf] using skipped
      rw [if_neg one, if_neg deaf, if_pos hub]

theorem turn_eligible (eligible : call.eligible member = true) : call.turn (stamps, sent) member =
    if member.myClient then (stamps.mark (call.fd member.link), call.sendMessage sent member.link .sendbuf)
    else if stamps.marked (call.fd member.link) then (stamps, sent)
    else (stamps.mark (call.fd member.link), call.sendMessage sent member.link .remotebuf) := by
  simp only [Call.eligible, Bool.and_eq_true, decide_eq_true_eq, Bool.not_eq_true'] at eligible
  obtain ⟨⟨one, deaf⟩, hub⟩ := eligible
  have direction : call.checkFakeDirection member = false := by simp [Call.checkFakeDirection, one]
  simp [Call.turn, one, deaf, hub, direction]

@[simp] theorem queued_sendMessage : queued (call.sendMessage sent link buffer) other =
    queued sent other ++ if link = other ∧ call.room link then [buffer] else [] := by
  unfold Call.sendMessage queued
  by_cases room : call.room link = true
  · by_cases same : link = other
    · subst same
      simp [room]
    · simp [room, same]
  · simp [room]

theorem sound_turn (sound : stamps.Sound highestSerial) : (call.turn (stamps, sent) member).1.Sound highestSerial := by
  cases eligible : call.eligible member with
  | false =>
    rw [turn_skipped eligible]
    exact sound
  | true =>
    rw [turn_eligible eligible]
    split
    · exact sound.mark _
    · split
      · exact sound
      · exact sound.mark _

theorem reaches_append : call.Reaches (members ++ [member]) link ↔ call.Reaches members link ∨
    call.eligible member = true ∧ member.myClient = true ∧ member.client = link := by
  simp [Call.Reaches, or_and_right, exists_or]

theorem leads_append : call.Leads (members ++ [member]) link ↔ call.Leads members link ∨
    call.eligible member = true ∧ member.myClient = false ∧ member.link = link := by
  simp [Call.Leads, or_and_right, exists_or]

/-- After some of the members: each connection got what is due, and is marked if it got it. -/
structure Served (call : Call) (members : List Member) (state : Stamps Nat × Sent) : Prop where
  queued : ∀ link, queued state.2 link = call.due members link
  marked : ∀ link, state.1.marked (call.fd link) = true ↔ call.Reaches members link ∨ call.Leads members link

theorem due_congr (reaches : call.Reaches members link ↔ call.Reaches members' link)
    (leads : call.Leads members link ↔ call.Leads members' link) : call.due members link = call.due members' link := by
  simp [Call.due, reaches, leads]

section Turn

variable (served : Served call members (stamps, sent))

include served

theorem Served.skip (skipped : call.eligible member = false) :
    Served call (members ++ [member]) (call.turn (stamps, sent) member) := by
  have reaches (link : ClientId) : call.Reaches (members ++ [member]) link ↔ call.Reaches members link := by
    simp [reaches_append, skipped]
  have leads (link : ClientId) : call.Leads (members ++ [member]) link ↔ call.Leads members link := by
    simp [leads_append, skipped]
  rw [turn_skipped skipped]
  refine ⟨fun link => ?_, fun link => ?_⟩
  · rw [due_congr (reaches link) (leads link)]
    exact served.queued link
  · rw [reaches, leads]
    exact served.marked link

/-- A user gets the text when the turn comes. -/
theorem Served.user (eligible : call.eligible member = true) (mine : member.myClient = true)
    (own : member.link = member.client) (new : ¬ call.Reaches members member.client)
    (foreign : ¬ call.Leads members member.client) :
    Served call (members ++ [member]) (call.turn (stamps, sent) member) := by
  have leads (link : ClientId) : call.Leads (members ++ [member]) link ↔ call.Leads members link := by
    simp [leads_append, mine]
  have reaches (link : ClientId) :
      call.Reaches (members ++ [member]) link ↔ call.Reaches members link ∨ member.client = link := by
    simp [reaches_append, eligible, mine]
  rw [turn_eligible eligible, if_pos mine, own]
  refine ⟨fun link => ?_, fun link => ?_⟩
  · rw [queued_sendMessage, served.queued link]
    by_cases same : member.client = link
    · subst same
      cases room : call.room member.client with
      | true => simp [Call.due, room, new, foreign, reaches]
      | false => simp [Call.due, room]
    · simp [same, Call.due, reaches, leads]
  · have marked := served.marked link
    simp only [Stamps.marked_mark, Bool.or_eq_true, decide_eq_true_eq, call.distinct.eq_iff, reaches, leads, marked]
    tauto

/-- A link gets the text with the first member behind it. -/
theorem Served.remote (eligible : call.eligible member = true) (remote : member.myClient = false)
    (foreign : ¬ call.Reaches members member.link) :
    Served call (members ++ [member]) (call.turn (stamps, sent) member) := by
  have reaches (link : ClientId) : call.Reaches (members ++ [member]) link ↔ call.Reaches members link := by
    simp [reaches_append, remote]
  have leads (link : ClientId) :
      call.Leads (members ++ [member]) link ↔ call.Leads members link ∨ member.link = link := by
    simp [leads_append, eligible, remote]
  have marked := served.marked member.link
  rw [turn_eligible eligible, if_neg (by simp [remote])]
  split
  next again =>
    have before : call.Leads members member.link := (marked.mp again).resolve_left foreign
    have leads' (link : ClientId) : call.Leads (members ++ [member]) link ↔ call.Leads members link := by
      rw [leads]
      exact or_iff_left_of_imp fun same => same ▸ before
    refine ⟨fun link => ?_, fun link => ?_⟩
    · rw [due_congr (reaches link) (leads' link)]
      exact served.queued link
    · rw [reaches, leads']
      exact served.marked link
  next first =>
    have new : ¬ call.Leads members member.link := fun before => first (marked.mpr (.inr before))
    refine ⟨fun link => ?_, fun link => ?_⟩
    · rw [queued_sendMessage, served.queued link]
      by_cases same : member.link = link
      · subst same
        cases room : call.room member.link with
        | true => simp [Call.due, room, new, foreign, reaches, leads]
        | false => simp [Call.due, room]
      · simp [same, Call.due, reaches, leads]
    · have marked := served.marked link
      simp only [Stamps.marked_mark, Bool.or_eq_true, decide_eq_true_eq, call.distinct.eq_iff, reaches, leads, marked]
      tauto

end Turn

/-- The loop, over the members so far. -/
theorem served_loop (call : Call) (members : List Member) (once : (members.map Member.client).Nodup)
    (own : ∀ member ∈ members, member.myClient = true → member.link = member.client)
    (links : ∀ member ∈ members, member.myClient = false → ∀ other ∈ members, other.myClient = true →
      member.link ≠ other.client)
    (fresh : ∀ fd, stamps.marked fd = false) : Served call members (members.foldl call.turn (stamps, [])) := by
  induction members using List.reverseRecOn with
  | nil =>
    refine ⟨fun link => ?_, fun link => ?_⟩
    · simp [queued, Call.due, Call.Reaches, Call.Leads]
    · simp [fresh, Call.Reaches, Call.Leads]
  | append_singleton members member ih =>
    rw [List.map_append, List.map_singleton, List.nodup_append] at once
    have served := ih once.1 (fun other inside => own other (List.mem_append_left _ inside))
      fun first inside remote second inside' => links first (List.mem_append_left _ inside) remote second
        (List.mem_append_left _ inside')
    rw [List.foldl_append, List.foldl_cons, List.foldl_nil]
    have last : member ∈ members ++ [member] := by simp
    cases eligible : call.eligible member with
    | false => exact served.skip eligible
    | true =>
      cases mine : member.myClient with
      | true =>
        refine served.user eligible mine (own member last mine) ?_ ?_
        · rintro ⟨other, inside, -, -, same⟩
          exact once.2.2 other.client (List.mem_map_of_mem inside) member.client (by simp) same
        · rintro ⟨other, inside, -, remote, same⟩
          exact links other (List.mem_append_left _ inside) remote member last mine same
      | false =>
        refine served.remote eligible mine ?_
        rintro ⟨other, inside, -, user, same⟩
        exact links member last mine other (List.mem_append_left _ inside) user same.symm

theorem sound_loop (call : Call) (members : List Member) (sound : stamps.Sound highestSerial) :
    (members.foldl call.turn (stamps, sent)).1.Sound highestSerial := by
  induction members generalizing stamps sent with
  | nil => exact sound
  | cons member members ih => exact ih (sound_turn sound)

theorem sound_marks (sound : stamps.Sound highestSerial) (fds : List Nat) :
    (fds.foldl Stamps.mark stamps).Sound highestSerial := by
  induction fds generalizing stamps with
  | nil => exact sound
  | cons fd fds ih => exact ih (sound.mark fd)

theorem sound_perform (sound : stamps.Sound highestSerial) (action : Action) :
    (perform stamps action).Sound highestSerial := by
  have next := sound.next (by decide : 0 < highestSerial)
  cases action with
  | channel call => exact sound_loop call _ next
  | other fds => exact sound_marks next fds

/-- After any calls, a call queues its message once for each eligible user of this server, once
for each link that leads to an eligible member, and for nobody else. -/
theorem channel_once (run : machine.Run Machine.Any .start stamps) (call : Call) (link : ClientId) :
    queued (call.sendtoChannelButone stamps).2 link = call.due call.members.list link := by
  have sound : stamps.Sound highestSerial :=
    run.invariant (fun stamps => stamps.Sound highestSerial) (fun _ action _ _ sound => sound_perform sound action)
      Stamps.sound_start
  have served := served_loop call call.members.list call.members.once call.members.own call.members.links
    sound.unmarked_next
  exact served.queued link

/-- `#c` with a local user and two users behind one link. -/
def smallCall : Call where
  members :=
    { list := [⟨4, 4, true, false, false⟩, ⟨11, 7, false, false, false⟩, ⟨12, 7, false, false, false⟩]
      once := by decide
      own := by decide
      links := by decide }
  one := 3
  myClient := true
  servhub := false
  fd := id
  room := fun _ => true
  distinct := Function.injective_id

theorem smallCall_once : queued (smallCall.sendtoChannelButone .start).2 7 = [.remotebuf] ∧
    smallCall.due smallCall.members.list 7 = [.remotebuf] := by
  have once := channel_once (.refl _) smallCall 7
  have due : smallCall.due smallCall.members.list 7 = [.remotebuf] := by decide
  exact ⟨once.trans due, due⟩

end SolidIrcd.Send.Channel
