import SolidIrcd.Kill.Table

/-! One user, as the two servers and the link between them see it. -/

namespace SolidIrcd.Kill

open Whowas (ClientId)

/-- What the server of a user sends of it. -/
inductive Item where
  | intro (nick : Name)
  | change (sender nick : Name)
  | quit (sender : Name)
  | kill (nick : Name)
  /-- The user kills another. -/
  | act (sender : Name)

/-- The name of a user where it is connected and on the other server, what is on its way from the first to the second,
and whether a KILL for it is on its way back. -/
structure View where
  own : Option Name
  other : Option Name
  sent : List Item
  killed : Bool

/-- The name that the user has in a line. -/
def Item.name : Item → Name
  | .intro nick => nick
  | .change sender _ => sender
  | .quit sender => sender
  | .kill nick => nick
  | .act sender => sender

/-- Lines that follow one on the other, from a name to the one the user has, or to its end. -/
def Leads : List Item → Name → Option Name → Prop
  | [], name, own => own = some name
  | .intro _ :: _, _, _ => False
  | .change sender nick :: rest, name, own => sender = name ∧ Leads rest nick own
  | .quit sender :: rest, name, own => sender = name ∧ rest = [] ∧ own = none
  | .kill nick :: rest, name, own => nick = name ∧ rest = [] ∧ own = none
  | .act sender :: rest, name, own => sender = name ∧ Leads rest name own

/-- The other server has the user, or is going to, and what is on its way leads to what the user is. -/
def View.Tracked (view : View) : Prop :=
  view.killed = false ∧
    ((view.other = none ∧ ∃ nick rest, view.sent = .intro nick :: rest ∧ Leads rest nick view.own) ∨
      ∃ nick, view.other = some nick ∧ Leads view.sent nick view.own)

/-- The other server has lost the user for good; where it is connected it is gone, or a KILL will come. -/
def View.Lost (view : View) : Prop :=
  view.other = none ∧ (∀ nick, .intro nick ∉ view.sent) ∧ (view.own = none ∨ view.killed = true)

def View.Good (view : View) : Prop := view.Tracked ∨ view.Lost

theorem Leads.append (leads : Leads sent name (some here)) (more : Leads items here own) :
    Leads (sent ++ items) name own := by
  induction sent generalizing name with
  | nil =>
    obtain rfl := Option.some.inj leads
    exact more
  | cons item rest ih =>
    cases item with
    | intro nick => exact leads.elim
    | change sender nick => exact ⟨leads.1, ih leads.2⟩
    | quit sender => cases leads.2.2
    | kill nick => cases leads.2.2
    | act sender => exact ⟨leads.1, ih leads.2⟩

theorem Leads.name_eq (leads : Leads (item :: rest) name own) : item.name = name := by
  cases item with
  | intro nick => exact leads.elim
  | _ => exact leads.1

theorem Leads.no_intro (leads : Leads sent name own) (nick : Name) : .intro nick ∉ sent := by
  induction sent generalizing name with
  | nil => exact List.not_mem_nil
  | cons item rest ih =>
    intro member
    cases item with
    | intro first => exact leads.elim
    | change first second =>
      rcases List.mem_cons.mp member with same | inside
      · cases same
      · exact ih leads.2 inside
    | quit first =>
      obtain ⟨_, rfl, _⟩ := leads
      cases List.mem_singleton.mp member
    | kill first =>
      obtain ⟨_, rfl, _⟩ := leads
      cases List.mem_singleton.mp member
    | act first =>
      rcases List.mem_cons.mp member with same | inside
      · cases same
      · exact ih leads.2 inside

namespace View.Good

variable {view : View}

/-- A user that is new on both servers. -/
theorem connect (nick : Name) : View.Good ⟨some nick, none, [.intro nick], false⟩ :=
  .inl ⟨rfl, .inl ⟨rfl, nick, [], rfl, rfl⟩⟩

/-- Lines that take the user from the name it has lead on. -/
theorem send (good : view.Good) (here : view.own = some name) (items : List Item) (more : Leads items name after) :
    View.Good { view with own := after, sent := view.sent ++ items } := by
  rcases good with ⟨calm, ⟨absent, nick, rest, sent, leads⟩ | ⟨nick, known, leads⟩⟩ | ⟨absent, intros, gone | killed⟩
  · exact .inl ⟨calm, .inl ⟨absent, nick, rest ++ items, by rw [sent, List.cons_append], (here ▸ leads).append more⟩⟩
  · exact .inl ⟨calm, .inr ⟨nick, known, (here ▸ leads).append more⟩⟩
  · rw [here] at gone
    cases gone
  · refine .inr ⟨absent, fun nick member => ?_, .inr killed⟩
    exact (List.mem_append.mp member).elim (intros nick) (more.no_intro nick)

/-- A KILL comes to where the user is connected. -/
theorem die (good : view.Good) (killed : view.killed = true) (items : List Item)
    (later : ∀ nick, .intro nick ∉ items) (again : Bool) :
    View.Good { view with own := none, sent := view.sent ++ items, killed := again } := by
  rcases good with ⟨calm, _⟩ | ⟨absent, intros, _⟩
  · rw [calm] at killed
    cases killed
  · refine .inr ⟨absent, fun nick member => ?_, .inl rfl⟩
    exact (List.mem_append.mp member).elim (intros nick) (later nick)

/-- A KILL for a user that is not there any more. -/
theorem miss (good : view.Good) (killed : view.killed = true) (gone : view.own = none) (again : Bool) :
    View.Good { view with killed := again } := by
  have dead := good.die killed [] (fun _ => List.not_mem_nil) again
  rw [List.append_nil] at dead
  rw [← gone] at dead
  exact dead

/-- The other server drops the user and says so. -/
theorem lose (good : view.Good) (known : view.other ≠ none) : View.Good { view with other := none, killed := true } := by
  rcases good with ⟨_, ⟨absent, _⟩ | ⟨nick, _, leads⟩⟩ | ⟨absent, _⟩
  · exact absurd absent known
  · exact .inr ⟨rfl, leads.no_intro, .inr rfl⟩
  · exact absurd absent known

/-- Another KILL for a user that the other server has lost. -/
theorem blame (good : view.Good) (absent : view.other = none) (intros : ∀ nick, .intro nick ∉ view.sent) :
    View.Good { view with killed := true } := by
  rcases good with ⟨_, ⟨_, nick, rest, sent, _⟩ | ⟨nick, known, _⟩⟩ | ⟨_, _, _⟩
  · exact absurd (sent ▸ .head _) (intros nick)
  · rw [absent] at known
    cases known
  · exact .inr ⟨absent, intros, .inr rfl⟩

/-- The introduction is read. -/
theorem introduced (good : view.Good) (sent : view.sent = .intro nick :: rest) :
    view.other = none ∧ View.Good { view with other := some nick, sent := rest } := by
  rcases good with ⟨calm, ⟨absent, first, others, same, leads⟩ | ⟨first, _, leads⟩⟩ | ⟨_, intros, _⟩
  · obtain ⟨item, rfl⟩ := List.cons.inj (sent.symm.trans same)
    obtain rfl := Item.intro.inj item
    exact ⟨absent, .inl ⟨calm, .inr ⟨nick, rfl, leads⟩⟩⟩
  · rw [sent] at leads
    exact leads.elim
  · exact absurd (sent ▸ .head _) (intros nick)

/-- What a line says is done where the user is known, and is forgotten where it is not. -/
theorem read (good : view.Good) (sent : view.sent = item :: rest) (later : ∀ nick, item ≠ .intro nick) :
    (∃ name, view.other = some name ∧ Leads (item :: rest) name view.own ∧ view.killed = false) ∨
      (view.other = none ∧ (∀ nick, .intro nick ∉ rest) ∧ View.Good { view with sent := rest }) := by
  rcases good with ⟨calm, ⟨_, nick, others, same, _⟩ | ⟨nick, known, leads⟩⟩ | ⟨absent, intros, gone⟩
  · exact absurd (List.cons.inj (sent.symm.trans same)).1 (later nick)
  · exact .inl ⟨nick, known, sent ▸ leads, calm⟩
  · have rest' (nick : Name) (member : Item.intro nick ∈ rest) : False := intros nick (sent ▸ .tail _ member)
    exact .inr ⟨absent, rest', .inr ⟨absent, rest', gone⟩⟩

/-- The user is gone, and nothing else of it is on its way. -/
theorem gone (killed : Bool) : View.Good ⟨none, none, [], killed⟩ :=
  .inr ⟨rfl, fun _ => List.not_mem_nil, .inl rfl⟩

/-- The other server knows the user by the name that what is left leads on from. -/
theorem follow {rest : List Item} {here : Option Name} (leads : Leads rest name here) :
    View.Good ⟨here, some name, rest, false⟩ :=
  .inl ⟨rfl, .inr ⟨name, rfl, leads⟩⟩

/-- With nothing on its way both servers say the same. -/
theorem quiet (good : view.Good) (sent : view.sent = []) (killed : view.killed = false) : view.own = view.other := by
  rcases good with ⟨_, ⟨_, nick, rest, same, _⟩ | ⟨nick, known, leads⟩⟩ | ⟨absent, _, gone | again⟩
  · rw [sent] at same
    cases same
  · rw [sent] at leads
    rw [known]
    exact leads
  · rw [gone, absent]
  · rw [killed] at again
    cases again

end View.Good

/-! The view in a world -/

/-- What a line says of a user to the other server. -/
def Line.item (subject : ClientId) : Line → Option Item
  | .nick user name _ _ _ => if user = subject then some (.intro name) else none
  | .change sender user name _ => if user = subject then some (.change sender name) else none
  | .quit sender user => if user = subject then some (.quit sender) else none
  | .kill sender name victim =>
    if victim = subject then some (.kill name)
    else (sender.filter (·.2 = subject)).map fun sender => .act sender.1

def Line.kills (subject : ClientId) : Line → Bool
  | .kill _ _ victim => victim = subject
  | _ => false

def Server.nameOf (server : Server) (user : ClientId) : Option Name :=
  (server.clients.find? (·.user = user)).map Client.name

variable (home : ClientId → Side)

def World.view (world : World) (user : ClientId) : View where
  own := (world.servers (home user)).nameOf user
  other := (world.servers (home user).other).nameOf user
  sent := (world.inbox (home user).other).filterMap (Line.item user)
  killed := (world.inbox (home user)).any (Line.kills user)

end SolidIrcd.Kill
