import SolidIrcd.Kill.Agree

/-! A line is read. What it says is done; where its sender is not known a KILL goes back. -/

namespace SolidIrcd.Kill

open Scan (Text)
open Whowas (ClientId)

variable {home : ClientId → Side} {world : World} {side : Side} {line : Line} {rest : List Line} {item : Item}
variable {server next : Server} {result : Server × List Line} {cptr : Client}

/-! What a line finds -/

namespace Server

/-- The prefix of a line finds the user who sent it, or one whose lines do not come from the link. -/
def Sends (server : Server) (sender : Name) (user : ClientId) : Prop :=
  ∀ cptr, server.findClient sender = some cptr → cptr.user = user ∨ cptr.myConnect = true

/-- Nobody else has the nickname. -/
def Free (server : Server) (nick : Name) (user : ClientId) : Prop :=
  ∀ cptr, server.findClient nick = some cptr → cptr.user = user

/-- Whether a KILL with this prefix is carried out. -/
def obeys (server : Server) : Option (Name × ClientId) → Bool
  | none => true
  | some (sender, _) => (server.findClient sender).any (!·.myConnect)

/-- Whom a KILL for a nickname is for. -/
def target (server : Server) (nick : Name) : Option Client := (server.findClient nick).or (server.getHistory nick)

/-- Every nickname in a line that has an effect finds whom the other server meant. -/
def Understands (server : Server) : Line → Prop
  | .nick user nick _ _ _ => server.Free nick user
  | .change sender user nick _ => server.Sends sender user ∧ (server.nameOf user ≠ none → server.Free nick user)
  | .quit sender user => server.Sends sender user
  | .kill sender nick victim =>
    (server.nameOf victim ≠ none → server.obeys sender = true ∧ (server.target nick).map Client.user = some victim) ∧
      (server.obeys sender = true → server.Free nick victim)

end Server

/-! What is left when the line has been taken -/

theorem Sane.proper_head (sane : Sane home world) (inbox : world.inbox side = line :: rest) : line.Proper home side :=
  sane.proper side line (inbox ▸ .head _)

/-- A line that says nothing of a user. -/
theorem Sane.popped (sane : Sane home world) (inbox : world.inbox side = line :: rest)
    (silent : Line.item user line = none) (kills : Line.kills user line = false) :
    ((world.popped side rest).view home user).Good := by
  have good := sane.good user
  rcases Side.eq_or_other (home user) side with here | there
  · have same : rest.any (Line.kills user) = (world.view home user).killed := by
      simp [World.view, here, inbox, kills]
    rw [popped_home here, same]
    exact good
  · have same : rest.filterMap (Line.item user) = (world.view home user).sent := by
      simp [World.view, there, inbox, silent]
    rw [popped_other there, same]
    exact good

theorem sent_eq (inbox : world.inbox side = line :: rest) (there : home user = side.other)
    (is : Line.item user line = some item) :
    (world.view home user).sent = item :: rest.filterMap (Line.item user) := by
  simp [World.view, there, inbox, is]

theorem other_absent (there : home user = side.other) :
    (world.view home user).other = none ↔ ∀ cptr ∈ (world.servers side).clients, cptr.user ≠ user := by
  rw [World.view, there, Side.other_other]
  exact nameOf_none

/-- The user of a line is there by the name in the line, or it is lost for good. -/
theorem Sane.known_or_lost (sane : Sane home world) (inbox : world.inbox side = line :: rest)
    (there : home user = side.other) (is : Line.item user line = some item) (later : ∀ nick, item ≠ .intro nick) :
    (∃ sptr, (world.servers side).findClient item.name = some sptr ∧ sptr.user = user ∧ sptr.myConnect = false ∧
        (world.view home user).other = some item.name ∧
          Leads (item :: rest.filterMap (Line.item user)) item.name (world.view home user).own ∧
            (world.view home user).killed = false) ∨
      ((∀ cptr ∈ (world.servers side).clients, cptr.user ≠ user) ∧
        (∀ nick, .intro nick ∉ rest.filterMap (Line.item user)) ∧ ((world.popped side rest).view home user).Good) := by
  rcases (sane.good user).read (sent_eq inbox there is) later with ⟨name, known, leads, calm⟩ | ⟨absent, intros, good⟩
  · left
    obtain ⟨sptr, member, rfl, rfl⟩ : ∃ sptr ∈ (world.servers side).clients, sptr.user = user ∧ sptr.name = name := by
      have is := known
      rw [World.view, there, Side.other_other] at is
      exact exists_of_nameOf is
    refine ⟨sptr, leads.name_eq ▸ (sane.sound side).found member, rfl, ?_, leads.name_eq ▸ known,
      leads.name_eq ▸ leads, calm⟩
    rw [Bool.eq_false_iff]
    intro own
    exact Side.other_ne side (there.symm.trans (((sane.sound side).homes sptr member).mp own))
  · right
    refine ⟨(other_absent there).mp absent, intros, ?_⟩
    rw [popped_other there]
    exact good

/-- The line is left out. -/
theorem Sane.ignored (sane : Sane home world) (inbox : world.inbox side = line :: rest)
    (good : ∀ user, ((world.popped side rest).view home user).Good) :
    Sane home (world.step side rest (world.servers side, [])) := by
  apply sane.step (fun _ member => inbox ▸ .tail _ member) (sane.sound side)
  · exact fun _ sent => absurd sent List.not_mem_nil
  · exact fun user => good_untouched (good user) rfl rfl rfl

/-- The sender is not known, and is killed. -/
theorem Sane.unknown (sane : Sane home world) (inbox : world.inbox side = line :: rest) (there : home user = side.other)
    (sender : Name) (absent : ∀ cptr ∈ (world.servers side).clients, cptr.user ≠ user)
    (intros : ∀ nick, .intro nick ∉ rest.filterMap (Line.item user))
    (good : ∀ other, ((world.popped side rest).view home other).Good) :
    Sane home (world.step side rest (world.servers side, [.kill none sender user])) := by
  apply sane.step (fun _ member => inbox ▸ .tail _ member) (sane.sound side)
  · intro line' sent
    rw [List.mem_singleton.mp sent]
    intro _ _ same
    cases same
  · intro other
    by_cases same : other = user
    · subst same
      have lost := (other_absent there).mpr absent
      have blamed := (good other).blame (by rw [popped_other there]; exact lost) (by rw [popped_other there]; exact intros)
      rw [popped_other there] at blamed
      rw [World.step, view_other there, popped_other there]
      have name : (world.servers side).nameOf other = (world.view home other).other := by
        rw [World.view, there, Side.other_other]
      rw [name]
      simpa [Line.kills] using blamed
    · apply good_untouched (good other) rfl
      · simp [Line.item, Ne.symm same]
      · simp [Line.kills, Ne.symm same]

/-- A line of a user that the server has lost is left out, or has its sender killed. -/
theorem Sane.fromLost (sane : Sane home world) (inbox : world.inbox side = line :: rest) (there : home user = side.other)
    (act : Client → Server × List Line) (strange :
      ∀ cptr, (world.servers side).findClient sender = some cptr → cptr.myConnect = true)
    (absent : ∀ cptr ∈ (world.servers side).clients, cptr.user ≠ user)
    (intros : ∀ nick, .intro nick ∉ rest.filterMap (Line.item user))
    (good : ∀ other, ((world.popped side rest).view home other).Good) :
    Sane home (world.step side rest ((world.servers side).fromUser sender user act)) := by
  unfold Server.fromUser
  split
  · exact sane.unknown inbox there sender absent intros good
  · rename_i sptr found
    rw [if_pos (strange sptr found)]
    exact sane.ignored inbox good

theorem Server.Sends.strange (sends : server.Sends sender user) (absent : ∀ cptr ∈ server.clients, cptr.user ≠ user)
    (found : server.findClient sender = some cptr) : cptr.myConnect = true :=
  (sends cptr found).resolve_left (absent cptr (findClient_some found).1)

theorem fromUser_known (act : Client → Server × List Line) (found : server.findClient sender = some sptr)
    (remote : sptr.myConnect = false) : server.fromUser sender user act = act sptr := by
  rw [Server.fromUser, found]
  exact if_neg (by rw [remote]; exact Bool.false_ne_true)

/-- What a line says of the one user it is about has been done. -/
theorem good_read (there : home user = side.other)
    (popped : ∀ other, other ≠ user → ((world.popped side rest).view home other).Good)
    (names : ∀ other, other ≠ user → next.nameOf other = (world.servers side).nameOf other)
    (good : View.Good ⟨(world.view home user).own, next.nameOf user, rest.filterMap (Line.item user),
      (world.view home user).killed⟩) (other : ClientId) :
    ((world.step side rest (next, [])).view home other).Good := by
  by_cases same : other = user
  · subst same
    rw [World.step, view_other there, popped_other there]
    simpa using good
  · exact good_untouched (popped other same) (names other same) rfl rfl

/-! NICK -/

theorem Sane.readNick (sane : Sane home world) (inbox : world.inbox side = .nick user nick newts username host :: rest)
    (free : (world.servers side).Free nick user) :
    Sane home (world.step side rest ((world.servers side).mNick user nick newts username host)) := by
  have there : home user = side.other := sane.proper_head inbox
  have is : Line.item user (.nick user nick newts username host) = some (.intro nick) := if_pos rfl
  obtain ⟨absent, good⟩ := (sane.good user).introduced (sent_eq inbox there is)
  rw [other_absent there] at absent
  have nobody : (world.servers side).findClient nick = none := by
    by_contra some
    obtain ⟨cptr, found⟩ := Option.ne_none_iff_exists'.mp some
    exact absent cptr (findClient_some found).1 (free cptr found)
  rw [Server.mNick, nobody]
  apply sane.step (fun _ member => inbox ▸ .tail _ member)
  · refine (sane.sound side).add absent nobody ⟨fun own => absurd own Bool.false_ne_true, fun same => ?_⟩
    exact absurd (there.symm.trans same) (Side.other_ne side)
  · exact fun _ sent => absurd sent List.not_mem_nil
  · apply good_read there
    · exact fun other differ => sane.popped inbox (if_neg (Ne.symm differ)) rfl
    · exact fun other differ => by rw [nameOf_introduce, if_neg differ]
    · rw [nameOf_introduce, if_pos rfl]
      exact good

/-- A change to a nickname that nobody else has. -/
theorem mNickChange_alone (newts : Int) (alone : ∀ acptr, server.findClient nick = some acptr → acptr = sptr) :
    (server.mNickChange sptr nick newts = (server, []) ∧ sptr.name = nick) ∨
      ∃ tsinfo, server.mNickChange sptr nick newts = (server.rename sptr nick tsinfo, []) := by
  unfold Server.mNickChange
  split
  · exact .inr ⟨_, rfl⟩
  · rename_i acptr found
    obtain rfl := alone acptr found
    rw [if_pos rfl]
    split
    · rename_i same
      exact .inl ⟨rfl, same⟩
    · exact .inr ⟨_, rfl⟩

theorem Sane.readChange (sane : Sane home world) (inbox : world.inbox side = .change sender user nick newts :: rest)
    (understood : (world.servers side).Understands (.change sender user nick newts)) :
    Sane home (world.step side rest ((world.servers side).receive (.change sender user nick newts))) := by
  have there : home user = side.other := sane.proper_head inbox
  have sound := sane.sound side
  have popped (other : ClientId) (differ : other ≠ user) : ((world.popped side rest).view home other).Good :=
    sane.popped inbox (if_neg (Ne.symm differ)) rfl
  rcases sane.known_or_lost inbox there (if_pos rfl) (fun _ same => by cases same) with
    ⟨sptr, found, rfl, remote, _, leads, calm⟩ | ⟨absent, intros, good⟩
  · have member := (findClient_some found).1
    have free := understood.2 (by rw [nameOf_some sound.unique member]; exact Option.some_ne_none _)
    have alone (acptr : Client) (taken : (world.servers side).findClient nick = some acptr) : acptr = sptr :=
      sound.unique.eq (findClient_some taken).1 member (free acptr taken)
    have follows := View.Good.follow leads.2
    change (world.servers side).findClient sender = some sptr at found
    rw [Server.receive, fromUser_known _ found remote]
    rcases mNickChange_alone newts alone with ⟨same, named⟩ | ⟨tsinfo, same⟩
    · rw [same]
      apply sane.step (fun _ member => inbox ▸ .tail _ member) sound
      · exact fun _ sent => absurd sent List.not_mem_nil
      · apply good_read there popped (fun _ _ => rfl)
        rw [nameOf_some sound.unique member, named, calm]
        exact follows
    · rw [same]
      apply sane.step (fun _ member => inbox ▸ .tail _ member) (sound.rename tsinfo free)
      · exact fun _ sent => absurd sent List.not_mem_nil
      · apply good_read there popped
        · exact fun other differ => by rw [nameOf_rename, if_neg differ]
        · rw [nameOf_rename, if_pos rfl, nameOf_some sound.unique member, calm]
          exact follows
  · refine sane.fromLost inbox there _ (fun _ => understood.1.strange absent) absent intros fun other => ?_
    by_cases same : other = user
    · exact same ▸ good
    · exact popped other same

/-! QUIT -/

theorem Sane.readQuit (sane : Sane home world) (inbox : world.inbox side = .quit sender user :: rest)
    (sends : (world.servers side).Sends sender user) :
    Sane home (world.step side rest ((world.servers side).receive (.quit sender user))) := by
  have there : home user = side.other := sane.proper_head inbox
  have popped (other : ClientId) (differ : other ≠ user) : ((world.popped side rest).view home other).Good :=
    sane.popped inbox (if_neg (Ne.symm differ)) rfl
  rcases sane.known_or_lost inbox there (if_pos rfl) (fun _ same => by cases same) with
    ⟨sptr, found, rfl, remote, _, leads, calm⟩ | ⟨absent, intros, good⟩
  · change (world.servers side).findClient sender = some sptr at found
    rw [Server.receive, fromUser_known _ found remote]
    apply sane.step (fun _ member => inbox ▸ .tail _ member) ((sane.sound side).exit sptr)
    · exact fun _ sent => absurd sent List.not_mem_nil
    · obtain ⟨_, last, gone⟩ := leads
      apply good_read there popped
      · exact fun other differ => by rw [nameOf_exitClient, if_neg differ]
      · have own : (world.view home sptr.user).own = none := gone
        rw [nameOf_exitClient, if_pos rfl, last, own]
        exact .gone _
  · refine sane.fromLost inbox there _ (fun _ => sends.strange absent) absent intros fun other => ?_
    by_cases same : other = user
    · exact same ▸ good
    · exact popped other same

/-! KILL -/

variable {sender : Option (Name × ClientId)} {victim : ClientId}

/-- The KILL has been taken from the inbox. Its victim is not there, or is not the user in question. -/
theorem Sane.popped_kill (sane : Sane home world) (inbox : world.inbox side = .kill sender nick victim :: rest)
    (absent : other = victim → ∀ cptr ∈ (world.servers side).clients, cptr.user ≠ victim) :
    ((world.popped side rest).view home other).Good := by
  by_cases killed : other = victim
  · subst killed
    rcases Side.eq_or_other (home other) side with here | there
    · have gone : (world.view home other).own = none := by
        rw [World.view, here]
        exact nameOf_none.mpr (absent rfl)
      rw [popped_home here]
      apply (sane.good other).miss _ gone
      simp [World.view, here, inbox, Line.kills]
    · rcases sane.known_or_lost inbox there (if_pos rfl) (fun _ same => by cases same) with
        ⟨sptr, found, same, _⟩ | ⟨_, _, good⟩
      · exact absurd same (absent rfl sptr (findClient_some found).1)
      · exact good
  · cases is : Line.item other (.kill sender nick victim) with
    | none => exact sane.popped inbox is (decide_eq_false (Ne.symm killed))
    | some item =>
      have sent := is
      rw [Line.item, if_neg (Ne.symm killed)] at sent
      obtain ⟨who, found, rfl⟩ := Option.map_eq_some_iff.mp sent
      obtain ⟨known, same⟩ := Option.filter_eq_some_iff.mp found
      obtain rfl := of_decide_eq_true same
      have there : home who.2 = side.other := (sane.proper_head inbox who.1 who.2 known).1
      rcases sane.known_or_lost inbox there is (fun _ same => by cases same) with
        ⟨sptr, _, _, _, name, leads, calm⟩ | ⟨_, _, good⟩
      · rw [popped_other there, name, calm]
        exact View.Good.follow leads.2
      · exact good

/-- A victim that is there under another nickname is connected there. -/
theorem Sane.hidden (sane : Sane home world) (inbox : world.inbox side = .kill sender nick victim :: rest)
    (none : (world.servers side).findClient nick = none) (member : cptr ∈ (world.servers side).clients)
    (is : cptr.user = victim) : home victim = side := by
  refine (Side.eq_or_other _ side).resolve_right fun there => ?_
  rcases sane.known_or_lost inbox there (if_pos rfl) (fun _ same => by cases same) with ⟨sptr, found, _⟩ | ⟨absent, _⟩
  · rw [Item.name, none] at found
    cases found
  · exact absent cptr member is

/-- The victim is found by the nickname. -/
theorem Sane.killed (sane : Sane home world) (inbox : world.inbox side = .kill sender nick acptr.user :: rest)
    (found : (world.servers side).findClient nick = some acptr) :
    Sane home (world.step side rest ((world.servers side).exitClient acptr, [])) := by
  have member := (findClient_some found).1
  apply sane.step (fun _ member => inbox ▸ .tail _ member) ((sane.sound side).exit acptr)
  · exact fun _ sent => absurd sent List.not_mem_nil
  · intro other
    by_cases same : other = acptr.user
    · subst same
      rcases Side.eq_or_other (home acptr.user) side with here | there
      · rw [World.step, view_home here, nameOf_exitClient, if_pos rfl, popped_home here]
        apply (sane.good acptr.user).die _ [] (fun _ => List.not_mem_nil)
        simp [World.view, here, inbox, Line.kills]
      · rcases sane.known_or_lost inbox there (if_pos rfl) (fun _ same => by cases same) with
          ⟨_, _, _, _, _, leads, _⟩ | ⟨absent, _⟩
        · obtain ⟨_, last, gone⟩ := leads
          have own : (world.view home acptr.user).own = none := gone
          rw [World.step, view_other there, nameOf_exitClient, if_pos rfl, popped_other there, own, last]
          exact .gone _
        · exact absurd rfl (absent acptr member)
    · apply good_untouched (sane.popped_kill inbox fun is => absurd is same)
      · rw [nameOf_exitClient, if_neg same]
        rfl
      · rfl
      · rfl

/-- The KILL goes after the last holder of the nickname, and back. -/
theorem Sane.chases (sane : Sane home world) (inbox : world.inbox side = .kill sender nick victim :: rest)
    (none : (world.servers side).findClient nick = none) (member : acptr ∈ (world.servers side).clients)
    (chased : ∀ cptr ∈ (world.servers side).clients, cptr.user = victim → acptr.user = victim) :
    Sane home (world.step side rest ((world.servers side).exitClient acptr, [.kill .none acptr.name acptr.user])) := by
  apply sane.step (fun _ member => inbox ▸ .tail _ member) ((sane.sound side).exit acptr)
  · intro line' sent
    rw [List.mem_singleton.mp sent]
    intro _ _ same
    cases same
  · intro user
    by_cases same : user = acptr.user
    · subst same
      by_cases victim' : acptr.user = victim
      · have here := sane.hidden inbox none member victim'
        subst victim'
        rw [World.step, view_home here, nameOf_exitClient, if_pos rfl, popped_home here]
        apply (sane.good acptr.user).die
        · simp [World.view, here, inbox, Line.kills]
        · simp [Line.item]
      · have good : ((world.popped side rest).view home acptr.user).Good :=
          sane.popped_kill inbox fun is => absurd is victim'
        rcases Side.eq_or_other (home acptr.user) side with here | there
        · exact good_leaves good (sane.sound side).unique member here (.inr (if_pos rfl))
        · exact good_dropped good (sane.sound side).unique member there (decide_eq_true rfl)
    · apply good_untouched
      · exact sane.popped_kill inbox fun is cptr inside victim' => same (is.trans (chased cptr inside victim').symm)
      · rw [nameOf_exitClient, if_neg same]
        rfl
      · simp [Line.item, Ne.symm same]
      · simp [Line.kills, Ne.symm same]

theorem Sane.mKill (sane : Sane home world) (inbox : world.inbox side = .kill sender nick victim :: rest)
    (hit : (world.servers side).nameOf victim ≠ none → ((world.servers side).target nick).map Client.user = some victim)
    (free : (world.servers side).Free nick victim) :
    Sane home (world.step side rest ((world.servers side).mKill nick)) := by
  have hits (cptr : Client) (member : cptr ∈ (world.servers side).clients) (is : cptr.user = victim) :
      ((world.servers side).target nick).map Client.user = some victim :=
    hit fun gone => nameOf_none.mp gone cptr member is
  unfold Server.mKill
  split
  · rename_i acptr found
    obtain rfl := free acptr found
    exact sane.killed inbox found
  · rename_i none
    split
    · rename_i forgotten
      refine sane.ignored inbox fun user => sane.popped_kill inbox fun _ cptr member is => ?_
      have target := hits cptr member is
      rw [Server.target, none, forgotten] at target
      cases target
    · rename_i acptr found
      refine sane.chases inbox none (getHistory_mem found) fun cptr member is => ?_
      have target := hits cptr member is
      rw [Server.target, none, found] at target
      exact Option.some.inj target

theorem Sane.readKill (sane : Sane home world) (inbox : world.inbox side = .kill sender nick victim :: rest)
    (understood : (world.servers side).Understands (.kill sender nick victim)) :
    Sane home (world.step side rest ((world.servers side).receive (.kill sender nick victim))) := by
  cases sender with
  | none => exact sane.mKill inbox (fun is => (understood.1 is).2) (understood.2 rfl)
  | some sender =>
    obtain ⟨name, user⟩ := sender
    obtain ⟨there, here⟩ := sane.proper_head inbox name user rfl
    have differ : victim ≠ user := fun same => Side.other_ne side (there.symm.trans (same ▸ here))
    have is : Line.item user (.kill (some (name, user)) nick victim) = some (.act name) := by
      simp [Line.item, differ]
    by_cases obeys : (world.servers side).obeys (some (name, user)) = true
    · obtain ⟨sptr, found, remote⟩ := (Option.any_eq_true _ _).mp obeys
      rw [Server.receive, fromUser_known _ found (by simpa using remote)]
      exact sane.mKill inbox (fun is => (understood.1 is).2) (understood.2 obeys)
    · have strange (cptr : Client) (found : (world.servers side).findClient name = some cptr) : cptr.myConnect = true := by
        rw [Server.obeys, found] at obeys
        simpa using obeys
      rcases sane.known_or_lost inbox there is (fun _ same => by cases same) with
        ⟨sptr, found, _, remote, _⟩ | ⟨absent, intros, _⟩
      · rw [strange sptr found] at remote
        cases remote
      · refine sane.fromLost inbox there _ strange absent intros fun other => ?_
        refine sane.popped_kill inbox fun _ cptr member same => obeys (understood.1 fun gone => ?_).1
        exact nameOf_none.mp gone cptr member same

/-- The next line. -/
theorem Sane.deliver (sane : Sane home world)
    (understood : ∀ line ∈ (world.inbox side).head?, (world.servers side).Understands line) :
    Sane home (world.deliver side) := by
  cases inbox : world.inbox side with
  | nil =>
    rw [World.deliver, inbox]
    exact sane
  | cons line rest =>
    rw [inbox] at understood
    have known := understood line rfl
    rw [World.deliver, inbox]
    cases line with
    | nick user nick newts username host => exact sane.readNick inbox known
    | change sender user nick newts => exact sane.readChange inbox known
    | quit sender user => exact sane.readQuit inbox known
    | kill sender nick victim => exact sane.readKill inbox known

end SolidIrcd.Kill
