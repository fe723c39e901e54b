import SolidIrcd.Channel.RoundTrip
import SolidIrcd.Channel.Written

/-! A MODE or SAMODE of a client, and the line its server sends on: a server that
gets the line makes the same edits, one letter after the other. -/

namespace SolidIrcd.Channel

open Scan (Text)
open Parse (Word word_print)
open Decimal (print)

/-- The pass of the far server over the letters sent so far, with `more` parameters
behind those it has taken. -/
def farPass (far : Call) (chptr : Chan) (letters : Text) (paras more : List Text) : Pass :=
  letters.foldl (setModeStep far) (Pass.start far chptr (paras ++ more))

/-- The far server has made of `body` and `paras` what the near one has in `pass`. -/
structure Abreast (far : Call) (chptr : Chan) (pass : Pass) (body : Text) (paras more : List Text) :
    Prop where
  core : (farPass far chptr body paras more).chptr.core = pass.chptr.core
  pbuf : (farPass far chptr body paras more).pbuf = pass.pbuf
  args : (farPass far chptr body paras more).args = more
  nparams : (farPass far chptr body paras more).nparams = paras.length
  mbuf : (farPass far chptr body paras more).mbuf.length ≤ max 1 body.length
  change : pass.mbuf = body → (farPass far chptr body paras more).change = pass.change

theorem length_signMode_start (sign : Sign) (call : Call) (chptr : Chan) (args : List Text) :
    (signMode sign (Pass.start call chptr args)).mbuf.length = 1 := by
  cases sign <;> rfl

theorem World.Names.congr {world : World} {members others : List Member}
    (names : world.Names members) (same : others.map Member.name = members.map Member.name) :
    world.Names others := by
  intro l member
  have there : l.name ∈ members.map Member.name := same ▸ List.mem_map.mpr ⟨l, member, rfl⟩
  obtain ⟨other, inside, equal⟩ := List.mem_map.mp there
  rw [← equal]
  exact names other inside

section

variable {near far : Call} {chptr : Chan} {pass after : Pass} {body : Text} {paras more : List Text}

theorem farPass_snoc (far : Call) (chptr : Chan) (letters : Text) (letter : Char)
    (paras more : List Text) :
    farPass far chptr (letters ++ [letter]) paras more =
      setModeStep far (farPass far chptr letters paras more) letter := by
  simp [farPass]

theorem step_sign (remote : far.Remote) (pass : Pass) (sign : Sign) :
    setModeStep far pass sign.char = signMode sign pass := by
  rw [remote.step, caseOf_sign]
  rfl

/-- The far server when all that is written has come to it. -/
theorem Abreast.ready (abreast : Abreast far chptr pass body paras more)
    (written : Written chptr pass body paras) (remote : far.Remote) :
    Abreast far chptr pass pass.mbuf paras more ∧
      (farPass far chptr pass.mbuf paras more).mbuf.length ≤ pass.mbuf.length := by
  obtain ⟨same, nonempty⟩ | pending := written.buffer
  · have positive : 1 ≤ body.length := List.length_pos_of_ne_nil nonempty
    have mbuf := abreast.mbuf
    rw [same]
    exact ⟨abreast, by omega⟩
  · obtain ⟨chptr', pbuf', args', nparams', -⟩ :=
      signMode_frame pass.change (farPass far chptr body paras more)
    have short : (signMode pass.change (farPass far chptr body paras more)).mbuf.length ≤
        body.length + 1 := by
      by_cases empty : body = []
      · subst empty
        exact Nat.le_of_eq (length_signMode_start ..)
      · have positive : 1 ≤ body.length := List.length_pos_of_ne_nil empty
        have longer := length_signMode_le pass.change (farPass far chptr body paras more)
        have mbuf := abreast.mbuf
        omega
    have after : farPass far chptr pass.mbuf paras more =
        signMode pass.change (farPass far chptr body paras more) := by
      rw [pending, farPass_snoc, step_sign remote]
    have size : pass.mbuf.length = body.length + 1 := by simp [pending]
    rw [← after] at chptr' pbuf' args' nparams' short
    refine ⟨⟨?_, pbuf'.trans abreast.pbuf, args'.trans abreast.args,
      nparams'.trans abreast.nparams, by omega, fun _ => ?_⟩, by omega⟩
    · rw [chptr', abreast.core]
    · rw [after, signMode_change]

theorem Abreast.quiet (abreast : Abreast far chptr pass body paras more)
    (quiet : Quiet body pass after) : Abreast far chptr after body paras more := by
  refine ⟨abreast.core.trans quiet.core.symm, abreast.pbuf.trans quiet.pbuf.symm, abreast.args,
    abreast.nparams, abreast.mbuf, fun whole => ?_⟩
  obtain ⟨before, same⟩ := quiet.whole whole
  exact (abreast.change before).trans same.symm

/-- A letter that makes an edit is sent, and the far server makes the edit. -/
theorem Abreast.makes {edit : Edit} (abreast : Abreast far chptr pass body paras (edit.paras ++ more))
    (written : Written chptr pass body paras) (remote : far.Remote)
    (names : far.world.Names chptr.members) (makes : Makes near edit pass after)
    (allowed : edit.Allowed far pass.chptr pass.change) (settled : edit.Settled)
    (room : edit.loose = false →
      far.prelen chptr + pass.mbuf.length + pass.pbuf.length + edit.need ≤ realModeBufLen) :
    Abreast far chptr after (pass.mbuf ++ [edit.letter]) (paras ++ edit.paras) more := by
  obtain ⟨ready, short⟩ := abreast.ready written remote
  have positive := written.mbuf_pos
  have few := written.few
  have same : farPass far chptr (pass.mbuf ++ [edit.letter]) (paras ++ edit.paras) more =
      setModeStep far (farPass far chptr pass.mbuf paras (edit.paras ++ more)) edit.letter := by
    rw [farPass_snoc, farPass, farPass, List.append_assoc]
  obtain ⟨core, pbuf, args, nparams, -, change⟩ := ready
  have change := change rfl
  obtain ⟨name, -, -, people, -⟩ := core_fields core
  generalize farPass far chptr pass.mbuf paras (edit.paras ++ more) = state at *
  have prelen : far.prelen state.chptr = far.prelen chptr := by
    simp only [Call.prelen, name, written.frame.1]
  have takes : Takes edit more state (setModeStep far state edit.letter) := by
    refine relay_edit remote (names.congr (people ▸ written.frame.2.2)) edit ?_ settled args ?_ ?_
    · rw [allowed_core core, change]
      exact allowed
    · intro some
      have counted := makes.few some
      omega
    · intro guarded
      have fits := room guarded
      rw [prelen, pbuf]
      omega
  refine ⟨?_, ?_, ?_, ?_, ?_, fun _ => ?_⟩
  · rw [same, takes.core, makes.core, change]
    exact apply_congr core edit pass.change
  · rw [same, takes.pbuf, makes.pbuf, pbuf]
  · rw [same, takes.args]
  · rw [same, takes.nparams, nparams, List.length_append]
  · rw [same, takes.mbuf]
    simp only [List.length_append, List.length_cons, List.length_nil]
    omega
  · rw [same, takes.change, makes.change, change]

end

/-! The two commands and the line between the servers. -/

inductive Command where
  | mode | samode
  deriving DecidableEq, Repr

/-- The command of a client of this server. -/
def Command.handle (build : Build) (world : World) (sptr : Source) (chptr : Chan) (parv : List Text) :
    Command → Handled
  | .mode => mMode build world ⟨sptr.name, false⟩ sptr chptr parv
  | .samode => mSamode build world sptr chptr parv

/-- The level each of the commands works with. -/
def Command.level (sptr : Source) (chptr : Chan) : Command → Nat
  | .mode => modeLevel sptr chptr
  | .samode => 2

/-- A server behind the link called `link`, with what it knows of the clients. -/
structure Neighbor where
  world : World
  link : Text
  find : Text → Option Source

/-- The line of a client of another server. -/
def Neighbor.receive (build : Build) (neighbor : Neighbor) (chptr : Chan) (line : Text) : Chan :=
  let words := Parse.words line
  match neighbor.find words.sender with
  | none => chptr
  | some sptr =>
    if words.command = "MODE".toList then
      (mMode build neighbor.world ⟨neighbor.link, true⟩ sptr chptr (words.parv.drop 1)).chptr
    else chptr

def Neighbor.follow (build : Build) (neighbor : Neighbor) (chptr : Chan) : Option Text → Chan
  | none => chptr
  | some line => neighbor.receive build chptr line

/-- A client as its own server and as another server sees it. -/
structure SameClient (near far : Source) : Prop where
  name : far.name = near.name
  person : near.isServer = false ∧ far.isServer = false
  plain : near.uline = false ∧ far.uline = false
  mine : near.myClient = true ∧ far.myClient = false
  sadmin : far.sadmin = near.sadmin
  oper : far.oper = near.oper
  umodez : far.umodez = near.umodez
  ursl : far.ursl = true → near.ursl = true

/-- What two servers of a network have in common about a channel and a client of one
of them. -/
structure Common (build : Build) (sptr : Source) (neighbor : Neighbor) (chptr : Chan) : Prop where
  valid : chptr.Valid build
  nick : ' ' ∉ sptr.name ∧ sptr.name.length ≤ nickLen
  known : ∃ far, neighbor.find sptr.name = some far ∧ SameClient sptr far
  names : neighbor.world.Names chptr.members
  noColon : ∀ l ∈ chptr.members, l.name.head? ≠ some ':'

/-- The command is not refused as a whole. -/
def Command.Accepts (sptr : Source) : Command → Prop
  | .mode => True
  | .samode => (sptr.oper || sptr.locop) = true ∧ sptr.sadmin = true

/-- The call of `set_mode` at the client's own server. -/
def Command.call (build : Build) (world : World) (sptr : Source) (chptr : Chan)
    (command : Command) : Call :=
  ⟨build, world, sptr.name, sptr, command.level sptr chptr⟩

/-- What a change needs at the next server, and is not tested at this one. -/
structure Edit.Carried (command : Command) (sptr : Source) (neighbor : Neighbor) (chptr : Chan)
    (pass : Pass) (edit : Edit) : Prop where
  /-- There the name of the link is counted in the place of the nickname. -/
  room : edit.loose = false →
    neighbor.link.length + chptr.chname.length + 27 + pass.mbuf.length + pass.pbuf.length +
      edit.need ≤ realModeBufLen
  settled : edit.Settled
  /-- There an administrator who is only a half-op has no more than a half-op's level. -/
  level : command = .samode → chptr.isOnlyHalfop sptr.name = true →
    edit.letter ∉ ['o', 'h', 'O', 'i']

section

variable {build : Build} {sptr : Source} {neighbor : Neighbor} {chptr : Chan} {command : Command} {modes : Text}
  {args : List Text}

theorem Common.ground (common : Common build sptr neighbor chptr) (call : Call)
    (same : SameClient call.sptr far) : Ground call chptr where
  client := ⟨same.person.1, same.plain.1, same.mine.1⟩
  nicks := by
    intro l member
    have nick := common.valid.nicks l member
    exact ⟨⟨nick.nonempty, nick.solid, common.noColon l member⟩, nick.short⟩
  key := common.valid.mode.keyOk
  masks := by
    intro list old member
    have bound := Mask.length_prettyMask_le old
    rw [(common.valid.stored list old member).pretty] at bound
    exact Nat.le_trans bound (by decide)

end

end SolidIrcd.Channel
