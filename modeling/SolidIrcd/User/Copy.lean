import SolidIrcd.User.VisibleHost
import SolidIrcd.Parse.Params
import SolidIrcd.Lib.Decimal
import SolidIrcd.Lib.Overlay

/-! A user on its own server and on the next one: every change of its modes and its host is a
message to the other. -/

namespace SolidIrcd.UserCopy

open Scan
open Umode
open VisibleHost (State Remasks askedUmodes wanted due printed hostUmodes)
open Decimal (atol print)
open Overlay

/-- What two linked servers make of a user: the `SVSMODE`s of a U-lined server count, and those that
name another nickname's time do not. -/
structure Terms where
  build : Build
  letUmodez : Bool
  leftUline : Bool
  rightUline : Bool
  tsinfo : Int

/-- The user as another server has it. -/
structure Remote where
  user : User
  host : Text

/-- A line about the user, behind its nickname. The string of a `MODE` is a trailing parameter. -/
inductive Message where
  | svhost (text : Text)
  | svsmode (text : Text)
  | mode (letters : Text)

/-- What `m_svsmode` takes from its parameters. -/
structure Svsmode where
  ts : Int
  modes : Text
  optarg : Option Text

/-- The parameters of a line that follow the nickname. -/
def parvBehind (text : Text) : List Text := Parse.params (maxPara - 2) text

/-- The parameters from `parv[2]` on. -/
def readSvsmode : List Text → Option Svsmode
  | [] => none
  | [modes] => some ⟨0, modes, none⟩
  | first :: modes :: rest =>
    if modes.head? = some '+' ∨ modes.head? = some '-' then some ⟨atol first, modes, rest.head?⟩
    else some ⟨0, first, some modes⟩

/-- The tests in front of `m_svsmode`. -/
def accepts (uline : Bool) (tsinfo : Int) (parv : List Text) : Option Svsmode :=
  if uline then (readSvsmode parv).filter fun reading => reading.ts = 0 ∨ reading.ts = tsinfo else none

/-- The line `m_svsmode` sends on. -/
def Svsmode.relay (reading : Svsmode) (tsinfo : Int) : Text :=
  Parse.spaced (print tsinfo :: reading.modes :: reading.optarg.toList)

/-- The visible host. -/
def shown (state : State) : Text := textAt state.hosts.host 0

/-- A `MODE` with nothing in it is not sent. -/
def modeLine (letters : Text) : List Message := if letters = [] then [] else [.mode letters]

/-- How often `m_umode` calls `set_hostmask`. -/
def hostCalls (setflags asked : UModes) : Nat :=
  (if .v ∉ setflags ∧ .v ∈ asked then 1 else 0) + (if .v ∈ setflags ∧ .v ∉ asked then 1 else 0) +
    (if .H ∈ setflags ∧ .H ∉ asked ∧ .o ∈ asked then 1 else 0) +
    (if .H ∉ setflags ∧ .H ∈ asked ∧ .o ∈ asked then 1 else 0)

structure Net where
  left : State
  right : Remote
  toLeft : List Message
  toRight : List Message

inductive Action where
  /-- A command of the user. -/
  | mode (letters : Text)
  | oper (flags : Finset OFlag)
  /-- A line of services that reaches one of the two servers first. -/
  | svsmodeLeft (parv : List Text)
  | svsmodeRight (parv : List Text)
  | svhostLeft (host : Text)
  | svhostRight (host : Text)
  | deliverLeft
  | deliverRight

variable (terms : Terms)

def Terms.act (state : State) (action : VisibleHost.Action) : State :=
  VisibleHost.perform terms.build terms.letUmodez state action

/-- A line of the other server about a user of this one; `MODE` is not for others to send. -/
def Terms.receiveLeft (state : State) : Message → State
  | .svhost text =>
    match parvBehind text with
    | [] => state
    | host :: _ => terms.act state (.svhost host)
  | .svsmode text =>
    match accepts terms.leftUline terms.tsinfo (parvBehind text) with
    | none => state
    | some reading => terms.act state (.svsmode reading.modes)
  | .mode _ => state

def Remote.svhost (remote : Remote) (host : Text) : Remote := ⟨mSvhost remote.user, printed host⟩

def Terms.svsmodeRemote (remote : Remote) (modes : Text) : Remote :=
  { remote with user := mSvsmode terms.build remote.user modes }

/-- A line of the user's server. -/
def Terms.receiveRight (remote : Remote) : Message → Remote
  | .svhost text =>
    match parvBehind text with
    | [] => remote
    | host :: _ => remote.svhost host
  | .svsmode text =>
    match accepts terms.rightUline terms.tsinfo (parvBehind text) with
    | none => remote
    | some reading => terms.svsmodeRemote remote reading.modes
  | .mode letters => { remote with user := mUmode terms.build terms.letUmodez remote.user letters }

/-- What the user's server sends for a `MODE`. -/
def Terms.sentMode (state : State) (letters : Text) : List Message :=
  let setflags := state.user.umode ∩ (userModes terms.build).toFinset
  let next := terms.act state (.mode letters)
  List.replicate (hostCalls setflags (askedUmodes terms.build state.user letters)) (.svhost (' ' :: shown next)) ++
    modeLine (sendUmode terms.build next.user setflags sendUmodes)

/-- What it sends for an `OPER`. -/
def Terms.sentOper (state : State) (flags : Finset OFlag) : List Message :=
  if state.user.isAnOper then []
  else
    let next := terms.act state (.oper flags)
    .svhost (' ' :: shown next) ::
      modeLine (sendUmode terms.build next.user (state.user.umode ∩ allUmodes) sendUmodes)

def Terms.perform (net : Net) : Action → Net
  | .mode letters =>
    { net with
      left := terms.act net.left (.mode letters)
      toRight := net.toRight ++ terms.sentMode net.left letters }
  | .oper flags =>
    { net with
      left := terms.act net.left (.oper flags)
      toRight := net.toRight ++ terms.sentOper net.left flags }
  | .svsmodeLeft parv =>
    match accepts terms.leftUline terms.tsinfo parv with
    | none => net
    | some reading =>
      { net with
        left := terms.act net.left (.svsmode reading.modes)
        toRight := net.toRight ++ [.svsmode (reading.relay terms.tsinfo)] }
  | .svsmodeRight parv =>
    match accepts terms.rightUline terms.tsinfo parv with
    | none => net
    | some reading =>
      { net with
        right := terms.svsmodeRemote net.right reading.modes
        toLeft := net.toLeft ++ [.svsmode (reading.relay terms.tsinfo)] }
  | .svhostLeft host =>
    { net with
      left := terms.act net.left (.svhost host)
      toRight := net.toRight ++ [.svhost (' ' :: printed host)] }
  | .svhostRight host =>
    { net with
      right := net.right.svhost host
      toLeft := net.toLeft ++ [.svhost (' ' :: printed host)] }
  | .deliverLeft =>
    match net.toLeft with
    | [] => net
    | message :: rest => { net with left := terms.receiveLeft net.left message, toLeft := rest }
  | .deliverRight =>
    match net.toRight with
    | [] => net
    | message :: rest => { net with right := terms.receiveRight net.right message, toRight := rest }

def machine : Machine Net Action := ⟨terms.perform, Machine.Any⟩

/-- The visible host and the modes that servers tell each other. -/
abbrev Place := Option {flag : UMode // flag ∈ sendUmodes}

def Value : Place → Type
  | none => Text
  | some _ => Bool

def view (umode : UModes) (host : Text) : Store Value
  | none => host
  | some flag => decide (flag.1 ∈ umode)

def modeUpdate (asks : UMode → Option Bool) : Update Value
  | none => none
  | some flag => asks flag.1

def hostUpdate (host : Text) : Update Value
  | none => some (printed host)
  | some flag => if flag.1 = .v then some true else none

/-- What a line assigns. -/
def Terms.effect (uline : Bool) : Message → Update Value
  | .svhost text =>
    match parvBehind text with
    | [] => fun _ => none
    | host :: _ => hostUpdate host
  | .svsmode text =>
    match accepts uline terms.tsinfo (parvBehind text) with
    | none => fun _ => none
    | some reading => modeUpdate (svsmodeAsks terms.build reading.modes)
  | .mode letters => modeUpdate (umodeAsks terms.build letters)

def Terms.effectLeft : Message → Update Value
  | .mode _ => fun _ => none
  | message => terms.effect terms.leftUline message

def Terms.effectRight (message : Message) : Update Value := terms.effect terms.rightUline message

def State.view (state : State) : Store Value := UserCopy.view state.user.umode (shown state)

def Remote.view (remote : Remote) : Store Value := UserCopy.view remote.user.umode remote.host

/-- A host that comes out of a line as it went in. -/
def Carried (host : Text) : Prop := (parvBehind (' ' :: host)).head? = some host

/-- The next server reads the same change of modes. -/
def Terms.Relayed (uline : Bool) (reading : Svsmode) : Prop :=
  terms.effect uline (.svsmode (reading.relay terms.tsinfo)) = modeUpdate (svsmodeAsks terms.build reading.modes)

/-- Nothing that is on its way to one server gives another value to what the other one sends. -/
def Apart (sent inbox : List (Update Value)) : Prop := ∀ update ∈ inbox, (combine sent).Agrees update

def Terms.Fits (net : Net) : Action → Prop
  | .mode letters =>
    let before := net.left.user.umode
    let after := wanted before letters
    (Remasks before after →
      (.v ∈ before ∨ .v ∈ after) ∧ Carried (due net.left.site.toConfig after net.left.hosts)) ∧
      (terms.build.haveSsl = true → .z ∈ before → net.left.user.ssl = true) ∧
      Apart ((terms.sentMode net.left letters).map terms.effectRight) (net.toLeft.map terms.effectLeft)
  | .oper flags =>
    net.left.user.isAnOper = false → .v ∈ net.left.user.umode ∧
      Carried (due net.left.site.toConfig (mOper net.left.user flags).umode net.left.hosts) ∧
      Apart ((terms.sentOper net.left flags).map terms.effectRight) (net.toLeft.map terms.effectLeft)
  | .svsmodeLeft parv =>
    ∀ reading, accepts terms.leftUline terms.tsinfo parv = some reading → terms.Relayed terms.rightUline reading ∧
      Apart [modeUpdate (svsmodeAsks terms.build reading.modes)] (net.toLeft.map terms.effectLeft)
  | .svsmodeRight parv =>
    ∀ reading, accepts terms.rightUline terms.tsinfo parv = some reading → terms.Relayed terms.leftUline reading ∧
      Apart [modeUpdate (svsmodeAsks terms.build reading.modes)] (net.toRight.map terms.effectRight)
  | .svhostLeft host => Carried (printed host) ∧ Apart [hostUpdate host] (net.toLeft.map terms.effectLeft)
  | .svhostRight host => Carried (printed host) ∧ Apart [hostUpdate host] (net.toRight.map terms.effectRight)
  | .deliverLeft | .deliverRight => True

section

variable {terms : Terms} {state : State} {remote : Remote}

theorem printed_printed (text : Text) : printed (printed text) = printed text := by
  have short : (printed text).length ≤ hostLen :=
    (List.takeWhile_sublist _).length_le.trans (List.length_take_le _ _)
  unfold printed at short ⊢
  rw [List.take_of_length_le short, List.takeWhile_takeWhile]
  simp only [bne_iff_ne, and_self, decide_not]
  rfl

theorem hostUpdate_printed (host : Text) : hostUpdate (printed host) = hostUpdate host := by
  funext place
  cases place with
  | none => exact congrArg some (printed_printed host)
  | some flag => rfl

theorem hostUpdate_apply (umode : UModes) (host host' : Text) :
    (hostUpdate host).apply (view umode host') = view (insert .v umode) (printed host) := by
  funext place
  cases place with
  | none => rfl
  | some flag =>
    change (if flag.1 = .v then some true else none).getD (decide (flag.1 ∈ umode)) =
      decide (flag.1 ∈ insert .v umode)
    by_cases masks : flag.1 = .v <;> simp [masks]

theorem modeUpdate_apply (asks : UMode → Option Bool)
    (same : ∀ flag ∈ sendUmodes, decide (flag ∈ after) = (asks flag).getD (decide (flag ∈ before))) (host : Text) :
    (modeUpdate asks).apply (view before host) = view after host := by
  funext place
  cases place with
  | none => rfl
  | some flag => exact (same flag.1 flag.2).symm

theorem effect_svhost (terms : Terms) (uline : Bool) (carried : Carried host) :
    terms.effect uline (.svhost (' ' :: host)) = hostUpdate host := by
  unfold Carried at carried
  rw [Terms.effect]
  cases parv : parvBehind (' ' :: host) with
  | nil => simp [parv] at carried
  | cons first rest =>
    rw [parv] at carried
    rw [Option.some.inj carried]

theorem view_svhost (host : Text) :
    State.view (terms.act state (.svhost host)) = (hostUpdate host).apply (State.view state) := by
  rw [State.view, State.view, hostUpdate_apply, shown, Terms.act, VisibleHost.perform,
    VisibleHost.textAt_snprintf]
  rfl

theorem view_svsmode (modes : Text) : State.view (terms.act state (.svsmode modes)) =
    (modeUpdate (svsmodeAsks terms.build modes)).apply (State.view state) :=
  (modeUpdate_apply _ (fun _ _ => mem_mSvsmode terms.build state.user modes) _).symm

theorem Remote.view_svhost (host : Text) : (remote.svhost host).view = (hostUpdate host).apply remote.view :=
  (hostUpdate_apply remote.user.umode host remote.host).symm

theorem Remote.view_svsmode (modes : Text) : (terms.svsmodeRemote remote modes).view =
    (modeUpdate (svsmodeAsks terms.build modes)).apply remote.view :=
  (modeUpdate_apply _ (fun _ _ => mem_mSvsmode terms.build remote.user modes) _).symm

/-- A line assigns to the user of this server what it does to the view of it. -/
theorem view_receiveLeft (message : Message) :
    State.view (terms.receiveLeft state message) = (terms.effectLeft message).apply (State.view state) := by
  cases message with
  | svhost text =>
    simp only [Terms.receiveLeft, Terms.effectLeft, Terms.effect]
    split
    · rfl
    · exact UserCopy.view_svhost _
  | svsmode text =>
    simp only [Terms.receiveLeft, Terms.effectLeft, Terms.effect]
    split
    · rfl
    · exact UserCopy.view_svsmode _
  | mode letters => rfl

theorem view_receiveRight (away : remote.user.mine = false) (message : Message) :
    (terms.receiveRight remote message).view = (terms.effectRight message).apply remote.view := by
  cases message with
  | svhost text =>
    simp only [Terms.receiveRight, Terms.effectRight, Terms.effect]
    split
    · rfl
    · exact remote.view_svhost _
  | svsmode text =>
    simp only [Terms.receiveRight, Terms.effectRight, Terms.effect]
    split
    · rfl
    · exact remote.view_svsmode _
  | mode letters =>
    exact (modeUpdate_apply _ (fun _ _ => mem_mUmode_remote terms.build terms.letUmodez remote.user letters away) _).symm

/-- A mode that servers tell each other and `m_umode` skips is set by services or belongs to the connection. -/
theorem skips_cases (told : flag ∈ sendUmodes) (skips : Skips terms.build flag) : flag = .r ∨ flag = .z := by
  have unknown : ∀ ssl, ∀ flag ∈ sendUmodes, lookupUmode ⟨ssl, false, false⟩ flag.letter ≠ some flag → flag = .z := by
    decide +kernel
  rcases skips with rfl | rfl | rfl | ⟨rfl, _⟩ | none
  · exact .inl rfl
  · exact absurd told (by decide)
  · exact absurd told (by decide)
  · exact .inr rfl
  · exact .inr (unknown terms.build.haveSsl flag told none)

theorem mem_userModes_of_heard (heard : ¬ Skips terms.build flag) : flag ∈ userModes terms.build := by
  have known : lookupUmode terms.build flag.letter = some flag := by
    by_contra none
    exact heard (.inr (.inr (.inr (.inr none))))
  exact List.mem_of_find?_eq_some known

/-- What a command of the user sends makes of the copy what the command makes of the user. -/
theorem view_sent (calls : Nat) (user : User) (old before : UModes) (host : Text) (host' : Text)
    (services : .r ∈ user.umode ↔ .r ∈ before) (ssl : .z ∈ user.umode ↔ .z ∈ before)
    (same : ∀ flag ∈ sendUmodes, flag ∈ userModes terms.build → (flag ∈ old ↔ flag ∈ before))
    (silent : calls = 0 → host' = host)
    (called : calls ≠ 0 → (.v ∈ before ∨ .v ∈ user.umode) ∧ printed host' = host' ∧ Carried host') :
    view user.umode host' = drain (view before host)
      ((List.replicate calls (Message.svhost (' ' :: host')) ++
        modeLine (sendUmode terms.build user old sendUmodes)).map terms.effectRight) := by
  have line (store : Store Value) :
    drain store ((modeLine (sendUmode terms.build user old sendUmodes)).map terms.effectRight) =
      (modeUpdate (umodeAsks terms.build (sendUmode terms.build user old sendUmodes))).apply store := by
    unfold modeLine
    split
    next empty =>
      rw [empty]
      funext place
      cases place with
      | none => rfl
      | some flag =>
        change store (some flag) = (umodeAsks terms.build [] flag.1).getD (store (some flag))
        unfold umodeAsks
        split <;> rfl
    · rfl
  have asked (flag : UMode) (told : flag ∈ sendUmodes) (heard : ¬ Skips terms.build flag) :
      umodeAsks terms.build (sendUmode terms.build user old sendUmodes) flag =
        (differs before user.umode flag).map (· == .add) := by
    have known := mem_userModes_of_heard heard
    rw [umodeAsks, if_neg heard, lastSign_sendUmode terms.build user old sendUmodes known told]
    simp only [differs, same flag told known]
  have read (base : UModes) (rest : ∀ flag ≠ .v, flag ∈ base ↔ flag ∈ before)
      (masked : .v ∈ base ↔ .v ∈ before ∨ (calls ≠ 0 ∧ .v ∈ base)) :
      view user.umode host' =
        (modeUpdate (umodeAsks terms.build (sendUmode terms.build user old sendUmodes))).apply (view base host') := by
    have kept (flag : UMode) (still : flag ∈ user.umode ↔ flag ∈ before) : flag ∈ base ↔ flag ∈ user.umode := by
      by_cases isV : flag = .v
      · subst isV
        rw [masked, still]
        exact or_iff_left_of_imp fun calling => (called calling.1).1.elim id still.mp
      · rw [rest flag isV, still]
    refine (modeUpdate_apply _ (fun flag told => ?_) host').symm
    by_cases skips : Skips terms.build flag
    · have still : flag ∈ user.umode ↔ flag ∈ before := by
        rcases skips_cases told skips with rfl | rfl
        · exact services
        · exact ssl
      simp only [umodeAsks, skips, if_true, Option.getD_none, kept flag still]
    · rw [asked flag told skips, differs]
      by_cases gone : flag ∈ before ∧ flag ∉ user.umode
      · simp [gone]
      · by_cases come : flag ∉ before ∧ flag ∈ user.umode
        · simp [come]
        · have still : flag ∈ user.umode ↔ flag ∈ before :=
            ⟨fun now => by_contra fun missing => come ⟨missing, now⟩, fun old => by_contra fun lost => gone ⟨old, lost⟩⟩
          simp only [gone, come, if_false, Option.map_none, Option.getD_none, kept flag still]
  rw [List.map_append, drain_append, line, List.map_replicate, drain_replicate]
  by_cases none : calls = 0
  · rw [if_pos none, ← silent none]
    exact read before (fun _ _ => Iff.rfl) (by simp [none])
  · obtain ⟨_, short, carried⟩ := called none
    rw [if_neg none, Terms.effectRight, effect_svhost terms _ carried, hostUpdate_apply, short]
    have inserted := read (insert .v before) (fun flag other => by simp [other]) (by simp [none])
    exact inserted

/-- What stays true of the two ends. -/
structure Terms.Sound (terms : Terms) (net : Net) : Prop where
  mine : net.left.user.mine = true
  made : textAt net.left.hosts.maskhost 0 ≠ []
  away : net.right.user.mine = false
  agree : drain (State.view net.left) (net.toLeft.map terms.effectLeft) =
    drain net.right.view (net.toRight.map terms.effectRight)

/-- A user of this server stays one, with a mask. -/
theorem act_owned (terms : Terms) (mine : state.user.mine = true) (made : textAt state.hosts.maskhost 0 ≠ [])
    (action : VisibleHost.Action) :
    (terms.act state action).user.mine = true ∧ textAt (terms.act state action).hosts.maskhost 0 ≠ [] := by
  have masks (umode : UModes) : textAt (state.setHostmask umode).hosts.maskhost 0 ≠ [] := by
    rw [VisibleHost.State.setHostmask, (VisibleHost.setHostmask_due _ _ umode made).2.1]
    exact made
  cases action with
  | mode letters =>
    have own := (mUmode_humble terms.build terms.letUmodez mine letters).1.mine.trans mine
    simp only [Terms.act, VisibleHost.perform]
    split
    · exact ⟨own, masks _⟩
    · exact ⟨own, made⟩
  | oper flags =>
    have own : (mOper state.user flags).mine = true := by
      rw [← mine, mOper]
      split_ifs <;> rfl
    simp only [Terms.act, VisibleHost.perform]
    split
    · exact ⟨mine, made⟩
    · exact ⟨own, masks _⟩
  | svsmode letters => exact ⟨(mine_svsmodeChars terms.build (.add, state.user) letters).trans mine, made⟩
  | svhost host => exact ⟨mine, made⟩
  | rename => exact ⟨mine, made⟩
  | rehash site => exact ⟨mine, made⟩

theorem mine_receiveRight (message : Message) : (terms.receiveRight remote message).user.mine = remote.user.mine := by
  cases message with
  | svhost text =>
    simp only [Terms.receiveRight]
    split <;> rfl
  | svsmode text =>
    simp only [Terms.receiveRight]
    split
    · rfl
    · exact mine_svsmodeChars terms.build (.add, remote.user) _
  | mode letters =>
    simp only [Terms.receiveRight, mUmode]
    split
    · rfl
    · rfl

/-- A `MODE` of the user leaves `z` alone, where it is the mode of the connection. -/
theorem mem_z_mUmode (mine : user.mine = true) (letters : Text)
    (fits : terms.build.haveSsl = true → .z ∈ user.umode → user.ssl = true) :
    .z ∈ (mUmode terms.build terms.letUmodez user letters).umode ↔ .z ∈ user.umode := by
  have skips : Skips terms.build .z := by
    cases ssl : terms.build.haveSsl with
    | true => exact .inr (.inr (.inr (.inl ⟨rfl, ssl⟩)))
    | false =>
      refine .inr (.inr (.inr (.inr fun known => ?_)))
      simp [lookupUmode, userModes, ssl, UMode.letter] at known
  have changed := mem_umodeChars .z terms.build true .add user.umode letters (absurd · (by decide))
  rw [if_pos skips] at changed
  unfold mUmode
  simp only [mine, if_true]
  rw [mem_settle_plain _ (by decide)]
  have known : .z ∈ user.umode ∩ (userModes terms.build).toFinset → .z ∈ user.umode :=
    fun both => (Finset.mem_inter.mp both).1
  split_ifs <;> simp_all

theorem mem_v_mUmode (mine : user.mine = true) (letters : Text) :
    .v ∈ (mUmode terms.build terms.letUmodez user letters).umode ↔ .v ∈ wanted user.umode letters := by
  obtain ⟨umode, oflag, same, asked⟩ := VisibleHost.mUmode_eq_settle terms.build terms.letUmodez mine letters
  rw [same, mem_settle_plain _ (by decide), asked .v (by decide)]
  exact VisibleHost.mem_askedUmodes terms.build user letters (by decide)

theorem hostCalls_eq_zero (setflags asked : UModes) : hostCalls setflags asked = 0 ↔ ¬ Remasks setflags asked := by
  unfold hostCalls Remasks
  split_ifs <;> simp_all

theorem printed_due (state : State) (umode : UModes) :
    printed (due state.site.toConfig umode state.hosts) = due state.site.toConfig umode state.hosts := by
  unfold due
  split_ifs <;> exact printed_printed _

/-- A `MODE` of the user makes of the user what its lines make of the copy. -/
theorem view_mode (mine : state.user.mine = true) (made : textAt state.hosts.maskhost 0 ≠ []) (letters : Text)
    (called : Remasks state.user.umode (wanted state.user.umode letters) →
      (.v ∈ state.user.umode ∨ .v ∈ wanted state.user.umode letters) ∧
        Carried (due state.site.toConfig (wanted state.user.umode letters) state.hosts))
    (ssl : terms.build.haveSsl = true → .z ∈ state.user.umode → state.user.ssl = true) :
    State.view (terms.act state (.mode letters)) =
      drain (State.view state) ((terms.sentMode state letters).map terms.effectRight) := by
  have asked (flag : UMode) (host : flag ∈ hostUmodes) := VisibleHost.mem_askedUmodes terms.build state.user letters host
  have known (flag : UMode) (member : flag ∈ userModes terms.build) :
      flag ∈ state.user.umode ∩ (userModes terms.build).toFinset ↔ flag ∈ state.user.umode := by
    rw [Finset.mem_inter, List.mem_toFinset, and_iff_left member]
  have remasks := VisibleHost.remasks_congr
    (fun flag host => known flag (List.mem_toFinset.mp (VisibleHost.mem_userModes terms.build host))) asked
  have user : (terms.act state (.mode letters)).user = mUmode terms.build terms.letUmodez state.user letters := by
    simp only [Terms.act, VisibleHost.perform]
    split <;> rfl
  have services := (mUmode_humble terms.build terms.letUmodez mine letters).1.services .r (by decide)
  refine view_sent _ _ _ _ _ _ ?_ ?_ (fun flag _ member => known flag member) ?_ ?_
  · rwa [user]
  · rw [user]
    exact mem_z_mUmode mine letters ssl
  · intro none
    rw [hostCalls_eq_zero] at none
    simp only [Terms.act, VisibleHost.perform, if_neg none, shown]
  · intro some
    have calls : Remasks (state.user.umode ∩ (userModes terms.build).toFinset)
        (askedUmodes terms.build state.user letters) := by
      by_contra none
      exact some ((hostCalls_eq_zero _ _).mpr none)
    obtain ⟨masked, carried⟩ := called (remasks.mp calls)
    have host : shown (terms.act state (.mode letters)) =
        due state.site.toConfig (wanted state.user.umode letters) state.hosts := by
      simp only [Terms.act, VisibleHost.perform, if_pos calls, shown, VisibleHost.State.setHostmask]
      rw [(VisibleHost.setHostmask_due _ _ _ made).1, (VisibleHost.sameHost_of asked).due_eq]
    refine ⟨?_, by rw [host, printed_due], by rwa [host]⟩
    rwa [user, mem_v_mUmode mine letters]

theorem view_oper (mine : state.user.mine = true) (made : textAt state.hosts.maskhost 0 ≠ []) (flags : Finset OFlag)
    (fits : state.user.isAnOper = false → .v ∈ state.user.umode ∧
      Carried (due state.site.toConfig (mOper state.user flags).umode state.hosts)) :
    State.view (terms.act state (.oper flags)) =
      drain (State.view state) ((terms.sentOper state flags).map terms.effectRight) := by
  cases oper : state.user.isAnOper with
  | true => simp [Terms.act, VisibleHost.perform, Terms.sentOper, oper, drain]
  | false =>
    obtain ⟨masked, carried⟩ := fits oper
    have user : (terms.act state (.oper flags)).user = mOper state.user flags := by
      simp [Terms.act, VisibleHost.perform, oper]
    have host : shown (terms.act state (.oper flags)) =
        due state.site.toConfig (mOper state.user flags).umode state.hosts := by
      simp only [Terms.act, VisibleHost.perform, oper, Bool.false_eq_true, if_false, shown, VisibleHost.State.setHostmask]
      exact (VisibleHost.setHostmask_due _ _ _ made).1
    have still (flag : UMode) (own : flag = .r ∨ flag = .z) :
        flag ∈ (mOper state.user flags).umode ↔ flag ∈ state.user.umode := by
      rw [mOper, mine]
      simp only [oper]
      rcases own with rfl | rfl <;> split_ifs <;> simp
    have sent : terms.sentOper state flags = List.replicate 1
      (Message.svhost (' ' :: shown (terms.act state (.oper flags)))) ++
        modeLine (sendUmode terms.build (terms.act state (.oper flags)).user (state.user.umode ∩ allUmodes) sendUmodes) := by
      simp [Terms.sentOper, oper]
    rw [sent]
    refine view_sent 1 _ _ _ _ _ ?_ ?_ ?_ (absurd · Nat.one_ne_zero) fun _ => ?_
    · rw [user]
      exact still .r (.inl rfl)
    · rw [user]
      exact still .z (.inr rfl)
    · intro flag told _
      rw [Finset.mem_inter, and_iff_left (show flag ∈ allUmodes from told)]
    · exact ⟨.inl masked, by rw [host, printed_due], by rwa [host]⟩

variable {net : Net}

/-- The user's server sends what it has done. -/
theorem Terms.Sound.sendRight (sound : terms.Sound net) (mine : left.user.mine = true)
    (made : textAt left.hosts.maskhost 0 ≠ []) (sent : List Message)
    (does : State.view left = drain (State.view net.left) (sent.map terms.effectRight))
    (apart : Apart (sent.map terms.effectRight) (net.toLeft.map terms.effectLeft)) :
    terms.Sound { net with left := left, toRight := net.toRight ++ sent } := by
  refine ⟨mine, made, sound.away, ?_⟩
  simp only [List.map_append, does]
  exact drain_send sound.agree apart

theorem Terms.Sound.sendLeft (sound : terms.Sound net) (away : right.user.mine = false) (sent : List Message)
    (does : right.view = drain net.right.view (sent.map terms.effectLeft))
    (apart : Apart (sent.map terms.effectLeft) (net.toRight.map terms.effectRight)) :
    terms.Sound { net with right := right, toLeft := net.toLeft ++ sent } := by
  refine ⟨sound.mine, sound.made, away, ?_⟩
  simp only [List.map_append, does]
  exact (drain_send sound.agree.symm apart).symm

theorem perform_sound (sound : terms.Sound net) (action : Action) (fits : terms.Fits net action) :
    terms.Sound (terms.perform net action) := by
  have owned := act_owned terms sound.mine sound.made
  cases action with
  | mode letters =>
    obtain ⟨called, ssl, apart⟩ := fits
    exact sound.sendRight (owned _).1 (owned _).2 _ (view_mode sound.mine sound.made letters called ssl) apart
  | oper flags =>
    refine sound.sendRight (owned _).1 (owned _).2 _ (view_oper sound.mine sound.made flags fun plain => ?_) ?_
    · exact ⟨(fits plain).1, (fits plain).2.1⟩
    · cases oper : net.left.user.isAnOper with
      | true => simp [Terms.sentOper, oper, Apart, combine, Update.Agrees]
      | false => exact (fits oper).2.2
  | svsmodeLeft parv =>
    simp only [Terms.perform]
    split
    · exact sound
    next reading accepted =>
      obtain ⟨relayed, apart⟩ := fits reading accepted
      have sent : [Message.svsmode (reading.relay terms.tsinfo)].map terms.effectRight =
          [modeUpdate (svsmodeAsks terms.build reading.modes)] := congrArg (fun update => [update]) relayed
      refine sound.sendRight (owned _).1 (owned _).2 _ ?_ ?_
      · rw [sent]
        exact view_svsmode reading.modes
      · rwa [sent]
  | svsmodeRight parv =>
    simp only [Terms.perform]
    split
    · exact sound
    next reading accepted =>
      obtain ⟨relayed, apart⟩ := fits reading accepted
      have sent : [Message.svsmode (reading.relay terms.tsinfo)].map terms.effectLeft =
          [modeUpdate (svsmodeAsks terms.build reading.modes)] := congrArg (fun update => [update]) relayed
      refine sound.sendLeft ((mine_svsmodeChars terms.build (.add, net.right.user) _).trans sound.away) _ ?_ ?_
      · rw [sent]
        exact net.right.view_svsmode reading.modes
      · rwa [sent]
  | svhostLeft host =>
    obtain ⟨carried, apart⟩ := fits
    have sent : [Message.svhost (' ' :: printed host)].map terms.effectRight = [hostUpdate host] :=
      congrArg (fun update => [update]) ((effect_svhost terms terms.rightUline carried).trans (hostUpdate_printed host))
    refine sound.sendRight (owned _).1 (owned _).2 _ ?_ ?_
    · rw [sent]
      exact view_svhost host
    · rwa [sent]
  | svhostRight host =>
    obtain ⟨carried, apart⟩ := fits
    have sent : [Message.svhost (' ' :: printed host)].map terms.effectLeft = [hostUpdate host] :=
      congrArg (fun update => [update]) ((effect_svhost terms terms.leftUline carried).trans (hostUpdate_printed host))
    have away : (net.right.svhost host).user.mine = false := sound.away
    refine sound.sendLeft away _ ?_ ?_
    · rw [sent]
      exact net.right.view_svhost host
    · rwa [sent]
  | deliverLeft =>
    obtain ⟨left, right, toLeft, toRight⟩ := net
    cases toLeft with
    | nil => exact sound
    | cons message rest =>
      have kept : (terms.receiveLeft left message).user.mine = true ∧
          textAt (terms.receiveLeft left message).hosts.maskhost 0 ≠ [] := by
        cases message with
        | svhost text =>
          simp only [Terms.receiveLeft]
          split
          · exact ⟨sound.mine, sound.made⟩
          · exact owned _
        | svsmode text =>
          simp only [Terms.receiveLeft]
          split
          · exact ⟨sound.mine, sound.made⟩
          · exact owned _
        | mode letters => exact ⟨sound.mine, sound.made⟩
      refine ⟨kept.1, kept.2, sound.away, ?_⟩
      have agree := sound.agree
      simp only [Terms.perform, view_receiveLeft] at agree ⊢
      exact agree
  | deliverRight =>
    obtain ⟨left, right, toLeft, toRight⟩ := net
    cases toRight with
    | nil => exact sound
    | cons message rest =>
      refine ⟨sound.mine, sound.made, (mine_receiveRight message).trans sound.away, ?_⟩
      have agree := sound.agree
      simp only [Terms.perform, view_receiveRight sound.away] at agree ⊢
      exact agree

/-- The modes that servers tell each other and the visible host are the same. -/
def Same (state : State) (remote : Remote) : Prop :=
  state.user.umode ∩ sendUmodes = remote.user.umode ∩ sendUmodes ∧ shown state = remote.host

instance (state : State) (remote : Remote) : Decidable (Same state remote) := by
  unfold Same
  infer_instance

theorem same_iff : Same state remote ↔ State.view state = remote.view := by
  constructor
  · intro ⟨modes, host⟩
    funext place
    cases place with
    | none => exact host
    | some flag =>
      have same := Finset.ext_iff.mp modes flag.1
      rw [Finset.mem_inter, Finset.mem_inter, and_iff_left flag.2, and_iff_left flag.2] at same
      exact decide_eq_decide.mpr same
  · intro same
    refine ⟨Finset.ext fun flag => ?_, congrFun same none⟩
    rw [Finset.mem_inter, Finset.mem_inter]
    exact and_congr_left fun told => decide_eq_decide.mp (congrFun same (some ⟨flag, told⟩))

/-- A user that both servers know. -/
def joined (left : State) (right : Remote) : Net := ⟨left, right, [], []⟩

end

/-- After any commands of the user and of services whose lines come out as they went in and cross nothing that speaks of
the same, both servers hold the same user when everything is delivered. -/
theorem users_agree (terms : Terms) (registered : (VisibleHost.machine terms.build terms.letUmodez).Run Machine.Any
      (VisibleHost.register terms.build site peer signon) left)
    (away : right.user.mine = false) (same : Same left right)
    (run : (machine terms).Run terms.Fits (joined left right) final) (quiet : final.toLeft = [] ∧ final.toRight = []) :
    Same final.left final.right := by
  have first := VisibleHost.register_good terms.build site peer signon
  have owned : left.user.mine = true ∧ textAt left.hosts.maskhost 0 ≠ [] :=
    registered.invariant (fun state => state.user.mine = true ∧ textAt state.hosts.maskhost 0 ≠ [])
      (fun _ action _ _ kept => act_owned terms kept.1 kept.2 action) ⟨first.mine, first.made⟩
  have sound : terms.Sound final := run.invariant terms.Sound (fun _ action _ fits sound => perform_sound sound action fits)
    ⟨owned.1, owned.2, away, same_iff.mp same⟩
  have agree := sound.agree
  rw [quiet.1, quiet.2] at agree
  exact same_iff.mpr agree

/-- A host of one word is carried. -/
theorem carried_of_word (word : Parse.Word host) : Carried host := by
  have words : ∀ text ∈ [host], Parse.Word text := by simpa using word
  have line := Parse.params_spaced words (.inl rfl) 11
  simp only [Parse.spaced, List.flatMap_cons, List.flatMap_nil, List.append_nil] at line
  have parv : parvBehind (' ' :: host) = [host] ++ Parse.params 12 [] := line
  rw [Carried, parv]
  rfl

/-- A mode string that starts with a sign and has no space is read as it was. -/
theorem relayed_of_signed (reading : Svsmode) (signed : reading.modes.head? = some '+' ∨ reading.modes.head? = some '-')
    (solid : ' ' ∉ reading.modes) (lower : -Decimal.longMax - 1 ≤ terms.tsinfo) (upper : terms.tsinfo ≤ Decimal.longMax) :
    terms.Relayed true reading := by
  have word : Parse.Word reading.modes := by
    refine ⟨fun empty => ?_, solid, fun colon => ?_⟩
    · simp [empty] at signed
    · simp [colon] at signed
  have opens : Parse.spaced reading.optarg.toList = [] ∨ (Parse.spaced reading.optarg.toList).head? = some ' ' := by
    cases reading.optarg <;> simp [Parse.spaced]
  have words : ∀ text ∈ [print terms.tsinfo, reading.modes], Parse.Word text := by
    simpa using ⟨Parse.word_print terms.tsinfo, word⟩
  have line := Parse.params_spaced words opens 10
  have parv : parvBehind (reading.relay terms.tsinfo) =
      print terms.tsinfo :: reading.modes :: Parse.params 11 (Parse.spaced reading.optarg.toList) := by
    refine Eq.trans (congrArg parvBehind ?_) line
    simp [Svsmode.relay, Parse.spaced]
  have accepted : accepts true terms.tsinfo (parvBehind (reading.relay terms.tsinfo)) =
      some ⟨terms.tsinfo, reading.modes, (Parse.params 11 (Parse.spaced reading.optarg.toList)).head?⟩ := by
    rw [parv, accepts, readSvsmode, if_pos signed, Decimal.atol_print lower upper]
    simp
  simp only [Terms.Relayed, Terms.effect, accepted]

/-- Two servers of one network; the user is known to the second by its burst. -/
def network : Terms := ⟨⟨false, false, false⟩, false, true, true, 100⟩

def copy (state : State) : Remote := ⟨{ state.user with mine := false }, shown state⟩

/-- A masked user opers, and then services set a mode of it. -/
def maskedStart : State :=
  VisibleHost.register network.build VisibleHost.site VisibleHost.peer { VisibleHost.signon with autoUmodev := true }

def maskedActions : List Action := [.oper {.groute}, .deliverRight, .deliverRight, .svsmodeRight ["+r".toList], .deliverLeft]

theorem users_agree_masked :
    let final := maskedActions.foldl network.perform (joined maskedStart (copy maskedStart))
    Same final.left final.right := by
  intro final
  refine users_agree network (.refl maskedStart) rfl (by decide +kernel)
    (.of_list maskedActions (.refl _)
      ⟨trivial, ?_, trivial, trivial, trivial, trivial, trivial, ?_, trivial, trivial, trivial⟩)
    (by decide +kernel)
  · refine fun _ => ⟨by decide +kernel, carried_of_word ⟨?_, ?_, ?_⟩, nofun⟩
    · decide +kernel
    · decide +kernel
    · decide +kernel
  · intro reading accepted
    obtain rfl : ⟨0, "+r".toList, none⟩ = reading := Option.some.inj accepted
    refine ⟨relayed_of_signed network _ (.inl rfl) (by decide) (by decide) (by decide), ?_⟩
    have delivered : (List.foldl network.perform (joined maskedStart (copy maskedStart))
        [.oper {.groute}, .deliverRight, .deliverRight]).toRight = [] := List.isEmpty_iff.mp (by decide +kernel)
    have empty : (List.foldl network.perform (joined maskedStart (copy maskedStart))
        [.oper {.groute}, .deliverRight, .deliverRight]).toRight.map network.effectRight = [] := by
      rw [delivered, List.map_nil]
    intro update member
    exact absurd (empty ▸ member) List.not_mem_nil

/-- An unmasked user opers: only the other server has it masked. -/
theorem oper_masks :
    ¬ ∀ (terms : Terms) (site : VisibleHost.Site) (peer : HostMask.Peer) (signon : Signon) (left : State) (right : Remote)
      (final : Net), (VisibleHost.machine terms.build terms.letUmodez).Run Machine.Any
        (VisibleHost.register terms.build site peer signon) left → right.user.mine = false → Same left right →
        (machine terms).Run Machine.Any (joined left right) final → final.toLeft = [] ∧ final.toRight = [] →
        Same final.left final.right := by
  intro claim
  have run : (machine network).Run Machine.Any (joined VisibleHost.start (copy VisibleHost.start)) _ :=
    .of_list [.oper {.groute}, .deliverRight, .deliverRight] (.refl _)
      ⟨trivial, trivial, trivial, trivial, trivial, trivial, trivial⟩
  have same := claim network VisibleHost.site VisibleHost.peer VisibleHost.signon VisibleHost.start (copy VisibleHost.start) _
    (.refl _) rfl (by decide +kernel) run (by decide +kernel)
  revert same
  decide +kernel

end SolidIrcd.UserCopy
