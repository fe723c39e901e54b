import SolidIrcd.Conf.Blocks

/-! What `rehash` does with the blocks that it has read: the new ones take the place of the old, and of the old those
stay that are in use. -/

namespace SolidIrcd.Blocks

open Scan (Text)
open Mask (matchMask)
open Census (replace)

/-- A class as it is read. -/
structure NewClass where
  name : Text
  limits : Limits
  maxlinks : Int

/-- What is read: the lists `new_classes`, `new_connects`, `new_allows` and `new_opers`. Of a block that is read the
address, the class and the count are not set yet. -/
structure Conf where
  classes : List NewClass
  connects : List AConnect
  allows : List AAllow
  opers : List AOper

def findNewClass (classes : List NewClass) (name : Option Text) : Option NewClass :=
  classes.find? fun tmp => mycmp (name.getD "default".toList) tmp.name

/-- `set_classes`: whether every block has a class. -/
def setClasses (conf : Conf) : Bool :=
  (conf.connects.all fun aconn => (findNewClass conf.classes aconn.className).isSome) &&
    (conf.allows.all fun allow => (findNewClass conf.classes allow.className).isSome) &&
    conf.opers.all fun aoper => (findNewClass conf.classes aoper.className).isSome

/-- The first loops of `merge_classes`: the new classes that the old ones become are marked. -/
def updateClasses : List NewClass → List AClass → List AClass × List NewClass
  | [], classes => (classes, [])
  | cl :: rest, classes =>
    match findClass classes (some cl.name) with
    | none =>
      let (classes, rest) := updateClasses rest classes
      (classes, cl :: rest)
    | some old =>
      let (classes, rest) :=
        updateClasses rest (replace AClass.ptr { old with limits := cl.limits, maxlinks := cl.maxlinks } classes)
      (classes, { cl with maxlinks := -1 } :: rest)

/-- The classes that are not marked are added. -/
def addClasses : List NewClass → List AClass → Ptr → List AClass × Ptr
  | [], classes, next => (classes, next)
  | cl :: rest, classes, next =>
    if cl.maxlinks = -1 then addClasses rest classes next
    else addClasses rest (⟨next, cl.name, cl.limits, cl.maxlinks, 0, 0⟩ :: classes) (next + 1)

/-- `merge_classes`. -/
def mergeClasses (state : State) (news : List NewClass) : State :=
  let (classes, news) := updateClasses news (state.classes.map fun cl => { cl with maxlinks := -1 })
  let (classes, next) := addClasses news classes state.next
  { state with classes := classes.filter fun cl => !(cl.refs == 0 && cl.maxlinks == -1), next := next }

/-- The end of `merge_connects` and `merge_allows`: blocks that are to go go, and give up their classes. -/
def prune {α : Type} (gone : α → Bool) (cls : α → Ptr) : List α → List AClass → Option (List α × List AClass)
  | [], classes => some ([], classes)
  | block :: rest, classes =>
    if gone block then do
      let classes ← dropClass classes (cls block)
      prune gone cls rest classes
    else do
      let (rest, classes) ← prune gone cls rest classes
      some (block :: rest, classes)

/-- The loop of `merge_connects`. -/
def addConnects : List AConnect → State → Option State
  | [], state => some state
  | aconn :: rest, state =>
    match findAConnect state.connects aconn.name with
    | some old => do
      let classes ← dropClass state.classes old.cls
      let cl ← findClass classes aconn.className
      let classes ← changeClass classes cl.ptr 0 1
      addConnects rest { state with
        classes := classes
        connects := replace AConnect.ptr { old with
          host := aconn.host, apasswd := aconn.apasswd, cpasswd := aconn.cpasswd, source := aconn.source,
          className := aconn.className, port := aconn.port, flags := aconn.flags, cls := cl.ptr, legal := 1 }
          state.connects }
    | none => do
      let cl ← findClass state.classes aconn.className
      let classes ← changeClass state.classes cl.ptr 0 1
      addConnects rest { state with
        classes := classes
        connects := { aconn with ptr := state.next, cls := cl.ptr, legal := 1, acpt := none } :: state.connects
        next := state.next + 1 }

/-- `merge_connects`. -/
def mergeConnects (state : State) (news : List AConnect) : Option State := do
  let state ← addConnects news { state with connects := state.connects.map fun aconn => { aconn with legal := -1 } }
  let (connects, classes) ← prune (fun aconn => aconn.legal == -1 && aconn.acpt.isNone) AConnect.cls state.connects
    state.classes
  some { state with connects := connects, classes := classes }

/-- Whether an allow is there already. -/
def AAllow.same (allow ptr : AAllow) : Bool :=
  ptr.cls == allow.cls && ptr.port == allow.port && ptr.flags == allow.flags && mycmp ptr.ipmask allow.ipmask &&
    mycmp ptr.hostmask allow.hostmask &&
    match ptr.passwd, allow.passwd with
    | some passwd, some passwd' => mycmp passwd passwd'
    | none, none => true
    | _, _ => false

/-- The loop of `merge_allows`: of two that are the same the new one is to go. -/
def addAllows : List AAllow → State → Option State
  | [], state => some state
  | allow :: rest, state => do
    let cl ← findClass state.classes allow.className
    let classes ← changeClass state.classes cl.ptr 0 1
    let allow := { allow with ptr := state.next, cls := cl.ptr, legal := 0, clients := 0 }
    match state.allows.find? fun ptr => allow.same ptr with
    | none => addAllows rest { state with classes := classes, allows := allow :: state.allows, next := state.next + 1 }
    | some ptr =>
      addAllows rest { state with
        classes := classes
        allows := { allow with legal := -1 } :: replace AAllow.ptr { ptr with legal := 1 } state.allows
        next := state.next + 1 }

/-- `merge_allows`. -/
def mergeAllows (state : State) (news : List AAllow) : Option State := do
  let state ← addAllows news { state with allows := state.allows.map fun allow => { allow with legal := -1 } }
  let (allows, classes) ← prune (fun allow => allow.legal == -1 && decide (allow.clients ≤ 0)) AAllow.cls state.allows
    state.classes
  some { state with allows := allows, classes := classes }

/-- The loop of `merge_opers`. -/
def addOpers : List AOper → State → Option State
  | [], state => some state
  | aoper :: rest, state =>
    match findOperByname state.opers aoper.nick with
    | some old => do
      let classes ← dropClass state.classes old.cls
      let cl ← findClass classes aoper.className
      let classes ← changeClass classes cl.ptr 0 1
      addOpers rest { state with
        classes := classes
        opers := replace AOper.ptr { old with
          hosts := aoper.hosts, passwd := aoper.passwd, className := aoper.className, cls := cl.ptr,
          flags := aoper.flags, legal := 1 } state.opers }
    | none => do
      let cl ← findClass state.classes aoper.className
      let classes ← changeClass state.classes cl.ptr 0 1
      addOpers rest { state with
        classes := classes
        opers := { aoper with ptr := state.next, cls := cl.ptr, legal := 1, opers := 0 } :: state.opers
        next := state.next + 1 }

/-- `merge_opers`; here the classes of those that go are not told. -/
def mergeOpers (state : State) (news : List AOper) : Option State := do
  let state ← addOpers news { state with opers := state.opers.map fun aoper => { aoper with legal := -1 } }
  let goes := fun aoper : AOper => aoper.legal == -1 && decide (aoper.opers ≤ 0)
  some { state with
    opers := state.opers.filter fun aoper => !goes aoper
    lost := fun cl => state.lost cl +
      Census.total (fun aoper : AOper => if goes aoper ∧ aoper.cls = cl then 1 else 0) state.opers }

/-- `merge_confs`. -/
def mergeConfs (state : State) (conf : Conf) : Option State := do
  let state ← mergeConnects (mergeClasses state conf.classes) conf.connects
  let state ← mergeAllows state conf.allows
  mergeOpers state conf.opers

/-- `rehash`, of a file that can be read: `initclass` has put the class `default` at the end. -/
def rehash (state : State) (conf : Conf) : Option State :=
  if setClasses conf then mergeConfs state conf else some state

end SolidIrcd.Blocks
