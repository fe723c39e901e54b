import SolidIrcd.Channel.Collapse
import SolidIrcd.Lib.Census

/-! The blocks of the configuration that are in use: who is attached to which, and how they come and go when the
configuration is read again. A block is freed when nothing refers to it; an access to one that has been freed gives
nothing. -/

namespace SolidIrcd.Blocks

open Scan (Text)
open Mask (matchMask)
open Census (replace)

abbrev Ptr := Nat

structure Limits where
  connfreq : Int
  pingfreq : Int
  maxsendq : Int
  ip24clones : Int
  flags : Nat

/-- `struct Conf_Class`; `maxlinks` is -1 when the class is to go. -/
structure AClass where
  ptr : Ptr
  name : Text
  limits : Limits
  maxlinks : Int
  links : Int
  refs : Int

/-- CONF_FLAGS_I_MATCH_NAME and the like, and the other flags. -/
structure AllowFlags where
  matchName : Bool
  nameHasAt : Bool
  matchHost : Bool
  hostHasAt : Bool
  others : Nat
  deriving DecidableEq

/-- `struct Conf_Allow`; `legal` is -1 when the block is to go. -/
structure AAllow where
  ptr : Ptr
  ipmask : Text
  hostmask : Text
  passwd : Option Text
  port : Nat
  flags : AllowFlags
  className : Option Text
  cls : Ptr
  legal : Int
  clients : Int

/-- `struct Conf_Oper`. -/
structure AOper where
  ptr : Ptr
  nick : Text
  hosts : List Text
  passwd : Text
  flags : Nat
  className : Option Text
  cls : Ptr
  legal : Int
  opers : Int

/-- `struct Conf_Connect`. -/
structure AConnect where
  ptr : Ptr
  name : Text
  host : Text
  apasswd : Text
  cpasswd : Text
  source : Option Text
  port : Nat
  flags : Nat
  className : Option Text
  cls : Ptr
  legal : Int
  acpt : Option Ptr

inductive Status where
  | unknown
  | server
  | person
  deriving DecidableEq

/-- A connection, with the blocks it is attached to. -/
structure AClient where
  ptr : Ptr
  status : Status
  cls : Option Ptr
  allow : Option Ptr
  oper : Option Ptr
  aconn : Option Ptr
  deriving DecidableEq

/-- `next` is an address that is not in use. The references that `merge_opers` forgets are counted in `lost`. -/
structure State where
  classes : List AClass
  allows : List AAllow
  opers : List AOper
  connects : List AConnect
  clients : List AClient
  next : Ptr
  lost : Ptr → Int

def State.classAt (state : State) (ptr : Ptr) : Option AClass := state.classes.find? fun cl => cl.ptr = ptr

def State.allowAt (state : State) (ptr : Ptr) : Option AAllow := state.allows.find? fun allow => allow.ptr = ptr

def State.operAt (state : State) (ptr : Ptr) : Option AOper := state.opers.find? fun oper => oper.ptr = ptr

def State.connectAt (state : State) (ptr : Ptr) : Option AConnect := state.connects.find? fun aconn => aconn.ptr = ptr

def State.clientAt (state : State) (ptr : Ptr) : Option AClient := state.clients.find? fun cptr => cptr.ptr = ptr

/-- `find_class`. -/
def findClass (classes : List AClass) (name : Option Text) : Option AClass :=
  classes.find? fun tmp => mycmp (name.getD "default".toList) tmp.name

/-- `find_aConnect`. -/
def findAConnect (connects : List AConnect) (name : Text) : Option AConnect :=
  connects.find? fun tmp => matchMask name tmp.name

/-- `find_oper_byname`. -/
def findOperByname (opers : List AOper) (name : Text) : Option AOper := opers.find? fun aoper => mycmp name aoper.nick

/-- `expire_class`. -/
def expireClass (classes : List AClass) (cl : Ptr) : List AClass :=
  classes.filter fun ccl => !(decide (ccl.ptr = cl) && (ccl.refs == 0 && ccl.maxlinks == -1))

/-- `refs` and `links` of a class change. -/
def changeClass (classes : List AClass) (cl : Ptr) (links refs : Int) : Option (List AClass) :=
  if classes.any fun ccl => ccl.ptr = cl then
    some (classes.map fun ccl =>
      if ccl.ptr = cl then { ccl with links := ccl.links + links, refs := ccl.refs + refs } else ccl)
  else none

/-- A client leaves its class. -/
def leaveClass (classes : List AClass) : Option Ptr → Option (List AClass)
  | none => some classes
  | some cl => (changeClass classes cl (-1) (-1)).map fun classes => expireClass classes cl

/-- A block that refers to a class goes, or gets another. -/
def dropClass (classes : List AClass) (cl : Ptr) : Option (List AClass) :=
  (changeClass classes cl 0 (-1)).map fun classes => expireClass classes cl

/-- The block for a server in `clear_conflinks`. -/
def clearConnect (state : State) (cptr : AClient) : Option State :=
  match cptr.aconn with
  | none => some state
  | some ptr => do
    let x ← state.connectAt ptr
    let connects := replace AConnect.ptr { x with acpt := none } state.connects
    if x.legal = -1 then
      let classes ← dropClass state.classes x.cls
      some { state with classes := classes, connects := connects.filter fun aconn => aconn.ptr ≠ ptr }
    else some { state with connects := connects }

def clearAllow (state : State) (cptr : AClient) : Option State :=
  match cptr.allow with
  | none => some state
  | some ptr => do
    let x ← state.allowAt ptr
    let allows := replace AAllow.ptr { x with clients := x.clients - 1 } state.allows
    if x.clients - 1 ≤ 0 ∧ x.legal = -1 then
      let classes ← dropClass state.classes x.cls
      some { state with classes := classes, allows := allows.filter fun allow => allow.ptr ≠ ptr }
    else some { state with allows := allows }

def clearOper (state : State) (cptr : AClient) : Option State :=
  match cptr.oper with
  | none => some state
  | some ptr => do
    let y ← state.operAt ptr
    let opers := replace AOper.ptr { y with opers := y.opers - 1 } state.opers
    if y.legal = -1 ∧ y.opers - 1 ≤ 0 then
      let classes ← dropClass state.classes y.cls
      some { state with classes := classes, opers := opers.filter fun oper => oper.ptr ≠ ptr }
    else some { state with opers := opers }

/-- `clear_conflinks`. -/
def clearConflinks (state : State) (cptr : AClient) : Option State := do
  let classes ← leaveClass state.classes cptr.cls
  let state := { state with classes := classes }
  if cptr.status = .server then clearConnect state cptr
  else do
    let state ← clearAllow state cptr
    clearOper state cptr

/-- `exit_client`, of a connection. -/
def exitClient (state : State) (cptr : AClient) : Option State :=
  clearConflinks { state with clients := state.clients.filter fun other => other.ptr ≠ cptr.ptr } cptr

/-- The class that `set_effective_class` finds. -/
def effectiveClass (state : State) (cptr : AClient) : Option Ptr :=
  if cptr.status = .server then do
    let ptr ← cptr.aconn
    let aconn ← state.connectAt ptr
    some aconn.cls
  else
    match cptr.oper, cptr.allow with
    | some ptr, _ => (state.operAt ptr).map AOper.cls
    | none, some ptr => (state.allowAt ptr).map AAllow.cls
    | none, none => (findClass state.classes none).map AClass.ptr

/-- `set_effective_class`. -/
def setEffectiveClass (state : State) (cptr : AClient) : Option State := do
  let classes ← leaveClass state.classes cptr.cls
  let cl ← effectiveClass { state with classes := classes } cptr
  let classes ← changeClass classes cl 1 1
  some { state with classes := classes, clients := replace AClient.ptr { cptr with cls := some cl } state.clients }

/-- What `attach_Iline` knows of a connection; `hp` is the name of the host. -/
structure Who where
  username : Text
  sockhost : Text
  hp : Option Text
  port : Nat

/-- Whether an allow is for a connection. -/
def AAllow.suits (allow : AAllow) (who : Who) : Bool :=
  let user (host : Text) := who.username ++ '@' :: host
  (allow.port == 0 || allow.port == who.port) &&
    ((allow.flags.matchName &&
        if allow.flags.nameHasAt then
          who.hp.any (fun name => matchMask allow.hostmask (user name)) || matchMask allow.hostmask (user who.sockhost)
        else who.hp.any (fun name => matchMask allow.hostmask name) || matchMask allow.hostmask who.sockhost) ||
      (allow.flags.matchHost &&
        if allow.flags.hostHasAt then matchMask allow.ipmask (user who.sockhost)
        else matchMask allow.ipmask who.sockhost))

/-- `attach_Iline`; without an allow, or when its class is full, the connection is refused. -/
def attachIline (state : State) (cptr : AClient) (who : Who) : Option (State × Option AClient) :=
  match state.allows.find? fun allow => decide (allow.legal ≠ -1) && allow.suits who with
  | none => some (state, none)
  | some allow => do
    let cl ← state.classAt allow.cls
    if cl.links ≥ cl.maxlinks then some (state, none)
    else
      let cptr := { cptr with allow := some allow.ptr }
      some ({ state with
        allows := replace AAllow.ptr { allow with clients := allow.clients + 1 } state.allows
        clients := replace AClient.ptr cptr state.clients }, some cptr)

/-- `register_user`, of a connection of this server; `passes` is what comes of all else that is checked. -/
def registerUser (state : State) (cptr : AClient) (who : Who) (passes : Bool) : Option State := do
  let (state, attached) ← attachIline state cptr who
  match attached with
  | none => exitClient state cptr
  | some cptr =>
    if !passes then exitClient state cptr
    else
      let cptr := { cptr with status := .person }
      setEffectiveClass { state with clients := replace AClient.ptr cptr state.clients } cptr

/-- `find_oper`. -/
def findOper (opers : List AOper) (name username sockhost hostip : Text) : Option AOper :=
  opers.find? fun aoper => decide (aoper.legal ≠ -1) && aoper.hosts.any fun host =>
    mycmp name aoper.nick &&
      (matchMask host (username ++ '@' :: sockhost) || matchMask host (username ++ '@' :: hostip))

/-- `m_oper`, of a user that is no operator and gives the right password. -/
def mOper (state : State) (cptr : AClient) (name username sockhost hostip : Text) : Option State :=
  match findOper state.opers name username sockhost hostip with
  | none => some state
  | some aoper =>
    let cptr := { cptr with oper := some aoper.ptr }
    setEffectiveClass { state with
      opers := replace AOper.ptr { aoper with opers := aoper.opers + 1 } state.opers
      clients := replace AClient.ptr cptr state.clients } cptr

/-- The end of `m_umode`, of an operator that is one no more. -/
def mUmode (state : State) (cptr : AClient) : Option State := do
  let state ← setEffectiveClass state cptr
  let cptr ← state.clientAt cptr.ptr
  let ptr ← cptr.oper
  let aoper ← state.operAt ptr
  let cptr := { cptr with oper := none }
  setEffectiveClass { state with
    opers := replace AOper.ptr { aoper with opers := aoper.opers - 1 } state.opers
    clients := replace AClient.ptr cptr state.clients } cptr

/-- `check_server_init`, of a connection whose address is right. -/
def checkServerInit (state : State) (cptr : AClient) (name : Text) : Option State :=
  match findAConnect state.connects name with
  | none => exitClient state cptr
  | some aconn =>
    let cptr := { cptr with aconn := some aconn.ptr }
    setEffectiveClass { state with
      connects := replace AConnect.ptr { aconn with acpt := some cptr.ptr } state.connects
      clients := replace AClient.ptr cptr state.clients } cptr

/-- The beginning of `do_server_estab`. -/
def doServerEstab (state : State) (cptr : AClient) : Option State :=
  let cptr := { cptr with status := .server }
  setEffectiveClass { state with clients := replace AClient.ptr cptr state.clients } cptr

end SolidIrcd.Blocks
