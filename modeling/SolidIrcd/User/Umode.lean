import SolidIrcd.Common
import Mathlib.Data.Finset.Basic
import Mathlib.Data.Finset.Card

/-! User modes: the table of `s_user.c`, the masks of `struct.h`, `send_umode`,
and every handler that gives or takes a mode. -/

namespace SolidIrcd.Umode

open Scan (Text)

/-- The `UMODE_` bits. `D` is the hidden one that the table leaves out. -/
inductive UMode where
  | a | h | i | o | r | w | A | x | X | F | j | K | O | s | c | k | f | y | d | g | b | n | m
  | e | D | Y | C | W | v | H | z | R
  deriving DecidableEq, Repr

def UMode.letter : UMode → Char
  | .a => 'a' | .h => 'h' | .i => 'i' | .o => 'o' | .r => 'r' | .w => 'w' | .A => 'A' | .x => 'x'
  | .X => 'X' | .F => 'F' | .j => 'j' | .K => 'K' | .O => 'O' | .s => 's' | .c => 'c' | .k => 'k'
  | .f => 'f' | .y => 'y' | .d => 'd' | .g => 'g' | .b => 'b' | .n => 'n' | .m => 'm' | .e => 'e'
  | .D => 'D' | .Y => 'Y' | .C => 'C' | .W => 'W' | .v => 'v' | .H => 'H' | .z => 'z' | .R => 'R'

abbrev UModes := Finset UMode

/-- `user_modes`, with `DCCALLOW` and `NO_OPER_FLOOD` as `config.h` sets them. -/
def userModes (build : Build) : List UMode :=
  [.o, .O, .i, .w, .s, .c, .r, .R, .k, .y, .d, .e, .g, .b, .a, .A, .f, .n, .m, .h, .F, .x, .X, .j,
   .K, .v, .Y, .C, .H, .W] ++ if build.haveSsl then [.z] else []

/-- `ALL_UMODES`. -/
def allUmodes : UModes :=
  {.w, .a, .i, .v, .o, .r, .A, .Y, .R, .h, .s, .c, .k, .K, .f, .y, .d, .g, .b, .n, .m, .O, .C, .z,
   .H, .F, .j, .e, .W}

/-- `SEND_UMODES`. -/
def sendUmodes : UModes := allUmodes

/-- `USER_UMODES`. -/
def selfUmodes : UModes := {.i, .v, .R, .Y}

/-- `OPER_UMODES`. -/
def operUmodes : UModes :=
  {.a, .b, .c, .d, .e, .f, .g, .h, .j, .m, .n, .y, .A, .F, .K, .H, .C, .W, .s, .w}

def lookupUmode (build : Build) (letter : Char) : Option UMode :=
  (userModes build).find? fun flag => flag.letter == letter

/-- The `OFLAG_` bits that decide about user modes. -/
inductive OFlag where
  | admin | sadmin | umodec | umodef | umodey | umoded | umodeb | umodeF
  | groute | gkill | gnotice | gline | ungline
  deriving DecidableEq, Repr

/-- `OFLAG_ISGLOBAL`. -/
def isGlobal (flags : Finset OFlag) : Bool :=
  .groute ∈ flags ∨ .gkill ∈ flags ∨ .gnotice ∈ flags ∨ .sadmin ∈ flags ∨ .umodeF ∈ flags ∨
    .gline ∈ flags ∨ .ungline ∈ flags

/-- A registered user, as far as its modes are concerned. -/
structure User where
  /-- `MyClient`. -/
  mine : Bool
  umode : UModes
  oflag : Finset OFlag
  /-- `real_oper_host` is set. -/
  masked : Bool
  /-- The allow block has `CONF_FLAGS_FORCEFLOOD`. -/
  forceFlood : Bool
  /-- `CanUmodez`. -/
  ssl : Bool
  deriving DecidableEq

def User.isAnOper (user : User) : Bool := .o ∈ user.umode ∨ .O ∈ user.umode

inductive Change where
  | add | del
  deriving DecidableEq, Repr

/-- The loop of `send_umode`; `what` is the sign written last. -/
def umodeLetters (mine : Bool) (umode old sendmask : UModes) :
    Option Change → List UMode → Text
  | _, [] => []
  | what, flag :: rest =>
    if mine ∧ flag ∉ sendmask then umodeLetters mine umode old sendmask what rest
    else if flag ∈ old ∧ flag ∉ umode then
      (if what = some .del then [flag.letter] else ['-', flag.letter]) ++
        umodeLetters mine umode old sendmask (some .del) rest
    else if flag ∉ old ∧ flag ∈ umode then
      (if what = some .add then [flag.letter] else ['+', flag.letter]) ++
        umodeLetters mine umode old sendmask (some .add) rest
    else umodeLetters mine umode old sendmask what rest

/-- `send_umode`: the text it leaves in `umode_buf`. -/
def sendUmode (build : Build) (user : User) (old sendmask : UModes) : Text :=
  umodeLetters user.mine user.umode old sendmask none (userModes build)

/-- The modes of a `NICK` introduction: the letters of `parv[4]` behind its sign. -/
def nickUmodes (build : Build) (parv4 : Text) : UModes :=
  (((parv4.drop 1).filterMap (lookupUmode build)).filter (· ∈ sendUmodes)).toFinset

/-- What a local registration depends on. -/
structure Signon where
  /-- The modes in `atoi(host)` of the `USER` line. -/
  wanted : UModes
  autoUmodev : Bool
  autoUmodeR : Bool
  classUmodev : Bool
  masked : Bool
  forceFlood : Bool
  ssl : Bool

/-- A mode that is set under a condition. -/
def given (condition : Bool) (mode : UMode) : UModes := if condition then {mode} else ∅

/-- The modes of a new local user after `do_user` and `register_user`. -/
def signonUmodes (build : Build) (signon : Signon) : UModes :=
  let asked := (selfUmodes ∩ signon.wanted) ∪ {.i} ∪ given signon.autoUmodev .v ∪
    given signon.autoUmodeR .R ∪ given (build.haveSsl && signon.ssl) .z
  (asked \ {.k, .s}) ∪ given signon.forceFlood .F ∪ given signon.classUmodev .v ∪
    given signon.masked .W

theorem given_subset {modes : UModes} (member : mode ∈ modes) (condition : Bool) :
    given condition mode ⊆ modes := by
  unfold given
  split
  · simpa using member
  · simp

def User.ofSignon (build : Build) (signon : Signon) : User :=
  { mine := true
    umode := signonUmodes build signon
    oflag := ∅
    masked := signon.masked
    forceFlood := signon.forceFlood
    ssl := signon.ssl }

def User.ofNick (build : Build) (parv4 : Text) : User :=
  { mine := false
    umode := nickUmodes build parv4
    oflag := ∅
    masked := false
    forceFlood := false
    ssl := false }

/-- One character of the mode string in `m_umode`. -/
def umodeChar (build : Build) (mine : Bool) (state : Change × UModes) (c : Char) : Change × UModes :=
  match c with
  | '+' => (.add, state.2)
  | '-' => (.del, state.2)
  | ' ' | '\r' | '\n' | '\t' | 'r' | 'x' | 'X' => state
  | c =>
    if c = 'z' ∧ build.haveSsl then state
    else
      -- setting +A sets +a as well
      let umode := if c = 'A' ∧ mine ∧ state.1 = .add then insert .a state.2 else state.2
      match lookupUmode build c with
      | none => (state.1, umode)
      | some flag => (state.1, if state.1 = .add then insert flag umode else umode.erase flag)

/-- The oper modes a local user keeps, and the forced ones, at the end of `m_umode`. -/
def User.settle (user : User) : User :=
  let umode := if user.isAnOper then user.umode else user.umode \ (operUmodes ∪ {.k, .s})
  let without (flag : UMode) (needs : OFlag) (umode : UModes) : UModes :=
    if needs ∈ user.oflag then umode else umode.erase flag
  let umode := without .A .admin <| without .a .sadmin <| without .f .umodef <| without .c .umodec <|
    without .j .umodec <| without .y .umodey <| without .d .umoded <| without .b .umodeb <|
    without .F .umodeF umode
  let umode := if user.masked ∨ user.isAnOper then umode else umode.erase .W
  { user with umode := if user.forceFlood then insert .F umode else umode }

/-- `m_umode` of a user for itself; a remote user's `MODE` comes from a server
and is taken as it is. `letUmodez` is `FLAGS_LETUMODE_z`. -/
def mUmode (build : Build) (letUmodez : Bool) (user : User) (letters : Text) : User :=
  let setflags := user.umode ∩ (userModes build).toFinset
  let changed := (letters.foldl (umodeChar build user.mine) (.add, user.umode)).2
  if user.mine then
    let changed := if .o ∈ setflags then changed else changed.erase .o
    let changed := if .O ∈ setflags then changed else changed.erase .O
    let dropped := (.o ∈ setflags ∨ .O ∈ setflags) ∧ .o ∉ changed ∧ .O ∉ changed
    let oflag := if dropped then ∅ else user.oflag
    let changed :=
      if !build.haveSsl then changed
      else
        let changed := if !letUmodez ∧ .z ∈ setflags ∧ user.ssl then insert .z changed else changed
        if user.ssl then changed else changed.erase .z
    { user with umode := changed, oflag := oflag }.settle
  else { user with umode := changed }

/-- One character of the mode string in `m_svsmode`. -/
def svsmodeChar (build : Build) (state : Change × User) (c : Char) : Change × User :=
  let (what, user) := state
  match c with
  | '+' => (.add, user)
  | '-' => (.del, user)
  | ' ' | '\n' | '\r' | '\t' | 'd' | 'T' => (what, user)
  | c =>
    match lookupUmode build c with
    | none => (what, user)
    | some flag =>
      if what = .add then
        if flag = .o ∨ flag = .O then (what, user)
        else (what, { user with umode := insert flag user.umode })
      else if flag ∈ user.umode then
        let left := { user with umode := user.umode.erase flag }
        let deopered := user.mine ∧ (flag = .o ∨ flag = .O) ∧ !left.isAnOper
        (what, if deopered then { left with oflag := ∅ } else left)
      else (what, user)

/-- `m_svsmode` for a user. -/
def mSvsmode (build : Build) (user : User) (letters : Text) : User :=
  (letters.foldl (svsmodeChar build) (.add, user)).2

/-- `m_oper` with the flags of the oper block whose password was given. A remote
user that is no oper yet becomes one on its server's word. -/
def mOper (user : User) (flags : Finset OFlag) : User :=
  if !user.mine ∧ .o ∉ user.umode then { user with umode := user.umode ∪ {.o, .h} }
  else if user.mine ∧ user.isAnOper then user
  else
    let level : UModes := if isGlobal flags then {.o} else {.O}
    let extra : UModes :=
      if .sadmin ∈ flags then {.a, .A, .o}
      else if .admin ∈ flags then {.A, .o}
      else level
    { user with umode := user.umode ∪ level ∪ {.s, .g, .w, .n, .h} ∪ extra, oflag := flags }

/-- `m_svhost`. -/
def mSvhost (user : User) : User := { user with umode := insert .v user.umode }

/-- A nick change to another name. -/
def User.renamed (user : User) : User := { user with umode := user.umode.erase .r }

end SolidIrcd.Umode
