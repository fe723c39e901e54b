import SolidIrcd.Conf.Tables
import SolidIrcd.Lib.Machine

/-! The parser of configuration files: `initconf` and `parse_block`, one turn of a loop after the other. A cursor is
the text from it to the NUL of its line. -/

namespace SolidIrcd.Conf

open Scan (Text)

/-- A block with the variables that its function is given, or a file that is included. -/
inductive Item where
  | block (block : TConf) (vars : List CVar)
  | included (filename : Text)
  deriving DecidableEq

structure Env where
  /-- Whether the function of the last block takes its variables. -/
  func : List Item → Bool
  /-- `initconf` of another file, once some items are there: where it succeeds, whether it leaves a comment open. -/
  initconf : List Item → Text → Bool → Option Bool

/-- Where a `parse_block` stands, with `cur`. -/
inductive BlockPhase where
  /-- At its loop; without a cursor for NULL. -/
  | top (cur : Option Text)
  | semicolon (cur : Text)
  | ending (cur : Text)
  /-- At the bracket of a nested block, which may have to succeed. -/
  | nested (strict : Bool) (cur : Text)
  | token (cur : Text)
  | string (cur : Text)
  | variable (cur : Text)
  | value (cur : Text)
  /-- In the `parse_block` of a nested block. -/
  | waiting

/-- A call of `parse_block`: `own` once it has read a line of its own, and `strict` where its caller fails with it. -/
structure Frame where
  block : TConf
  strict : Bool
  phase : BlockPhase
  own : Bool
  b2 : Option TConf
  item : Option SConf
  /-- `vars[0]` to `vars[vnum - 1]`. -/
  vars : List CVar
  /-- `vars[vnum]`. -/
  pending : Option CVar
  clear : Bool
  done : Bool
  skip : Bool
  i : Bool

def Frame.start (block : TConf) (strict : Bool) (cur : Option Text) : Frame :=
  ⟨block, strict, .top cur, false, none, none, [], none, false, false, false, false⟩

/-- Where `initconf` stands, with `cur`. -/
inductive Phase where
  | top (cur : Option Text)
  | including (cur : Text)
  | semicolon (cur : Text)
  | name (cur : Text)
  | opening (cur : Text)
  /-- In a `parse_block`. -/
  | inside

/-- It is `lost` once the cursor has left its line. -/
inductive Outcome where
  | running | accepted | rejected | lost
  deriving DecidableEq, Repr

structure State where
  file : Text
  quote : Bool
  phase : Phase
  block : Option TConf
  clear : Bool
  including : Nat
  /-- The calls of `parse_block`, the innermost first. -/
  stack : List Frame
  /-- What blocks and files there were. -/
  made : List Item
  outcome : Outcome
  /-- A line that is gone was read, or an array was overrun. -/
  astray : Bool

def State.start (quote : Bool) (file : Text) : State := ⟨file, quote, .top none, none, false, 0, [], [], .running, false⟩

def State.reject (state : State) : State := { state with outcome := .rejected }

/-- What stops the name of a block. -/
def nameEnd (c : Char) : Bool := c == ' ' || c == '\n' || c == '{'

def filenameEnd (c : Char) : Bool := c == ' ' || c == '\t' || c == '"' || c == '>' || c == ';' || c == '\n'

def tokenEnd (c : Char) : Bool := c == ' ' || c == ';' || c == '\t' || c == '\n'

section

variable (env : Env) (lineMax : Nat)

/-- The condition of a loop: the cursor stays on its line, or a line is read; and whether one was. -/
def State.line (state : State) : Option Text → Option (Bool × Text × State)
  | some (c :: rest) => some (false, c :: rest, state)
  | _ => (fgets lineMax state.file).map fun (line, file) => (true, line, { state with file := file })

/-! `initconf` -/

/-- `check_quote`, and where it comes to the end of the line, back to the loop. -/
def State.goTo (state : State) (cur : Text) (phase : Text → Phase) : State :=
  match checkQuote state.quote cur with
  | (quote, none) => { state with quote := quote, phase := .top none }
  | (quote, some cur) => { state with quote := quote, phase := phase cur }

/-- The name of a file, without its opening quote. -/
def unquoted : Text → Text
  | '"' :: rest => rest
  | '<' :: rest => rest
  | cur => cur

/-- From `jmp_including` on. -/
def State.include (state : State) (cur : Text) : State :=
  let tok := (unquoted cur).takeWhile (!filenameEnd ·)
  let after := (unquoted cur).dropWhile (!filenameEnd ·)
  let including := if after.head? = some ';' then 0 else state.including + 1
  if tok = [] then state.reject
  else
    match env.initconf state.made tok state.quote with
    | none => state.reject
    | some quote =>
      let state := { state with quote := quote, including := including, made := state.made ++ [Item.included tok] }
      match after with
      | [] => { state with outcome := .lost }
      | _ :: cur => state.goTo cur (if including = 2 then .semicolon else .name)

/-- The name of a block; the loop that looks for its end has no test for the NUL. -/
def State.named (state : State) (cur : Text) : State :=
  let tok := cur.takeWhile (!nameEnd ·)
  match cur.dropWhile (!nameEnd ·) with
  | [] => { state with outcome := .lost }
  | stop :: cur =>
    let state := { state with clear := state.clear || stop == '{' }
    if mycmp "INCLUDE".toList tok then
      if state.clear then state.reject else { state with including := state.including + 1 }.goTo cur .including
    else
      match tconftab.find? (fun block => mycmp block.tok tok) with
      | none => state.reject
      | some block => { state with block := some block }.goTo cur .opening

/-- One part of a turn of `initconf`. -/
def State.initconf (state : State) : State :=
  match state.phase with
  | .top cur =>
    match state.line lineMax cur with
    | none => { state with outcome := if state.clear then .rejected else .accepted }
    | some (_, cur, state) =>
      state.goTo cur (if state.including = 0 then .name else if state.including = 1 then .including else .semicolon)
  | .including cur => state.include env cur
  | .semicolon cur =>
    match cur with
    | ';' :: cur => { state with including := 0 }.goTo cur .name
    | _ => state.reject
  | .name cur => if state.block.isSome then state.goTo cur .opening else state.named cur
  | .opening cur =>
    match cur, state.block with
    | c :: cur, some block =>
      if c = '{' ∨ state.clear = true then { state with phase := .inside, stack := [.start block false (some cur)] }
      else state.reject
    | _, _ => state.reject
  | .inside => state.reject

/-! `parse_block` -/

/-- The first variable that waits is delimited, and the next can come. -/
def Frame.store (frame : Frame) (value : Option Text) : Frame :=
  { frame with
    vars := frame.vars ++ (frame.pending.map fun var => { var with value := value, loaded := 3 }).toList
    pending := none, item := none }

def Frame.load (frame : Frame) (value : Option Text) : Frame :=
  { frame with pending := frame.pending.map fun var => { var with value := value, loaded := 2 } }

/-- What a turn of the loop comes to, with `cur`; nothing where it fails. -/
abbrev Turn := Option (Frame × Option Text)

/-- Behind the value: up to the semicolon, which may stand on a later line. -/
def Frame.delimit (frame : Frame) (value : Text) (cur : Text) : Turn :=
  match cur.dropWhile (· ≠ ';') with
  | [] => some ({ frame.load (some value) with clear := true }, none)
  | _ :: cur => some (frame.store (some value), some cur)

/-- `VARTYPE_NONE`; `cur` comes from `check_quote`, but not where the semicolon was already there. -/
def Frame.bare (frame : Frame) (cur : Option Text) : Turn :=
  if frame.skip then some ({ frame.store none with skip := false }, cur)
  else
    match cur.map (·.dropWhile (· ≠ ';')) with
    | some (_ :: cur) => some (frame.store none, some cur)
    | _ => some ({ frame.load none with clear := true }, none)

/-- `VARTYPE_STRING`. -/
def Frame.quoted (frame : Frame) (cur : Option Text) : Turn :=
  match cur.map (·.dropWhile (· ≠ '"')) with
  | some (_ :: cur) =>
    match cur.dropWhile (· ≠ '"') with
    | [] => none
    | _ :: after => frame.delimit (cur.takeWhile (· ≠ '"')) after
  | _ => some (frame, none)

/-- `VARTYPE_INT`. -/
def Frame.int (frame : Frame) (cur : Option Text) : Turn :=
  match cur with
  | none => some ({ frame with clear := true }, none)
  | some cur =>
    match cur.dropWhile (!tokenEnd ·) with
    | [] => some ({ frame with clear := true }, none)
    | stop :: after =>
      let value := cur.takeWhile (!tokenEnd ·)
      if value.all Char.isDigit then
        some ({ frame.store (some value) with clear := frame.clear || stop != ';' }, some after)
      else none

/-- Behind an opening quote, where there is one. -/
def opened : Text → Text
  | '"' :: rest => rest
  | cur => cur

/-- `VARTYPE_NAME`; the value ends where the first blank or quote is overwritten. -/
def Frame.name (frame : Frame) (cur : Option Text) : Turn :=
  match cur.map opened with
  | none => some ({ frame with clear := true }, none)
  | some cur =>
    let value := cur.takeWhile fun c => !(c == ' ' || c == '"' || c == '\t' || c == ';')
    match cur.dropWhile fun c => !(c == ' ' || c == '"' || c == '\t' || c == ';') with
    | [] => some ({ frame with clear := true }, none)
    | stop :: after => frame.delimit value (stop :: after)

/-- A string behind its quote, or one without. -/
def Frame.freestanding (frame : Frame) (cur : Text) : Turn :=
  if frame.i then
    match cur.dropWhile (· ≠ '"') with
    | [] => none
    | _ :: after =>
      match after.dropWhile (· ≠ ';') with
      | [] => some ({ frame with clear := true }, none)
      | _ :: after => some (frame.store (some (cur.takeWhile (· ≠ '"'))), some after)
  else
    let value := cur.takeWhile fun c => !(c == ' ' || c == ';')
    match cur.dropWhile fun c => !(c == ' ' || c == ';') with
    | [] => some ({ frame with clear := true }, none)
    | stop :: after =>
      match (stop :: after).dropWhile (· = ' ') with
      | [] => some ({ frame.load (some value) with clear := true }, none)
      | ';' :: after => some (frame.store (some value), some after)
      | _ => none

/-- A string of a block that has only such; the flag for the quote is never taken back. -/
def Frame.freeform (frame : Frame) (cur : Text) : Turn :=
  { frame with i := frame.i || cur.head? == some '"' }.freestanding (opened cur)

/-- The value of a token. -/
def Frame.value (frame : Frame) (cur : Option Text) : Turn :=
  match frame.item with
  | none => none
  | some item =>
    match item.var with
    | .none => frame.bare cur
    | .string => frame.quoted cur
    | .int => frame.int cur
    | .name => frame.name cur

/-- A nested block that this one allows. -/
def TConf.nests (block : TConf) (tok : Text) : Option TConf :=
  if block.nest ≠ 0 then
    (tconftab.find? fun b2 => mycmp b2.tok tok).filter fun b2 => block.nest &&& b2.flag != 0
  else none

/-- Which part of the loop comes once nothing is left to delimit. -/
def Frame.undelimited (frame : Frame) : Text → BlockPhase :=
  if frame.done then .ending
  else if frame.block.strings then .string
  else if frame.b2.isSome then .nested false
  else if frame.item.isSome then .value
  else .token

def State.enter (state : State) (frame : Frame) (below : List Frame) : State := { state with stack := frame :: below }

/-- NULL is returned to a caller, which may go on with the next line. -/
def State.fail (state : State) : List Frame → State
  | [] => state.reject
  | [_] => state.reject
  | frame :: caller :: below =>
    if frame.strict then state.fail (caller :: below)
    else state.enter { caller with phase := .top none, b2 := none } below

/-- `check_quote`, and where it comes to the end of the line, back to the loop. -/
def State.turnTo (state : State) (frame : Frame) (below : List Frame) (cur : Text) (phase : Text → BlockPhase) : State :=
  match checkQuote state.quote cur with
  | (quote, none) => { state with quote := quote }.enter { frame with phase := .top none } below
  | (quote, some cur) => { state with quote := quote }.enter { frame with phase := phase cur } below

/-- The function of the block is called, and the cursor is returned, with a `#` for a NUL. -/
def State.finish (state : State) (frame : Frame) (below : List Frame) (cur : Text) : State :=
  let state := { state with made := state.made ++ [Item.block frame.block (frame.vars ++ frame.pending.toList)] }
  if env.func state.made then
    let cur := if cur = [] then ['#'] else cur
    -- a line that this call has read is gone
    let state := { state with astray := state.astray || frame.own }
    match below with
    | [] => { state with stack := [], phase := .top (some cur), clear := false, block := none }
    | caller :: below => state.enter { caller with phase := .top (some cur), b2 := none } below
  else state.fail (frame :: below)

/-- One part of a turn of `parse_block`. -/
def State.parseBlock (state : State) (frame : Frame) (below : List Frame) : State :=
  match frame.phase with
  | .top cur =>
    match state.line lineMax cur with
    | none => state.fail (frame :: below)
    | some (read, cur, state) =>
      let frame := { frame with own := frame.own || read }
      state.turnTo frame below cur (if frame.clear then .semicolon else frame.undelimited)
  | .semicolon cur =>
    match cur with
    | ';' :: cur =>
      let frame := { frame with clear := false }
      let frame := if frame.block.strings then frame else
        { frame with
          vars := frame.vars ++ (frame.pending.map fun var => { var with loaded := 3 }).toList,
            pending := none, item := none }
      state.turnTo frame below cur frame.undelimited
    | _ => state.fail (frame :: below)
  | .ending cur =>
    match cur with
    | ';' :: cur => state.finish env frame below cur
    | _ => state.fail (frame :: below)
  | .nested strict cur =>
    match cur, frame.b2 with
    | '{' :: cur, some b2 =>
      { state with quote := (checkQuote state.quote cur).1 }.enter
        (.start b2 strict (checkQuote state.quote cur).2) ({ frame with phase := .waiting } :: below)
    | _, _ => state.fail (frame :: below)
  | .token cur =>
    match cur with
    | '}' :: cur => state.turnTo { frame with done := true } below cur .ending
    | _ =>
      match cur.dropWhile (!tokenEnd ·) with
      | [] => state.fail (frame :: below)
      | stop :: after =>
        let frame := { frame with skip := frame.skip || stop == ';' }
        match frame.block.nests (cur.takeWhile (!tokenEnd ·)) with
        | some b2 => state.turnTo { frame with b2 := some b2 } below after (.nested true)
        | none =>
          match frame.block.subtok.find? fun item => mycmp item.tok (cur.takeWhile (!tokenEnd ·)) with
          | none => state.fail (frame :: below)
          | some item => state.enter { frame with item := some item, phase := .variable after } below
  | .string cur =>
    match cur with
    | '}' :: cur => state.turnTo { frame with done := true } below cur .ending
    | _ => state.enter { frame with phase := .variable cur } below
  | .variable cur =>
    -- the last place of `vars` is for the NULL behind the variables
    { state with astray := state.astray || decide (maxValues - 1 ≤ frame.vars.length) }.enter
      { frame with pending := some ⟨frame.item, none, 1⟩, phase := .value cur } below
  | .value cur =>
    let delimited := frame.block.strings || frame.skip && (frame.item.map (·.var) == some .none)
    let (quote, rest) := if delimited then (state.quote, some cur) else checkQuote state.quote cur
    let state := { state with quote := quote }
    match if frame.block.strings then frame.freeform cur else frame.value rest with
    | none => state.fail (frame :: below)
    | some (frame, cur) => state.enter { frame with phase := .top cur } below
  | .waiting => state.fail (frame :: below)

def State.step (state : State) : State :=
  match state.stack with
  | [] => state.initconf env lineMax
  | frame :: below => state.parseBlock env lineMax frame below

/-- The parser, which goes on until it accepts the file, rejects it or is lost. -/
def parser : Machine State Unit := ⟨fun state _ => state.step env lineMax, fun state _ => state.outcome = .running⟩

end

end SolidIrcd.Conf
