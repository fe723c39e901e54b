import SolidIrcd.Common

/-! `parse` of `parse.c` as it walks the line buffer: every value its cursors
take and every pointer it reads, writes or passes on is recorded in order. -/

namespace SolidIrcd.Parse

open Scan

/-- A pointer value: NULL, a position in the line buffer, a position in the
static `sender` array, or an offset from NULL. -/
inductive Ptr where
  | null
  | line (offset : Nat)
  | sender (offset : Nat)
  | wild (offset : Nat)
  deriving DecidableEq, Repr

inductive Cursor where
  | ch | s | para
  deriving DecidableEq, Repr

/-- A cursor takes a value, or a pointer is used: dereferenced, subtracted
from `bufend`, or handed to a string function or a `%s`. -/
inductive Event where
  | take (cursor : Cursor) (value : Ptr)
  | use (value : Ptr)
  deriving DecidableEq, Repr

/-- The message table only has to tell `m_private` from the other handlers. -/
inductive Handler where
  | mPrivate
  | other
  deriving DecidableEq, Repr

/-- What `parse` reads of a `struct Message`. -/
structure Message where
  cmd : Text
  func : Handler
  parameters : Nat
  unreg : Bool
  deriving DecidableEq, Repr

/-- A client found for the prefix of a line that came from a server. -/
structure Origin where
  behindLink : Bool
  isPerson : Bool
  deriving DecidableEq, Repr

/-- The sending connection. -/
structure Client where
  isDead : Bool
  status : Status
  isPerson : Bool
  deriving DecidableEq, Repr

structure Env where
  findClient : Text → Option Origin
  treeParse : Text → Option Message

inductive Outcome where
  | dead | unknownPrefix | fakeDirection | empty | unknownCommand
  | numeric (number : Nat) | notRegistered | dispatch (command : Text)
  deriving DecidableEq, Repr

/-- A run of `parse`: what its pointers did, how it ended, the offsets stored
in `para[1]` on, and the buffer it leaves behind. -/
structure Run where
  trace : List Event
  outcome : Outcome
  para : List Nat
  bytes : Text
  deriving DecidableEq, Repr

/-- A loop that moves a cursor byte by byte and looks at every byte on the way. -/
def walk (cursor : Cursor) (first last : Nat) : List Event :=
  (List.range' first (last + 1 - first)).flatMap fun offset =>
    [.take cursor (.line offset), .use (.line offset)]

/-- `while (*s == ' ') *s++ = '\0'`: the bytes of a range become NUL. -/
def blank (bytes : Text) (first last : Nat) : Text :=
  bytes.take first ++ List.replicate (last - first) nul ++ bytes.drop last

/-- The parameter loop; `room` is `paramcount - i`. -/
def paramLoop : (room : Nat) → (bytes : Text) → (s : Nat) → List Event × List Nat × Text
  | room, bytes, s =>
    let start := scan (· == ' ') bytes s
    let bytes := blank bytes s start
    let skipping := walk .s s start
    if bytes[start]? = some nul then (skipping, [], bytes)
    else if bytes[start]? = some ':' then
      (skipping ++ [.take .para (.line (start + 1))], [start + 1], bytes)
    else
      let stored := skipping ++ [.take .para (.line start)]
      match room with
      | 0 | 1 => (stored ++ [.use (.line start)], [start], bytes)
      | room + 2 =>
        let stop := scan (skipped ' ') bytes start
        let (trace, para, bytes) := paramLoop (room + 1) bytes stop
        (stored ++ walk .s start stop ++ trace, start :: para, bytes)

/-- `IsDigit(*ch) && IsDigit(ch[1]) && IsDigit(ch[2]) && ch[3] == ' '`. -/
def isNumeric : Text → Bool
  | first :: second :: third :: blank :: _ =>
    blank == ' ' && isDigit first && isDigit second && isDigit third
  | _ => false

def numericOf (text : Text) : Nat :=
  (text.take 3).foldl (fun number digit => number * 10 + (digit.toNat - '0'.toNat)) 0

/-- `!strncasecmp(s, "raw ", 4)`. -/
def isRaw (text : Text) : Bool := (text.take 4).map Char.toLower == "raw ".toList

/-- `if (s)`: without a space behind the command there are no parameters. -/
def readParams (room : Nat) (bytes : Text) : Option Nat → List Event × List Nat × Text
  | none => ([], [], bytes)
  | some s => paramLoop room bytes s

/-- From the parameter loop on: the parameters, then the numeric, the refusal
of an unregistered client, which quotes `ch`, or the handler. -/
def finish (cptr : Client) (mptr : Option Message) (number : Nat) (bytes : Text)
    (ch : Ptr) (s : Option Nat) : Run :=
  let paramcount := min ((mptr.map Message.parameters).getD maxPara) maxPara
  let (trace, para, bytes) := readParams (paramcount - 1) bytes s
  match mptr with
  | none => ⟨trace, .numeric number, para, bytes⟩
  | some message =>
    if !cptr.status.isRegistered && !message.unreg then
      ⟨trace ++ [.use ch], .notRegistered, para, bytes⟩
    else ⟨trace, .dispatch message.cmd, para, bytes⟩

def prepend (trace : List Event) (run : Run) : Run := { run with trace := trace ++ run.trace }

/-- The label `reparse`: the command word at `ch`, and `PRIVMSG raw`, which
re-seats `ch` behind the next colon and starts over. Without a colon `index`
returns NULL and the increment in `if (ch++)` leaves an offset from NULL. -/
def reparse (env : Env) (cptr : Client) (isPerson : Bool) (bytes : Text) (ch : Nat) : Run :=
  if isNumeric (bytes.drop ch) then
    prepend [.use (.line ch), .take .s (.line (ch + 3)), .use (.line (ch + 3)),
        .take .s (.line (ch + 4))]
      (finish cptr none (numericOf (bytes.drop ch)) (bytes.set (ch + 3) nul) (.line ch)
        (some (ch + 4)))
  else
    match _separated : find ' ' bytes ch with
    | none =>
      let looked := [.use (.line ch), .take .s .null]
      match env.treeParse (textAt bytes ch) with
      | none => ⟨looked ++ (if isPerson then [.use (.line ch)] else []), .unknownCommand, [], bytes⟩
      | some message =>
        prepend (looked ++ [.use (.line ch)])
          (finish cptr (some message) 0 bytes (.line ch) none)
    | some space =>
      let cut := bytes.set space nul
      let s := space + 1
      let looked := [.use (.line ch), .take .s (.line space), .use (.line space), .take .s (.line s)]
      match env.treeParse (textAt cut ch) with
      | none => ⟨looked ++ (if isPerson then [.use (.line ch)] else []), .unknownCommand, [], cut⟩
      | some message =>
        if message.func = .mPrivate ∧ isRaw (textAt cut s) then
          match tunnel : find ':' cut s with
          | some colon =>
            prepend (looked ++ [.use (.line s), .take .ch (.line colon), .take .ch (.line (colon + 1))])
              (reparse env cptr isPerson cut (colon + 1))
          | none =>
            prepend (looked ++ [.use (.line s), .take .ch .null, .take .ch (.wild 1), .use (.line s)])
              (finish cptr (some message) 0 cut (.wild 1) (some s))
        else
          prepend (looked ++ [.use (.line s)])
            (finish cptr (some message) 0 cut (.line ch) (some s))
termination_by bytes.length - ch
decreasing_by
  have before := le_of_find _separated
  have after := le_of_find tunnel
  have inside := lt_length_of_find tunnel
  simp only [cut, List.length_set] at inside ⊢
  omega

/-- The empty-line test and the command word, with the client the line is from. -/
def command (env : Env) (cptr : Client) (isPerson : Bool) (bytes : Text) (ch : Nat) : Run :=
  if bytes[ch]? = some nul then ⟨[.use (.line ch)], .empty, [], bytes⟩
  else prepend [.use (.line ch)] (reparse env cptr isPerson bytes ch)

/-- `parse`. The prefix of a line is copied to `sender`, at most `HOSTLEN`
bytes of it; only a server's prefix decides whom the line is from. -/
def parse (env : Env) (cptr : Client) (bytes : Text) : Run :=
  if cptr.isDead then ⟨[], .dead, [], bytes⟩
  else
    let ch := scan (· == ' ') bytes 0
    let opening := [.take .s (.sender 0)] ++ walk .ch 0 ch
    if bytes[ch]? = some ':' then
      let stop := scan (skipped ' ') bytes (ch + 1)
      let sender := ((bytes.drop (ch + 1)).take (stop - (ch + 1))).take hostLen
      let copying := walk .ch (ch + 1) stop ++
        (List.range (sender.length + 1)).map fun offset => .take .s (.sender offset)
      let next := scan (· == ' ') bytes stop
      let rest := walk .ch stop next
      if sender ≠ [] ∧ cptr.status = .server then
        match env.findClient sender with
        | none => ⟨opening ++ copying, .unknownPrefix, [], bytes⟩
        | some origin =>
          if origin.behindLink then
            prepend (opening ++ copying ++ rest) (command env cptr origin.isPerson bytes next)
          else ⟨opening ++ copying, .fakeDirection, [], bytes⟩
      else prepend (opening ++ copying ++ rest) (command env cptr cptr.isPerson bytes next)
    else prepend opening (command env cptr cptr.isPerson bytes ch)

end SolidIrcd.Parse
