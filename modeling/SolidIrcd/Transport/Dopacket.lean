import SolidIrcd.Common
import SolidIrcd.Transport.Rc4

/-! What `dopacket` makes of the bytes of a link: deciphered, inflated and cut into lines. -/

namespace SolidIrcd.Transport

abbrev Bytes := List UInt8

def ascii (text : String) : Bytes := text.toList.map fun c => UInt8.ofNat c.toNat

/-- Either ends a line. -/
def isEol (g : UInt8) : Bool := g == 10 || g == 13

/-- `zipInBufSize`. -/
def zipInBufSize : Nat := 131072

/-- zlib, as far as the links use it, with its states for both directions. -/
structure Zlib (D I : Type) where
  deflateInit : D
  /-- `deflate` with `Z_SYNC_FLUSH`. -/
  deflate : D → Bytes → D × Bytes
  inflateInit : I
  /-- `inflate` with room for some bytes: how many bytes it took and what it gave, where it returns `Z_OK`. -/
  inflate : I → Bytes → Nat → Option (I × Nat × Bytes)
  /-- What `inflate` gives when it never lacks room. -/
  feed : I → Bytes → Option (I × Bytes)
  /-- The states of the two ends when all that was deflated has been inflated. -/
  synced : D → I → Prop

/-- What the manual of zlib promises: `inflate` inverts `deflate` on any split of the stream, takes or gives
something as long as there is input, and leaves input only where room is lacking. -/
structure Zlib.Lawful {D I : Type} (zlib : Zlib D I) : Prop where
  start : zlib.synced zlib.deflateInit zlib.inflateInit
  inverts : ∀ d i, zlib.synced d i → ∀ block, ∃ i', zlib.feed i (zlib.deflate d block).2 = some (i', block) ∧
    zlib.synced (zlib.deflate d block).1 i'
  settled : ∀ d i, zlib.synced d i → zlib.feed i [] = some (i, [])
  /-- The empty block at the end of a `Z_SYNC_FLUSH` is taken when the text before it has been given. -/
  prompt : ∀ d i last given, zlib.synced d last → zlib.feed i [] = some (last, given) → given = []
  splits : ∀ i first second, zlib.feed i (first ++ second) =
    (zlib.feed i first).bind fun (i', given) => (zlib.feed i' second).map fun (final, more) => (final, given ++ more)
  inflates : ∀ i input final given, zlib.feed i input = some (final, given) → input ≠ [] →
    ∃ i' taken part, zlib.inflate i input zipInBufSize = some (i', taken, part) ∧
      taken ≤ input.length ∧ part.length ≤ zipInBufSize ∧ (0 < taken ∨ part ≠ []) ∧
      (zlib.feed i' (input.drop taken)).map (fun (last, more) => (last, part ++ more)) = some (final, given) ∧
      (taken < input.length → part.length = zipInBufSize)

/-- `cptr`, as far as `dopacket` looks at it: `buffer` up to `count`, and the state behind each flag. -/
structure Receiver (I : Type) where
  buffer : Bytes
  rc4In : Option Rc4
  zipIn : Option I

/-- What `parse` returns; the state is the one that was set up with the flag. -/
inductive Verdict (I : Type) where
  | flushBuffer
  | zipNextBuffer (session : I)
  | rc4NextBuffer (state : Rc4)
  | other

/-- Where the loop of `dopacket` stops, with the bytes that are left. -/
inductive Stop (I : Type) where
  | done
  | flushed
  | zip (session : I) (rest : Bytes)
  | rc4 (state : Rc4) (rest : Bytes)

variable {τ D I : Type} (zlib : Zlib D I) (parse : τ → Bytes → τ × Verdict I)

/-- The loop of `dopacket` over bytes, up to a line that changes what the rest of them is. -/
def scan : τ → Bytes → Bytes → τ × Bytes × Stop I
  | state, buffer, [] => (state, buffer, .done)
  | state, buffer, g :: rest =>
    if isEol g then
      if buffer = [] then scan state [] rest
      else
        match parse state buffer with
        | (state, .flushBuffer) => (state, [], .flushed)
        | (state, .zipNextBuffer session) => (state, [], .zip session rest)
        | (state, .rc4NextBuffer cipher) => (state, [], .rc4 cipher rest)
        | (state, .other) => scan state [] rest
    else scan state (if buffer.length < bufSize - 1 then buffer ++ [g] else buffer) rest

/-- `zip_input`: the text, and `nbuf`. -/
def zipInput (session : I) (buffer : Bytes) : Option (I × Bytes × Option Bytes) :=
  match zlib.inflate session buffer zipInBufSize with
  | none => none
  | some (session, taken, text) =>
    if taken < buffer.length then
      if text.length ≠ zipInBufSize then none else some (session, text, some (buffer.drop taken))
    else some (session, text, none)

/-- `rc4_process_stream` where the link is encrypted. -/
def crypt (rc4In : Option Rc4) (bytes : Bytes) : Option Rc4 × Bytes :=
  match rc4In with
  | none => (none, bytes)
  | some cipher => (some (rc4ProcessStream cipher bytes).1, (rc4ProcessStream cipher bytes).2)

/-- How `dopacket` ends: with the link as it is then, or with the link exited. -/
inductive Outcome (τ I : Type) where
  | kept (receiver : Receiver I) (state : τ)
  | exited (state : τ)

mutual

/-- `dopacket` from the label `zcontinue` on; the calls are counted. -/
def zcontinue : Nat → Receiver I → τ → Bytes → Option (Outcome τ I)
  | 0, _, _, _ => none
  | calls + 1, receiver, state, buffer =>
    match receiver.zipIn with
    | none => process calls receiver state buffer none
    | some session =>
      match zipInput zlib session buffer with
      | none => some (.exited state)
      | some (session, text, nbuf) => process calls { receiver with zipIn := some session } state text nbuf

/-- The loop of `dopacket`, and what follows it. -/
def process : Nat → Receiver I → τ → Bytes → Option Bytes → Option (Outcome τ I)
  | 0, _, _, _, _ => none
  | calls + 1, receiver, state, text, nbuf =>
    match scan parse state receiver.buffer text with
    | (state, _, .flushed) => some (.exited state)
    | (state, buffer, .rc4 cipher rest) =>
      process calls { receiver with buffer := buffer, rc4In := some (rc4ProcessStream cipher rest).1 } state
        (rc4ProcessStream cipher rest).2 nbuf
    | (state, buffer, .zip session rest) =>
      if rest = [] then process calls { receiver with buffer := buffer, zipIn := some session } state [] nbuf
      else
        match zipInput zlib session rest with
        | none => some (.exited state)
        | some (session, text, nbuf) =>
          process calls { receiver with buffer := buffer, zipIn := some session } state text nbuf
    | (state, buffer, .done) =>
      let receiver := { receiver with buffer := buffer }
      match nbuf with
      | none => some (.kept receiver state)
      | some nbuf => zcontinue calls receiver state nbuf

end

/-- `dopacket` for one read. -/
def dopacket (calls : Nat) (receiver : Receiver I) (state : τ) (buffer : Bytes) : Option (Outcome τ I) :=
  let (rc4In, buffer) := crypt receiver.rc4In buffer
  zcontinue zlib parse calls { receiver with rc4In := rc4In } state buffer

end SolidIrcd.Transport
