import SolidIrcd.Lib.Machine
import SolidIrcd.Transport.Dopacket

/-! What `send_message` and `send_queued` put on the queue of a server link, with the lines at which the
stages of its output begin. -/

namespace SolidIrcd.Transport

/-- `cptr`, as far as its output goes: `rc4_out` and `zip_out` behind their flags, the latter with what `z->buf`
holds, and `sendQ` with all that was ever put on it. -/
structure Sender (D : Type) where
  sendQ : Bytes
  rc4Out : Option Rc4
  zipOut : Option (D × Bytes)

def zipMinBlock : Nat := 1024

def zipMaxBlock : Nat := 8192

variable {D I : Type} (zlib : Zlib D I) (key : Bytes)

namespace Zlink

/-- `struct zipped_link_out`: `buf` up to `bufsize`. -/
structure ZippedLinkOut (D : Type) where
  stream : D
  buf : Bytes

/-- What `zip_output` returns: no output, a block, or an error. -/
inductive Result where
  | held
  | block (output : Bytes)
  | error
  deriving DecidableEq

/-- `zip_output`; `largedata` is what its argument points at, if it points at anything, and `deflate` may fail. -/
def zipOutput (deflate : D → Bytes → Option (D × Bytes)) (z : ZippedLinkOut D) (buffer : Option Bytes)
    (forceflush : Bool) (largedata : Option Int) : ZippedLinkOut D × Result :=
  let buf := z.buf ++ buffer.getD []
  if !forceflush && (buf.length < zipMinBlock || largedata.isSome && buf.length < zipMaxBlock - 512) then
    ({ z with buf := buf }, .held)
  else
    match deflate z.stream buf with
    | some (stream, output) => (⟨stream, []⟩, .block output)
    | none => ({ z with buf := buf }, .error)

end Zlink

/-- `zip_output` with a compressor that does not fail; its callers always have a place for `largedata`. -/
def zipOutput (session : D × Bytes) (buffer : Bytes) (forceflush : Bool) : (D × Bytes) × Bytes :=
  match Zlink.zipOutput (fun stream block => some (zlib.deflate stream block)) ⟨session.1, session.2⟩ (some buffer)
    forceflush (some 0) with
  | (z, .block output) => ((z.stream, z.buf), output)
  | (z, .held) | (z, .error) => ((z.stream, z.buf), [])

/-- `rc4_process_stream_to_buf` where the link is encrypted, and `sbuf_put`. -/
def Sender.put (sender : Sender D) (msg : Bytes) : Sender D :=
  { sender with rc4Out := (crypt sender.rc4Out msg).1, sendQ := sender.sendQ ++ (crypt sender.rc4Out msg).2 }

/-- `send_message` to a server, also while it negotiates; `sbuf` where a shared buffer holds the message. -/
def sendMessage (sender : Sender D) (msg : Bytes) (sbuf : Bool) : Sender D :=
  if !sbuf || sender.zipOut.isSome || sender.rc4Out.isSome then
    let msg := if 510 < msg.length then msg.take 511 ++ [10] else msg ++ [10]
    match sender.zipOut with
    | none => sender.put msg
    | some session =>
      let (session, msg) := zipOutput zlib session msg false
      { sender with zipOut := some session }.put msg
  else { sender with sendQ := sender.sendQ ++ (msg.take 510 ++ [13, 10]) }

/-- `send_queued`, as far as it puts something on the queue. -/
def sendQueued (sender : Sender D) : Sender D :=
  match sender.zipOut with
  | none => sender
  | some session =>
    if session.2 = [] then sender
    else
      let (session, msg) := zipOutput zlib session [] true
      { sender with zipOut := some session }.put msg

/-- What the link sends, next to the lines as they leave `send_message`. -/
structure Output (D : Type) where
  sender : Sender D
  sent : List Bytes

inductive Event where
  | sendMessage (msg : Bytes) (sbuf : Bool)
  | sendQueued
  | dkeyDone
  | svinfoZip

def dkeyDone : Bytes := ascii "DKEY DONE"

def svinfoZip : Bytes := ascii "SVINFO ZIP"

/-- The line `send_message` makes of a message. -/
def Sender.lineOf (sender : Sender D) (msg : Bytes) (sbuf : Bool) : Bytes :=
  if !sbuf || sender.zipOut.isSome || sender.rc4Out.isSome then msg.take 511 else msg.take 510

def Output.perform (output : Output D) : Event → Output D
  | .sendMessage msg sbuf =>
    { sender := sendMessage zlib output.sender msg sbuf, sent := output.sent ++ [output.sender.lineOf msg sbuf] }
  | .sendQueued => { output with sender := sendQueued zlib output.sender }
  | .dkeyDone =>
    { sender := { sendMessage zlib output.sender dkeyDone false with rc4Out := some (rc4Initstate key) }
      sent := output.sent ++ [dkeyDone] }
  | .svinfoZip =>
    { sender := { sendMessage zlib output.sender svinfoZip false with zipOut := some (zlib.deflateInit, []) }
      sent := output.sent ++ [svinfoZip] }

/-- A line of the protocol that begins no stage. -/
def Plain (msg : Bytes) : Prop :=
  msg ≠ [] ∧ (∀ g ∈ msg, isEol g = false) ∧ msg ≠ dkeyDone ∧ msg ≠ svinfoZip

/-- The stages begin once each, and encryption before compression. -/
def Output.possible (output : Output D) : Event → Prop
  | .sendMessage msg _ => Plain msg
  | .sendQueued => True
  | .dkeyDone => output.sender.rc4Out = none ∧ output.sender.zipOut = none
  | .svinfoZip => output.sender.zipOut = none

/-- The output of a link, from when it is connected; `key` is what the ends share for it. -/
def output : Machine (Output D) Event := ⟨Output.perform zlib key, Output.possible⟩

def Output.fresh : Output D := ⟨⟨[], none, none⟩, []⟩

/-- What waits in `z->buf`. -/
def Sender.waiting (sender : Sender D) : Bytes := (sender.zipOut.map Prod.snd).getD []

end SolidIrcd.Transport
