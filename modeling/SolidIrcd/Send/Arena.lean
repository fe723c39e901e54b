import SolidIrcd.Lib.FreeList
import SolidIrcd.Recv.SBuf
import Mathlib.Data.Multiset.Count
import Mathlib.Data.Multiset.AddSub
import Mathlib.Logic.Function.Basic

/-! The memory of `sbuf.c`: the blocks of its two sizes of buffers and of the nodes of the
queues, the free lists and the statistics of `memcount_sbuf`. A queue is a chain of nodes; a
buffer may be shared by nodes of many queues, and goes back to its pool with the last. -/

namespace SolidIrcd.Sbuf

open Scan (Text)
open Function (update)
open Recv (isEol sbufLarge sbufSmall)

/-- `struct _SBuffer`: the bytes from its base to `end`. -/
structure Buffer where
  data : Text
  bufsize : Nat
  refcount : Nat
  shared : Bool
  deriving DecidableEq, Repr

/-- SBUF_SMALL_BUFFER and SBUF_LARGE_BUFFER. -/
inductive Size where
  | small
  | large
  deriving DecidableEq, Repr

def Size.bytes : Size → Nat
  | .small => sbufSmall
  | .large => sbufLarge

/-- `sizeof(SBuffer)`, of pointers with eight bytes. -/
def sbufBase : Nat := 32

/-- How many buffers `sbuf_allocblock_small` and `sbuf_allocblock_large` make. -/
def blockCount (theMemorySize total : Nat) : Nat :=
  (if theMemorySize % total ≠ 0 then theMemorySize + total else theMemorySize) / total

/-- INITIAL_SBUFS_SMALL and INITIAL_SBUFS_LARGE are both two megabytes. -/
def Size.count (size : Size) : Nat := blockCount 2097152 (sbufBase + size.bytes)

/-- INITIAL_SBUFS_USERS. -/
def userCount : Nat := 256

/-- An `SBuffer` pointer: the size class and the number in it. -/
abbrev Handle := Size × Nat

/-- A `SBufUser`, by the number it has among all of them; `start` counts from the base of
the buffer. -/
structure Node where
  number : Nat
  buf : Handle
  start : Nat
  deriving DecidableEq, Repr

/-- `SBuf`, with the nodes from head to tail. -/
structure Queue where
  length : Int
  nodes : List Node
  deriving DecidableEq, Repr

structure Arena where
  buffers : Handle → Buffer
  pools : Size → FreeList
  users : FreeList

/-- `sbuf_init`; what `malloc` gives is not cleared. -/
def Arena.sbufInit (memory : Handle → Buffer) : Arena :=
  ⟨memory, fun size => FreeList.empty.grow size.count, FreeList.empty.grow userCount⟩

def Arena.modify (arena : Arena) (buf : Handle) (change : Buffer → Buffer) : Arena :=
  { arena with buffers := update arena.buffers buf (change (arena.buffers buf)) }

/-- `sbuf_alloc`. -/
def Arena.sbufAlloc (arena : Arena) (theSize : Nat) : Handle × Arena :=
  let size : Size := if sbufSmall ≤ theSize then .large else .small
  let taken := (arena.pools size).take size.count
  let popped : Arena := { arena with pools := update arena.pools size taken.2 }
  ((size, taken.1), popped.modify (size, taken.1) fun _ => ⟨[], size.bytes, 0, false⟩)

def Arena.giveBack (arena : Arena) (size : Size) (item : Nat) : Arena :=
  { arena with pools := update arena.pools size ((arena.pools size).give item) }

/-- `sbuf_free`, into the pool that the size of the buffer says. -/
def Arena.sbufFree (arena : Arena) (buf : Handle) : Arena :=
  if (arena.buffers buf).bufsize = sbufLarge then arena.giveBack .large buf.2
  else if (arena.buffers buf).bufsize = sbufSmall then arena.giveBack .small buf.2
  else arena

/-- `sbuf_user_alloc`. -/
def Arena.sbufUserAlloc (arena : Arena) : Nat × Arena :=
  ((arena.users.take userCount).1, { arena with users := (arena.users.take userCount).2 })

/-- `sbuf_user_free`. -/
def Arena.sbufUserFree (arena : Arena) (number : Nat) : Arena := { arena with users := arena.users.give number }

/-- The bytes a node still has to give. -/
def Arena.live (arena : Arena) (node : Node) : Text := (arena.buffers node.buf).data.drop node.start

def Arena.content (arena : Arena) (nodes : List Node) : Text := nodes.flatMap arena.live

def Arena.room (arena : Arena) (node : Node) : Nat :=
  (arena.buffers node.buf).bufsize - (arena.buffers node.buf).data.length

/-- A node that is done: its buffer goes with the last node, unless it is being shared. -/
def Arena.release (arena : Arena) (node : Node) : Arena :=
  let arena := arena.modify node.buf fun buffer => { buffer with refcount := buffer.refcount - 1 }
  let arena :=
    if (arena.buffers node.buf).refcount = 0 ∧ (arena.buffers node.buf).shared = false then arena.sbufFree node.buf
    else arena
  arena.sbufUserFree node.number

/-- `memcpy` to the end of a buffer. -/
def Arena.append (arena : Arena) (buf : Handle) (chunk : Text) : Arena :=
  arena.modify buf fun buffer => { buffer with data := buffer.data ++ chunk }

/-- The bytes of a shared message. -/
def shareText (theData : Text) : Text := theData.take 510 ++ ['\r', '\n']

/-- `sbuf_begin_share`. -/
def Arena.sbufBeginShare (arena : Arena) (theData : Text) : Handle × Arena :=
  let (buf, arena) := arena.sbufAlloc ((theData.take 510).length + 2)
  (buf, arena.modify buf fun buffer =>
    { buffer with data := buffer.data ++ shareText theData, refcount := 0, shared := true })

/-- One turn of the loop of `sbuf_end_share`. -/
def Arena.unshare (arena : Arena) (buf : Handle) : Arena :=
  let arena := arena.modify buf fun buffer => { buffer with shared := false }
  if (arena.buffers buf).refcount = 0 then arena.sbufFree buf else arena

/-- `sbuf_put_share`. -/
def Arena.sbufPutShare (arena : Arena) (theBuf : Queue) (buf : Handle) : Arena × Queue :=
  let arena := arena.modify buf fun buffer => { buffer with refcount := buffer.refcount + 1 }
  let (number, arena) := arena.sbufUserAlloc
  let user : Node := ⟨number, buf, 0⟩
  (arena, { length := theBuf.length + (arena.buffers buf).data.length
            nodes := if theBuf.length = 0 then [user] else theBuf.nodes ++ [user] })

/-- A new node with a new buffer. -/
def Arena.newNode (arena : Arena) (theLength : Nat) : Node × Arena :=
  let (number, arena) := arena.sbufUserAlloc
  let (buf, arena) := arena.sbufAlloc theLength
  (⟨number, buf, 0⟩, arena.modify buf fun buffer => { buffer with refcount := 1 })

/-- The loop of `sbuf_put` once it is past the last node. -/
def Arena.putLoop (arena : Arena) (nodes : List Node) (theData : Text) : Arena × List Node :=
  if _done : theData = [] then (arena, nodes)
  else
    let size := Recv.sbufAlloc theData.length
    let fresh := arena.newNode theData.length
    (fresh.2.append fresh.1.buf (theData.take size)).putLoop (nodes ++ [fresh.1]) (theData.drop size)
termination_by theData.length
decreasing_by
  have positive : 0 < theData.length := List.length_pos_iff.mpr _done
  have sized : 0 < Recv.sbufAlloc theData.length := by
    unfold Recv.sbufAlloc
    split <;> decide
  simp only [List.length_drop]
  omega

/-- The loop of `sbuf_put` from its last node on. -/
def Arena.putOnto (arena : Arena) (nodes : List Node) (last : Node) (theData : Text) : Arena × List Node :=
  (arena.append last.buf (theData.take (arena.room last))).putLoop nodes (theData.drop (arena.room last))

/-- `sbuf_put`. A queue without bytes has one node at most, so that its head is its tail. -/
def Arena.sbufPut (arena : Arena) (theBuf : Queue) (theData : Text) : Arena × Queue :=
  let put := match theBuf.nodes.getLast? with
    | none => arena.putLoop [] theData
    | some last =>
      if (arena.buffers last.buf).refcount > 1 then
        let fresh := arena.newNode theData.length
        fresh.2.putOnto (theBuf.nodes ++ [fresh.1]) fresh.1 theData
      else arena.putOnto theBuf.nodes last theData
  (put.1, ⟨theBuf.length + theData.length, put.2⟩)

/-- The loop of `sbuf_delete`. -/
def Arena.deleteLoop (arena : Arena) : List Node → Nat → Arena × List Node
  | [], _ => (arena, [])
  | head :: rest, theLength =>
    if theLength = 0 then (arena, head :: rest)
    else if (arena.live head).length ≤ theLength then
      (arena.release head).deleteLoop rest (theLength - (arena.live head).length)
    else (arena, { head with start := head.start + theLength } :: rest)

/-- `sbuf_delete`. -/
def Arena.sbufDelete (arena : Arena) (theBuf : Queue) (theLength : Nat) : Arena × Queue :=
  let theLength := min theLength theBuf.length.toNat
  let deleted := arena.deleteLoop theBuf.nodes theLength
  (deleted.1, ⟨theBuf.length - theLength, deleted.2⟩)

/-- The loop of `sbuf_flush`, and how many bytes it skips. -/
def Arena.flushLoop (arena : Arena) : List Node → Arena × List Node × Nat
  | [] => (arena, [], 0)
  | head :: rest =>
    let skipped := ((arena.live head).takeWhile isEol).length
    if skipped < (arena.live head).length then (arena, { head with start := head.start + skipped } :: rest, skipped)
    else
      let flushed := (arena.release head).flushLoop rest
      (flushed.1, flushed.2.1, skipped + flushed.2.2)

/-- `sbuf_flush`. -/
def Arena.sbufFlush (arena : Arena) (theBuf : Queue) : Arena × Queue :=
  if theBuf.length = 0 then (arena, theBuf)
  else
    let flushed := arena.flushLoop theBuf.nodes
    (flushed.1, ⟨theBuf.length - flushed.2.2, flushed.2.1⟩)

/-- The nodes as the copying loop of `sbuf_getmsg` sees them. -/
def Arena.view (arena : Arena) (nodes : List Node) : Recv.SBuf :=
  nodes.map fun node => ⟨arena.live node, arena.room node⟩

/-- `sbuf_getmsg`. -/
def Arena.sbufGetmsg (arena : Arena) (theBuf : Queue) (theLength : Nat) : Option Text × Arena × Queue :=
  let flushed := arena.sbufFlush theBuf
  if flushed.2.length = 0 then (none, flushed)
  else
    match Recv.sbufCopy (flushed.1.view flushed.2.nodes) theLength [] with
    | none => (none, flushed)
    | some line =>
      let deleted := flushed.1.sbufDelete flushed.2 line.length
      (some line, deleted.1.sbufFlush deleted.2)

/-- The loop of `sbuf_get`. A turn that finds no bytes in the head would go on for ever;
the turns are counted. -/
def Arena.getLoop : Nat → Arena → Queue → Nat → Text → Text × Arena × Queue
  | 0, arena, theBuf, _, copied => (copied, arena, theBuf)
  | turns + 1, arena, theBuf, theLength, copied =>
    if theLength = 0 ∨ theBuf.length = 0 then (copied, arena, theBuf)
    else
      match theBuf.nodes with
      | [] => (copied, arena, theBuf)
      | head :: _ =>
        let chunk := (arena.live head).take theLength
        let deleted := arena.sbufDelete theBuf chunk.length
        getLoop turns deleted.1 deleted.2 (theLength - chunk.length) (copied ++ chunk)

/-- `sbuf_get`. -/
def Arena.sbufGet (arena : Arena) (theBuf : Queue) (theLength : Nat) : Text × Arena × Queue :=
  Arena.getLoop theLength arena theBuf theLength []

end SolidIrcd.Sbuf
