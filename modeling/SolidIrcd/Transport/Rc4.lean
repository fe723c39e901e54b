import Mathlib.Logic.Function.Basic
import SolidIrcd.Lib.Keystream

/-! The cipher of encrypted server links: `rc4.c`. -/

namespace SolidIrcd.Transport

open Function (update)

/-- `struct rc4_state`; indices and values are bytes. -/
structure Rc4 where
  mstate : UInt8 → UInt8
  x : UInt8
  y : UInt8

/-- Two places of `mstate` change their values. -/
def exchange (mstate : UInt8 → UInt8) (first second : UInt8) : UInt8 → UInt8 :=
  update (update mstate first (mstate second)) second (mstate first)

/-- A turn of the second loop of `rc4_initstate`: `mstate`, `idx1` and `idx2`. -/
def mixKey (key : List UInt8) (turn : (UInt8 → UInt8) × UInt8 × UInt8) (i : Nat) : (UInt8 → UInt8) × UInt8 × UInt8 :=
  let (mstate, idx1, idx2) := turn
  let idx2 := key.getD idx1.toNat 0 + mstate (UInt8.ofNat i) + idx2
  let idx1 := idx1 + 1
  (exchange mstate (UInt8.ofNat i) idx2, if key.length ≤ idx1.toNat then 0 else idx1, idx2)

/-- `rc4_initstate`. -/
def rc4Initstate (key : List UInt8) : Rc4 :=
  ⟨((List.range 256).foldl (mixKey key) (id, 0, 0)).1, 0, 0⟩

/-- A turn of the loop of `rc4_process_stream`, up to the byte that is mixed in. -/
def Rc4.next (rc4 : Rc4) : Rc4 × UInt8 :=
  let x := rc4.x + 1
  let a := rc4.mstate x
  let y := rc4.y + a
  let b := rc4.mstate y
  let s := update (update rc4.mstate x b) y a
  (⟨s, x, y⟩, s (a + b))

/-- `rc4_process_stream`, and `rc4_process_stream_to_buf`. -/
def rc4ProcessStream (rc4 : Rc4) (stream : List UInt8) : Rc4 × List UInt8 :=
  Keystream.process Rc4.next (· ^^^ ·) rc4 stream

theorem rc4_append (rc4 : Rc4) (first second : List UInt8) :
    rc4ProcessStream rc4 (first ++ second) =
      ((rc4ProcessStream (rc4ProcessStream rc4 first).1 second).1,
        (rc4ProcessStream rc4 first).2 ++ (rc4ProcessStream (rc4ProcessStream rc4 first).1 second).2) :=
  Keystream.process_append first second

/-- The peer's cipher state reads what this one wrote. -/
theorem rc4_undo (rc4 : Rc4) (stream : List UInt8) :
    rc4ProcessStream rc4 (rc4ProcessStream rc4 stream).2 = ((rc4ProcessStream rc4 stream).1, stream) := by
  apply Keystream.process_process
  intro byte key
  rw [UInt8.xor_assoc, UInt8.xor_self, UInt8.xor_zero]

theorem length_rc4 (rc4 : Rc4) (stream : List UInt8) : (rc4ProcessStream rc4 stream).2.length = stream.length :=
  Keystream.length_process stream

end SolidIrcd.Transport
