import SolidIrcd.Common

/-! The receive queue of `sbuf.c`: a chain of fixed-size buffers with the live
bytes of each, and the same operations on the bytes alone. -/

namespace SolidIrcd.Recv

open Scan (Text)

def sbufLarge : Nat := 512
def sbufSmall : Nat := 256

/-- `IsEol`. -/
def isEol (c : Char) : Bool := c == '\r' || c == '\n'

/-- A buffer of the chain: the bytes from `start` to `end`, and the room behind them. -/
structure SBufUser where
  live : Text
  room : Nat

abbrev SBuf := List SBufUser

def SBuf.bytes (buf : SBuf) : Text := buf.flatMap SBufUser.live

/-- `SBufLength`. -/
def SBuf.length (buf : SBuf) : Nat := buf.bytes.length

/-- The size of the buffer `sbuf_alloc` returns. -/
def sbufAlloc (size : Nat) : Nat := if sbufSmall ≤ size then sbufLarge else sbufSmall

/-- The new buffers `sbuf_put` chains on for the data that is left. -/
def sbufFresh (data : Text) : SBuf :=
  if _done : data = [] then []
  else
    let size := sbufAlloc data.length
    ⟨data.take size, size - data.length⟩ :: sbufFresh (data.drop size)
termination_by data.length
decreasing_by
  have positive : 0 < data.length := List.length_pos_iff.mpr _done
  have sized : 0 < sbufAlloc data.length := by
    unfold sbufAlloc
    split <;> decide
  simp only [List.length_drop]
  omega

/-- `sbuf_put`: the room of the tail first, then new buffers. -/
def sbufPut : SBuf → Text → SBuf
  | [], data => sbufFresh data
  | [tail], data =>
    ⟨tail.live ++ data.take tail.room, tail.room - data.length⟩ :: sbufFresh (data.drop tail.room)
  | user :: rest, data => user :: sbufPut rest data

/-- `sbuf_delete`. -/
def sbufDelete : SBuf → Nat → SBuf
  | [], _ => []
  | user :: rest, length =>
    if length = 0 then user :: rest
    else if user.live.length ≤ length then sbufDelete rest (length - user.live.length)
    else { user with live := user.live.drop length } :: rest

/-- `sbuf_flush`: the leading line ends go. -/
def sbufFlush : SBuf → SBuf
  | [] => []
  | user :: rest =>
    let live := user.live.dropWhile isEol
    if live = [] then sbufFlush rest else { user with live := live } :: rest

/-- The copying loop of `sbuf_getmsg`. -/
def sbufCopy : SBuf → (theLength : Nat) → (copied : Text) → Option Text
  | [], _, _ => none
  | user :: rest, theLength, copied =>
    if theLength = 0 then none
    else
      let window := user.live.take theLength
      let taken := window.takeWhile (!isEol ·)
      if taken.length < window.length then some (copied ++ taken)
      else sbufCopy rest (theLength - taken.length) (copied ++ taken)

/-- `sbuf_getmsg`: a line, when its end is among the next `theLength` bytes. -/
def sbufGetmsg (buf : SBuf) (theLength : Nat) : Option Text × SBuf :=
  let buf := sbufFlush buf
  match sbufCopy buf theLength [] with
  | none => (none, buf)
  | some line => (some line, sbufFlush (sbufDelete buf line.length))

/-- The bytes up to the first line end, when that is among the next `theLength`. -/
def lineWithin (bytes : Text) (theLength : Nat) : Option Text :=
  let line := bytes.takeWhile (!isEol ·)
  if line.length < bytes.length ∧ line.length < theLength then some line else none

/-- `sbuf_getmsg` on the bytes of the queue. -/
def getmsg (bytes : Text) (theLength : Nat) : Option Text × Text :=
  let bytes := bytes.dropWhile isEol
  match lineWithin bytes theLength with
  | none => (none, bytes)
  | some line => (some line, (bytes.drop line.length).dropWhile isEol)

@[simp] theorem bytes_nil : SBuf.bytes [] = [] := rfl

@[simp] theorem bytes_cons (user : SBufUser) (rest : SBuf) :
    SBuf.bytes (user :: rest) = user.live ++ SBuf.bytes rest := rfl

theorem bytes_sbufFresh (data : Text) : (sbufFresh data).bytes = data := by
  induction size : data.length using Nat.strongRecOn generalizing data with
  | _ size ih =>
    rw [sbufFresh]
    split
    · rename_i done
      simp [done]
    · rename_i more
      have positive : 0 < data.length := List.length_pos_iff.mpr more
      have sized : 0 < sbufAlloc data.length := by
        unfold sbufAlloc
        split <;> decide
      have rest := ih (data.length - sbufAlloc data.length) (by omega) (data.drop (sbufAlloc data.length))
        (by simp)
      simp [rest]

theorem bytes_sbufPut (buf : SBuf) (data : Text) : (sbufPut buf data).bytes = buf.bytes ++ data := by
  induction buf with
  | nil => simp [sbufPut, bytes_sbufFresh]
  | cons user rest ih =>
    cases rest with
    | nil => simp [sbufPut, bytes_sbufFresh]
    | cons next more => simpa [sbufPut] using ih

theorem bytes_sbufDelete (buf : SBuf) (length : Nat) :
    (sbufDelete buf length).bytes = buf.bytes.drop length := by
  induction buf generalizing length with
  | nil => simp [sbufDelete]
  | cons user rest ih =>
    unfold sbufDelete
    split
    · rename_i none
      simp [none]
    · split
      · rename_i whole
        simp [ih, List.drop_append, List.drop_of_length_le whole]
      · rename_i part
        have inside : length - user.live.length = 0 := by omega
        simp [List.drop_append, inside]

theorem bytes_sbufFlush (buf : SBuf) : (sbufFlush buf).bytes = buf.bytes.dropWhile isEol := by
  induction buf with
  | nil => rfl
  | cons user rest ih =>
    simp only [sbufFlush, bytes_cons, List.dropWhile_append]
    by_cases gone : user.live.dropWhile isEol = []
    · simp only [gone, ↓reduceIte, ih, List.isEmpty_nil]
    · simp [gone]

private theorem takeWhile_take (keep : Char → Bool) (text : Text) (n : Nat) :
    (text.take n).takeWhile keep = (text.takeWhile keep).take n := by
  induction text generalizing n with
  | nil => simp
  | cons head rest ih =>
    cases n with
    | zero => simp
    | succ n => by_cases kept : keep head = true <;> simp [kept, ih]

private theorem lineWithin_of_ended {live : Text} (rest : Text) (theLength : Nat)
    (ended : (live.takeWhile (!isEol ·)).length < live.length) :
    lineWithin (live ++ rest) theLength =
      if (live.takeWhile (!isEol ·)).length < theLength then some (live.takeWhile (!isEol ·))
      else none := by
  have line : (live ++ rest).takeWhile (!isEol ·) = live.takeWhile (!isEol ·) := by
    rw [List.takeWhile_append, if_neg (Nat.ne_of_lt ended)]
  have inside : (live.takeWhile (!isEol ·)).length < (live ++ rest).length := by
    simp only [List.length_append]
    omega
  simp only [lineWithin, line, inside, true_and]

private theorem lineWithin_of_whole {live : Text} (rest : Text) (theLength : Nat)
    (whole : live.takeWhile (!isEol ·) = live) :
    lineWithin (live ++ rest) theLength = (lineWithin rest (theLength - live.length)).map (live ++ ·) := by
  have line : (live ++ rest).takeWhile (!isEol ·) = live ++ rest.takeWhile (!isEol ·) := by
    rw [List.takeWhile_append, if_pos (by rw [whole])]
  have same : ((live ++ rest.takeWhile (!isEol ·)).length < (live ++ rest).length ∧
      (live ++ rest.takeWhile (!isEol ·)).length < theLength) ↔
      ((rest.takeWhile (!isEol ·)).length < rest.length ∧
        (rest.takeWhile (!isEol ·)).length < theLength - live.length) := by
    simp only [List.length_append]
    omega
  simp only [lineWithin, line, same]
  split <;> simp

private theorem lineWithin_zero (bytes : Text) : lineWithin bytes 0 = none := by simp [lineWithin]

/-- The copying loop looks for a line end among the bytes. -/
theorem sbufCopy_eq (buf : SBuf) (theLength : Nat) (copied : Text) :
    sbufCopy buf theLength copied = (lineWithin buf.bytes theLength).map (copied ++ ·) := by
  induction buf generalizing theLength copied with
  | nil => simp [sbufCopy, lineWithin]
  | cons user rest ih =>
    have bound := (List.takeWhile_sublist (l := user.live) (!isEol ·)).length_le
    unfold sbufCopy
    by_cases done : theLength = 0
    · simp [done, lineWithin_zero]
    simp only [done, ↓reduceIte, takeWhile_take, bytes_cons, ih]
    by_cases ended : (user.live.takeWhile (!isEol ·)).length < user.live.length
    · rw [lineWithin_of_ended _ _ ended]
      by_cases near : (user.live.takeWhile (!isEol ·)).length < theLength
      · rw [List.take_of_length_le (Nat.le_of_lt near), if_pos near,
          if_pos (by simp only [List.length_take]; omega), Option.map_some]
      · have exhausted : theLength - (List.take theLength (user.live.takeWhile (!isEol ·))).length = 0 := by
          simp only [List.length_take]
          omega
        rw [if_neg near, if_neg (by simp only [List.length_take]; omega), exhausted, lineWithin_zero]
        rfl
    · have whole : user.live.takeWhile (!isEol ·) = user.live :=
        (List.takeWhile_prefix _).eq_of_length (by omega)
      rw [lineWithin_of_whole _ _ whole, whole, if_neg (Nat.lt_irrefl _)]
      by_cases near : user.live.length < theLength
      · simp [List.take_of_length_le (Nat.le_of_lt near), Function.comp_def]
      · have exhausted : theLength - (List.take theLength user.live).length = 0 := by
          simp only [List.length_take]
          omega
        have nothing : theLength - user.live.length = 0 := by omega
        rw [exhausted, nothing, lineWithin_zero]
        rfl

/-- However the bytes are spread over buffers, `sbuf_getmsg` works on the bytes. -/
theorem sbufGetmsg_eq (buf : SBuf) (theLength : Nat) :
    (sbufGetmsg buf theLength).1 = (getmsg buf.bytes theLength).1 ∧
      (sbufGetmsg buf theLength).2.bytes = (getmsg buf.bytes theLength).2 := by
  have flushed := bytes_sbufFlush buf
  unfold sbufGetmsg getmsg
  simp only [sbufCopy_eq, flushed, List.nil_append, Option.map_id_fun', id_eq]
  cases lineWithin (buf.bytes.dropWhile isEol) theLength with
  | none => simp [flushed]
  | some line => simp [bytes_sbufFlush, bytes_sbufDelete, flushed]

end SolidIrcd.Recv
