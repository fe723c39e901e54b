import SolidIrcd.Recv.SBuf

/-! The loops of `sbuf.c` over a chain of buffers with their offsets and the length kept
beside it. On what the buffers show they are the operations on the chain of `SBuf`. -/

namespace SolidIrcd.Recv

open Scan (Text nul)

/-- An `SBufUser` and its buffer: what `data` holds, `start`, and `end`. -/
structure Part where
  data : Text
  start : Nat
  finish : Nat
  ordered : start ≤ finish
  inside : finish ≤ data.length

namespace Part

def live (part : Part) : Text := (part.data.take part.finish).drop part.start

def shown (part : Part) : SBufUser := ⟨part.live, part.data.length - part.finish⟩

@[simp] theorem length_live (part : Part) : part.live.length = part.finish - part.start := by
  have inside := part.inside
  simp only [live, List.length_drop, List.length_take]
  omega

theorem take_live (part : Part) (few : part.start + n ≤ part.finish) :
    (part.data.take (part.start + n)).drop part.start = part.live.take n := by
  rw [live, List.take_drop, List.take_take, Nat.min_eq_left few]

def moved (part : Part) (start : Nat) (ordered : start ≤ part.finish) : Part :=
  ⟨part.data, start, part.finish, ordered, part.inside⟩

theorem live_moved (part : Part) {ptr : Nat} (ordered : ptr ≤ part.finish) (at_ : ptr = part.start + n) :
    (part.moved ptr ordered).live = part.live.drop n := by
  simp [live, moved, List.drop_drop, at_]

theorem shown_moved (part : Part) {ptr : Nat} (ordered : ptr ≤ part.finish) (at_ : ptr = part.start + n) :
    (part.moved ptr ordered).shown = { part.shown with live := part.live.drop n } := by
  rw [shown, live_moved part ordered at_]
  rfl

end Part

def shown (chain : List Part) : SBuf := chain.map Part.shown

def content (chain : List Part) : Text := (shown chain).bytes

@[simp] theorem content_nil : content [] = [] := rfl

@[simp] theorem content_cons (head : Part) (next : List Part) : content (head :: next) = head.live ++ content next := rfl

/-- A pointer that moves on below `bound` while the byte under it is of one kind. -/
def advance (keep : Char → Bool) (data : Text) (bound ptr : Nat) : Nat :=
  if ptr < bound ∧ data[ptr]?.any keep then advance keep data bound (ptr + 1) else ptr
termination_by bound - ptr

theorem advance_eq (keep : Char → Bool) {data : Text} (inside : bound ≤ data.length) (ptr : Nat) :
    advance keep data bound ptr = ptr + (((data.take bound).drop ptr).takeWhile keep).length := by
  fun_induction advance keep data bound ptr with
  | case1 ptr more ih =>
    obtain ⟨below, kept⟩ := more
    have here : ptr < (data.take bound).length := by
      rw [List.length_take]
      omega
    have byte : keep data[ptr] = true := by
      simpa [List.getElem?_eq_getElem (Nat.lt_of_lt_of_le below inside)] using kept
    rw [ih, List.drop_eq_getElem_cons here, List.takeWhile_cons, List.getElem_take, if_pos byte, List.length_cons]
    omega
  | case2 ptr stop =>
    by_cases below : ptr < bound
    · have here : ptr < (data.take bound).length := by
        rw [List.length_take]
        omega
      have byte : ¬ keep data[ptr] = true := by
        intro kept
        apply stop
        simp [List.getElem?_eq_getElem (Nat.lt_of_lt_of_le below inside), kept, below]
      rw [List.drop_eq_getElem_cons here, List.takeWhile_cons, List.getElem_take, if_neg byte]
      rfl
    · have beyond : (data.take bound).drop ptr = [] := by
        rw [List.drop_eq_nil_iff, List.length_take]
        omega
      rw [beyond]
      rfl

/-- The `while` of `sbuf_delete`. -/
def deleteChain : List Part → (theLength : Nat) → List Part
  | [], _ => []
  | head :: next, theLength =>
    if theLength = 0 then head :: next
    else
      let chunk := min (head.finish - head.start) theLength
      if freed : head.start + chunk = head.finish then deleteChain next (theLength - chunk)
      else deleteChain (head.moved (head.start + chunk) (by have := head.ordered; omega) :: next) (theLength - chunk)
termination_by chain theLength => chain.length + theLength
decreasing_by
  · simp only [List.length_cons]
    omega
  · have ordered := head.ordered
    simp only [List.length_cons]
    omega

/-- The `while` of `sbuf_flush`, with what it makes of `length`. -/
def flushChain : List Part → (length : Nat) → List Part × Nat
  | [], length => ([], length)
  | head :: next, length =>
    let ptr := advance isEol head.data head.finish head.start
    let length := length - (ptr - head.start)
    if more : ptr < head.finish then (head.moved ptr (Nat.le_of_lt more) :: next, length)
    else flushChain next length

/-- The `for` of `sbuf_getmsg`: what it has copied and how much, when it meets a line end. -/
def copyLine : List Part → (theLength copied : Nat) → (theData : Text) → Option (Nat × Text)
  | [], _, _, _ => none
  | user :: next, theLength, copied, theData =>
    if theLength = 0 then none
    else
      let max := min (user.start + theLength) user.finish
      let ptr := advance (!isEol ·) user.data max user.start
      let theData := theData ++ (user.data.take ptr).drop user.start
      let copied := copied + (ptr - user.start)
      if ptr < max then some (copied, theData ++ [nul])
      else copyLine next (theLength - (ptr - user.start)) copied theData

@[simp] theorem shown_nil : shown [] = [] := rfl

@[simp] theorem shown_cons (head : Part) (next : List Part) : shown (head :: next) = head.shown :: shown next := rfl

theorem shown_deleteChain (chain : List Part) (theLength : Nat) :
    shown (deleteChain chain theLength) = sbufDelete (shown chain) theLength := by
  fun_induction deleteChain chain theLength with
  | case1 theLength => rfl
  | case2 head next => simp [sbufDelete]
  | case3 head next theLength left chunk freed ih =>
    have ordered := head.ordered
    have size : head.shown.live.length = head.finish - head.start := head.length_live
    have whole : chunk = head.finish - head.start := by omega
    rw [ih, shown_cons, sbufDelete, if_neg left, size, if_pos (by omega), whole]
  | case4 head next theLength left chunk kept ih =>
    have ordered := head.ordered
    have size : head.shown.live.length = head.finish - head.start := head.length_live
    have part : chunk = theLength := by omega
    rw [ih, shown_cons, shown_cons, Part.shown_moved head _ rfl, part, Nat.sub_self, sbufDelete, if_pos rfl, sbufDelete,
      if_neg left, size, if_neg (by omega)]
    rfl

theorem Part.advance_eq (part : Part) (keep : Char → Bool) :
    advance keep part.data part.finish part.start = part.start + (part.live.takeWhile keep).length :=
  Recv.advance_eq keep part.inside part.start

private theorem dropWhile_eq_drop (keep : Char → Bool) (text : Text) :
    text.dropWhile keep = text.drop (text.takeWhile keep).length := by
  induction text with
  | nil => rfl
  | cons c rest ih => by_cases kept : keep c = true <;> simp [kept, ih]

theorem shown_flushChain (chain : List Part) (length : Nat) :
    shown (flushChain chain length).1 = sbufFlush (shown chain) := by
  fun_induction flushChain chain length with
  | case1 length => rfl
  | case2 head next length ptr left more =>
    have at_ : ptr = _ := head.advance_eq isEol
    have dropped := dropWhile_eq_drop isEol head.live
    have some : head.shown.live.dropWhile isEol ≠ [] := by
      intro gone
      have none := congrArg List.length (dropped.symm.trans gone)
      rw [List.length_drop, head.length_live, List.length_nil] at none
      omega
    rw [shown_cons, shown_cons, head.shown_moved _ at_, sbufFlush, if_neg some, ← dropped]
    rfl
  | case3 head next length ptr left done ih =>
    have at_ : ptr = _ := head.advance_eq isEol
    have gone : head.shown.live.dropWhile isEol = [] := by
      have dropped := dropWhile_eq_drop isEol head.shown.live
      rw [dropped, List.drop_eq_nil_iff]
      have size : head.shown.live.length = _ := head.length_live
      have here : (head.shown.live.takeWhile isEol).length = (head.live.takeWhile isEol).length := rfl
      omega
    rw [ih, shown_cons, sbufFlush, if_pos gone]

/-- The length goes down by what goes. -/
theorem length_flushChain (chain : List Part) (length : Nat) (counted : length = (content chain).length) :
    (flushChain chain length).2 = (content (flushChain chain length).1).length := by
  fun_induction flushChain chain length with
  | case1 length => exact counted
  | case2 head next length ptr left more =>
    have at_ : ptr = _ := head.advance_eq isEol
    rw [content_cons, List.length_append, head.length_live] at counted
    simp only [left, content_cons, List.length_append, head.live_moved _ at_, List.length_drop, head.length_live]
    omega
  | case3 head next length ptr left done ih =>
    apply ih
    have at_ : ptr = _ := head.advance_eq isEol
    have bound := (List.takeWhile_sublist (l := head.live) isEol).length_le
    rw [head.length_live] at bound
    rw [content_cons, List.length_append, head.length_live] at counted
    simp only [left]
    omega

/-- The loop copies what the loop on the bytes finds, and ends it with a NUL. -/
theorem copyLine_eq (chain : List Part) (theLength : Nat) (theData : Text) :
    copyLine chain theLength theData.length theData =
      (sbufCopy (shown chain) theLength theData).map fun line => (line.length, line ++ [nul]) := by
  induction chain generalizing theLength theData with
  | nil => rfl
  | cons user next ih =>
    rw [copyLine, shown_cons, sbufCopy]
    by_cases done : theLength = 0
    · simp [done]
    · have ordered := user.ordered
      have inside := user.inside
      have window : (user.data.take (min (user.start + theLength) user.finish)).drop
        user.start = user.live.take theLength := by
        rw [Part.live, List.take_drop, List.take_take]
      have at_ := advance_eq (!isEol ·)
        (Nat.le_trans (Nat.min_le_right (user.start + theLength) user.finish) inside) user.start
      rw [window] at at_
      have few := (List.takeWhile_prefix (l := user.live.take theLength) (!isEol ·)).length_le
      have bound := List.length_take_le theLength user.live
      have bound' := List.length_take_le' theLength user.live
      have size := user.length_live
      have taken : (user.data.take (user.start + ((user.live.take theLength).takeWhile (!isEol ·)).length)).drop user.start =
          (user.live.take theLength).takeWhile (!isEol ·) := by
        have front := (List.takeWhile_prefix (l := user.live.take theLength) (!isEol ·)).trans (List.take_prefix ..)
        rw [user.take_live (by omega)]
        exact (List.prefix_iff_eq_take.mp front).symm
      have sized : (user.live.take theLength).length = min (user.start + theLength) user.finish - user.start := by
        rw [List.length_take, size]
        omega
      have next := ih (theLength - ((user.live.take theLength).takeWhile (!isEol ·)).length)
        (theData ++ (user.live.take theLength).takeWhile (!isEol ·))
      rw [List.length_append] at next
      have stops : user.start + ((user.live.take theLength).takeWhile (!isEol ·)).length < min
        (user.start + theLength) user.finish ↔
          ((user.live.take theLength).takeWhile (!isEol ·)).length < (user.live.take theLength).length := by
        omega
      have same : user.shown.live = user.live := rfl
      simp only [done, if_false, at_, taken, Nat.add_sub_cancel_left, stops, next, same]
      split
      · simp
      · rfl

/-- The `SBuf` itself: the chain, and `length` beside it. -/
structure Queue where
  chain : List Part
  length : Nat
  counted : length = (content chain).length

namespace Queue

def bytes (queue : Queue) : Text := content queue.chain

/-- `sbuf_flush`. -/
def flush (theBuf : Queue) : Queue :=
  if theBuf.length = 0 then theBuf
  else
    { chain := (flushChain theBuf.chain theBuf.length).1
      length := (flushChain theBuf.chain theBuf.length).2
      counted := length_flushChain theBuf.chain theBuf.length theBuf.counted }

/-- `sbuf_delete`. -/
def delete (theBuf : Queue) (theLength : Nat) : Queue :=
  let theLength := min theLength theBuf.length
  { chain := deleteChain theBuf.chain theLength
    length := theBuf.length - theLength
    counted := by rw [content, shown_deleteChain, bytes_sbufDelete, List.length_drop, theBuf.counted, content] }

/-- `sbuf_getmsg`: what it returns, the text it ends in `theData`, and the queue it leaves. -/
def getmsg (theBuf : Queue) (theLength : Nat) : Nat × Text × Queue :=
  let theBuf := theBuf.flush
  if theBuf.length = 0 then (0, [], theBuf)
  else
    match copyLine theBuf.chain theLength 0 [] with
    | some (copied, theData) => (copied, theData, (theBuf.delete copied).flush)
    | none => (0, [], theBuf)

theorem bytes_flush (theBuf : Queue) : theBuf.flush.bytes = theBuf.bytes.dropWhile isEol := by
  unfold flush
  split
  next empty =>
    have none : theBuf.bytes = [] := List.length_eq_zero_iff.mp (theBuf.counted.symm.trans empty)
    simp [none]
  next => rw [bytes, content, shown_flushChain, bytes_sbufFlush, bytes, content]

theorem bytes_delete (theBuf : Queue) (theLength : Nat) (inside : theLength ≤ theBuf.bytes.length) :
    (theBuf.delete theLength).bytes = theBuf.bytes.drop theLength := by
  have counted : theBuf.length = theBuf.bytes.length := theBuf.counted
  rw [bytes, delete, content, shown_deleteChain, bytes_sbufDelete, Nat.min_eq_left (by omega), bytes, content]

/-- A CR or LF stands at an index of the queue. -/
def eolAt (bytes : Text) (index : Nat) : Bool := bytes[index]?.any isEol

private theorem takeWhile_of_first {bytes : Text} (ended : eolAt bytes n = true) (first : ∀ i < n, eolAt bytes i = false) :
    bytes.takeWhile (!isEol ·) = bytes.take n ∧ n < bytes.length := by
  induction n generalizing bytes with
  | zero =>
    cases bytes with
    | nil => simp [eolAt] at ended
    | cons c rest =>
      have stop : isEol c = true := by simpa [eolAt] using ended
      simp [stop]
  | succ n ih =>
    cases bytes with
    | nil => simp [eolAt] at ended
    | cons c rest =>
      have plain : isEol c = false := by simpa [eolAt] using first 0 (Nat.succ_pos n)
      have ended' : eolAt rest n = true := by simpa [eolAt] using ended
      have first' : ∀ i < n, eolAt rest i = false := by
        intro i below
        simpa [eolAt] using first (i + 1) (Nat.succ_lt_succ below)
      have later := ih ended' first'
      simp [plain, later.1, later.2]

theorem lineWithin_of_first {bytes : Text} (near : n < theLength) (ended : eolAt bytes n = true)
    (first : ∀ i < n, eolAt bytes i = false) : lineWithin bytes theLength = some (bytes.take n) := by
  obtain ⟨line, inside⟩ := takeWhile_of_first ended first
  have size : (bytes.take n).length = n := List.length_take_of_le (Nat.le_of_lt inside)
  simp only [lineWithin, line, size, inside, near, and_self, if_true]

private theorem eolAt_line {bytes : Text} (inside : (bytes.takeWhile (!isEol ·)).length < bytes.length) :
    eolAt bytes (bytes.takeWhile (!isEol ·)).length = true := by
  induction bytes with
  | nil => simp at inside
  | cons c rest ih =>
    by_cases stop : isEol c = true
    · simp [eolAt, stop]
    · have later := ih (by simpa [stop] using inside)
      simpa [eolAt, stop] using later

theorem lineWithin_none {bytes : Text} (far : ∀ n < theLength, eolAt bytes n = false) :
    lineWithin bytes theLength = none := by
  rw [lineWithin, if_neg]
  rintro ⟨inside, near⟩
  have stop := eolAt_line inside
  rw [far _ near] at stop
  cases stop

private theorem copyLine_flush (theBuf : Queue) (theLength : Nat) :
    copyLine theBuf.flush.chain theLength 0 [] =
      (lineWithin (theBuf.bytes.dropWhile isEol) theLength).map fun line => (line.length, line ++ [nul]) := by
  have copied := copyLine_eq theBuf.flush.chain theLength []
  have bytes : (shown theBuf.flush.chain).bytes = theBuf.bytes.dropWhile isEol := theBuf.bytes_flush
  rw [sbufCopy_eq, bytes] at copied
  simpa using copied

variable {theBuf : Queue}

theorem getmsg_of_line (found : lineWithin (theBuf.bytes.dropWhile isEol) theLength = some line) :
    theBuf.getmsg theLength = (line.length, line ++ [nul], (theBuf.flush.delete line.length).flush) := by
  have some : theBuf.flush.length ≠ 0 := by
    intro empty
    have none : theBuf.flush.bytes = [] := List.length_eq_zero_iff.mp (theBuf.flush.counted.symm.trans empty)
    rw [← bytes_flush, none] at found
    simp [lineWithin] at found
  rw [getmsg, if_neg some, copyLine_flush, found]
  rfl

theorem getmsg_of_none (missing : lineWithin (theBuf.bytes.dropWhile isEol) theLength = none) :
    theBuf.getmsg theLength = (0, [], theBuf.flush) := by
  rw [getmsg, copyLine_flush, missing]
  split <;> rfl

/-- Behind leading line ends, a line whose end is near enough is taken out whole, its run of
line ends with it; without one nothing else happens. -/
theorem getmsg_extracts (theBuf : Queue) (theLength : Nat) :
    let bytes := theBuf.bytes.dropWhile isEol
    (∀ n < theLength, eolAt bytes n = true → (∀ i < n, eolAt bytes i = false) →
      (theBuf.getmsg theLength).1 = n ∧ (theBuf.getmsg theLength).2.1 = bytes.take n ++ [nul] ∧
        (theBuf.getmsg theLength).2.2.bytes = (bytes.drop n).dropWhile isEol) ∧
      ((∀ n < theLength, eolAt bytes n = false) →
        (theBuf.getmsg theLength).1 = 0 ∧ (theBuf.getmsg theLength).2.2.bytes = bytes) := by
  intro bytes
  constructor
  · intro n near ended first
    have inside := (takeWhile_of_first ended first).2
    have size : (bytes.take n).length = n := List.length_take_of_le (Nat.le_of_lt inside)
    rw [getmsg_of_line (lineWithin_of_first near ended first), size]
    refine ⟨rfl, rfl, ?_⟩
    simp only [bytes_flush]
    rw [bytes_delete _ _ (by rw [bytes_flush]; exact Nat.le_of_lt inside), bytes_flush]
  · intro far
    rw [getmsg_of_none (lineWithin_none far)]
    exact ⟨rfl, theBuf.bytes_flush⟩

private def split : Queue where
  chain := [⟨"x\r\nab".toList, 1, 5, by decide, by decide⟩, ⟨"c\n\rd".toList, 0, 4, by decide, by decide⟩]
  length := 8
  counted := by decide

theorem getmsg_extracts_split : (split.getmsg 512).1 = 3 ∧ (split.getmsg 512).2.1 = "abc\x00".toList ∧
    (split.getmsg 512).2.2.bytes = "d".toList :=
  (getmsg_extracts split 512).1 3 (by decide) (by decide) (by decide)

end Queue

end SolidIrcd.Recv
