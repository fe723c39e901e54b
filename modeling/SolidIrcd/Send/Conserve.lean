import SolidIrcd.Lib.Machine
import SolidIrcd.Send.Arena
import Mathlib.Algebra.BigOperators.Group.Finset.Basic
import Mathlib.Algebra.Order.BigOperators.Group.Finset

/-! No buffer and no node of `sbuf.c` is lost, freed twice or used again while a queue has
it, whatever the queues do. -/

namespace SolidIrcd.Sbuf

open Scan (Text)
open Function (update)
open Recv (isEol sbufLarge sbufSmall)

/-- How many of the nodes have the buffer. -/
def refs (all : Multiset Node) (buf : Handle) : Nat := (all.map Node.buf).count buf

/-- A node has the buffer, or it is being shared. -/
def Taken (all : Multiset Node) (opened : Handle → Prop) (buf : Handle) : Prop := 0 < refs all buf ∨ opened buf

/-- A buffer of this size with this many nodes. -/
structure Fits (buffer : Buffer) (size : Size) (users : Nat) (opened : Prop) : Prop where
  refcount : buffer.refcount = users
  shared : buffer.shared = true ↔ opened
  bufsize : buffer.bufsize = size.bytes
  room : buffer.data.length ≤ buffer.bufsize

/-- The arena with these nodes in the queues and these shares. -/
structure Arena.Sound (arena : Arena) (all : Multiset Node) (opened : Handle → Prop) : Prop where
  users : arena.users.Balanced (· ∈ all.map Node.number)
  distinct : (all.map Node.number).Nodup
  pools : ∀ size, (arena.pools size).Balanced fun item => Taken all opened (size, item)
  fits : ∀ buf, Taken all opened buf → Fits (arena.buffers buf) buf.1 (refs all buf) (opened buf)
  live : ∀ node ∈ all, arena.live node ≠ []
  text : ∀ buf, opened buf → (arena.buffers buf).data ≠ []

section

variable {arena after : Arena} {all : Multiset Node} {opened : Handle → Prop} {node : Node} {buf : Handle}

theorem refs_cons (node : Node) (all : Multiset Node) (buf : Handle) :
    refs (node ::ₘ all) buf = refs all buf + if buf = node.buf then 1 else 0 := by
  rw [refs, Multiset.map_cons, Multiset.count_cons]
  rfl

theorem refs_pos (member : node ∈ all) : 0 < refs all node.buf :=
  Multiset.count_pos.mpr (Multiset.mem_map_of_mem Node.buf member)

theorem Taken.of_mem (member : node ∈ all) : Taken all opened node.buf := .inl (refs_pos member)

theorem taken_cons : Taken (node ::ₘ all) opened buf ↔ Taken all opened buf ∨ buf = node.buf := by
  unfold Taken
  rw [refs_cons]
  by_cases same : buf = node.buf
  · simp [same]
  · simp [same]

@[simp] theorem buffers_modify_self (arena : Arena) (buf : Handle) (change : Buffer → Buffer) :
    (arena.modify buf change).buffers buf = change (arena.buffers buf) := by
  simp [Arena.modify]

theorem buffers_modify_ne (arena : Arena) (change : Buffer → Buffer) (differ : other ≠ buf) :
    (arena.modify buf change).buffers other = arena.buffers other := by
  simp [Arena.modify, differ]

/-- A change that leaves the bytes leaves all bytes. -/
theorem data_modify (arena : Arena) (buf other : Handle) (change : Buffer → Buffer)
    (same : ∀ buffer, (change buffer).data = buffer.data) :
    ((arena.modify buf change).buffers other).data = (arena.buffers other).data := by
  by_cases equal : other = buf
  · subst equal
    rw [buffers_modify_self, same]
  · rw [buffers_modify_ne arena change equal]

theorem live_congr (same : (after.buffers node.buf).data = (arena.buffers node.buf).data) :
    after.live node = arena.live node := by
  rw [Arena.live, Arena.live, same]

@[simp] theorem buffers_sbufFree (arena : Arena) (buf : Handle) : (arena.sbufFree buf).buffers = arena.buffers := by
  unfold Arena.sbufFree
  split
  · rfl
  · split <;> rfl

@[simp] theorem users_sbufFree (arena : Arena) (buf : Handle) : (arena.sbufFree buf).users = arena.users := by
  unfold Arena.sbufFree
  split
  · rfl
  · split <;> rfl

theorem sbufFree_eq (sized : (arena.buffers buf).bufsize = buf.1.bytes) :
    arena.sbufFree buf = arena.giveBack buf.1 buf.2 := by
  obtain ⟨size, item⟩ := buf
  unfold Arena.sbufFree
  rw [sized]
  cases size with
  | small => rfl
  | large => rfl

/-- A buffer that nobody has any more is back in its pool. -/
theorem pools_free (taken : Handle → Prop) {taken' : Handle → Prop}
    (pools : ∀ size, (arena.pools size).Balanced fun item => taken (size, item))
    (sized : (arena.buffers buf).bufsize = buf.1.bytes) (here : taken buf)
    (fewer : ∀ other, taken' other ↔ taken other ∧ other ≠ buf) (size : Size) :
    ((arena.sbufFree buf).pools size).Balanced fun item => taken' (size, item) := by
  rw [sbufFree_eq sized]
  obtain ⟨size', item⟩ := buf
  by_cases same : size = size'
  · subst same
    simp only [Arena.giveBack, Function.update_self]
    refine (pools size).give here fun other => ?_
    rw [fewer]
    simp
  · simp only [Arena.giveBack, Function.update_of_ne same]
    refine (pools size).congr fun other => ?_
    rw [fewer]
    simp [same]

theorem Arena.Sound.release (sound : arena.Sound (node ::ₘ all) opened) : (arena.release node).Sound all opened := by
  have taken : Taken (node ::ₘ all) opened node.buf := .of_mem (Multiset.mem_cons_self ..)
  obtain ⟨refcount, shared, bufsize, room⟩ := sound.fits node.buf taken
  have distinct := sound.distinct
  rw [Multiset.map_cons, Multiset.nodup_cons] at distinct
  rw [refs_cons, if_pos rfl] at refcount
  generalize lowered : (arena.modify node.buf fun buffer => { buffer with refcount := buffer.refcount - 1 }) = low
  have same (other : Handle) : (low.buffers other).data = (arena.buffers other).data := by
    rw [← lowered]
    exact data_modify arena node.buf other _ fun _ => rfl
  have count : (low.buffers node.buf).refcount = refs all node.buf := by
    rw [← lowered, buffers_modify_self, refcount]
    rfl
  have open' : (low.buffers node.buf).shared = true ↔ opened node.buf := by
    rw [← lowered, buffers_modify_self]
    exact shared
  have sized : (low.buffers node.buf).bufsize = node.buf.1.bytes := by
    rw [← lowered, buffers_modify_self]
    exact bufsize
  have pools : low.pools = arena.pools := by
    rw [← lowered]
    rfl
  have users : low.users = arena.users := by
    rw [← lowered]
    rfl
  have fits (buf : Handle) (here : Taken all opened buf) : Fits (low.buffers buf) buf.1 (refs all buf) (opened buf) := by
    by_cases equal : buf = node.buf
    · subst equal
      refine ⟨count, open', sized, ?_⟩
      rw [← lowered, buffers_modify_self]
      exact room
    · have old := sound.fits buf (taken_cons.mpr (.inl here))
      rw [refs_cons, if_neg equal, Nat.add_zero] at old
      rw [← lowered, buffers_modify_ne _ _ equal]
      exact old
  have given : (low.users.give node.number).Balanced (· ∈ all.map Node.number) := by
    rw [users]
    refine sound.users.give (by simp) fun item => ?_
    rw [Multiset.map_cons, Multiset.mem_cons]
    constructor
    · intro member
      refine ⟨.inr member, ?_⟩
      rintro rfl
      exact distinct.1 member
    · rintro ⟨rfl | member, differs⟩
      · exact absurd rfl differs
      · exact member
  have live (other : Node) (member : other ∈ all) : low.live other ≠ [] := by
    rw [live_congr (same other.buf)]
    exact sound.live other (Multiset.mem_cons_of_mem member)
  have text (buf : Handle) (here : opened buf) : (low.buffers buf).data ≠ [] := by
    rw [same]
    exact sound.text buf here
  unfold Arena.release
  dsimp only
  rw [lowered]
  split
  next last =>
    have gone : ¬ Taken all opened node.buf := by
      rintro (used | shares)
      · rw [← count, last.1] at used
        exact absurd used (Nat.lt_irrefl 0)
      · rw [open'.mpr shares] at last
        cases last.2
    refine ⟨?_, distinct.2, ?_, ?_, ?_, ?_⟩
    · simpa [Arena.sbufUserFree] using given
    · refine pools_free (Taken (node ::ₘ all) opened) ?_ sized taken fun other => ?_
      · rw [pools]
        exact sound.pools
      · rw [taken_cons]
        constructor
        · intro here
          refine ⟨.inl here, ?_⟩
          rintro rfl
          exact gone here
        · rintro ⟨here | same, differs⟩
          · exact here
          · exact absurd same differs
    · simpa [Arena.sbufUserFree] using fits
    · simpa [Arena.sbufUserFree, Arena.live] using live
    · simpa [Arena.sbufUserFree] using text
  next more =>
    have still : Taken all opened node.buf := by
      by_contra none
      obtain ⟨unused, closed⟩ := not_or.mp none
      refine more ⟨?_, ?_⟩
      · rw [count]
        omega
      · exact Bool.eq_false_iff.mpr fun shares => closed (open'.mp shares)
    refine ⟨given, distinct.2, ?_, fits, live, text⟩
    intro size
    change (low.pools size).Balanced _
    rw [pools]
    refine (sound.pools size).congr fun item => ?_
    rw [taken_cons]
    constructor
    · exact .inl
    · rintro (here | same)
      · exact here
      · exact same ▸ still

/-- What an allocation gives: a buffer nobody has, and nothing else changes. -/
structure Fresh (arena : Arena) (all : Multiset Node) (opened : Handle → Prop) (size : Nat) (fresh : Handle × Arena) :
    Prop where
  unused : ¬ Taken all opened fresh.1
  clear : fresh.2.buffers fresh.1 = ⟨[], fresh.1.1.bytes, 0, false⟩
  bytes : fresh.1.1.bytes = size
  same : ∀ other, other ≠ fresh.1 → fresh.2.buffers other = arena.buffers other
  users : fresh.2.users = arena.users
  pools : ∀ taken : Handle → Prop, (∀ other, taken other ↔ Taken all opened other ∨ other = fresh.1) →
    ∀ size, (fresh.2.pools size).Balanced fun item => taken (size, item)

theorem count_pos (size : Size) : 0 < size.count := by
  cases size with
  | small => decide
  | large => decide

theorem le_sbufAlloc {size : Nat} (short : size ≤ 512) : size ≤ Recv.sbufAlloc size := by
  unfold Recv.sbufAlloc sbufLarge sbufSmall
  split <;> omega

theorem bytes_chosen (theSize : Nat) :
    (if sbufSmall ≤ theSize then Size.large else Size.small).bytes = Recv.sbufAlloc theSize := by
  unfold Recv.sbufAlloc
  split <;> rfl

theorem fresh_sbufAlloc (arena : Arena)
    (balanced : ∀ size, (arena.pools size).Balanced fun item => Taken all opened (size, item)) (theSize : Nat) :
    Fresh arena all opened (Recv.sbufAlloc theSize) (arena.sbufAlloc theSize) := by
  unfold Arena.sbufAlloc
  dsimp only
  generalize chosen : (if sbufSmall ≤ theSize then Size.large else Size.small) = size
  have bytes : size.bytes = Recv.sbufAlloc theSize := by
    rw [← chosen]
    exact bytes_chosen theSize
  obtain ⟨unused, -⟩ := (balanced size).take (count_pos size) fun _ => Iff.rfl
  refine ⟨unused, by simp, bytes, fun other differs => ?_, rfl, fun taken more other => ?_⟩
  · rw [buffers_modify_ne _ _ differs]
  · change FreeList.Balanced (update arena.pools size _ other) _
    by_cases same : other = size
    · subst same
      rw [Function.update_self]
      refine ((balanced other).take (count_pos other) fun item => ?_).2
      rw [more]
      simp
    · rw [Function.update_of_ne same]
      refine (balanced other).congr fun item => ?_
      rw [more]
      simp [same]

/-- One more node in the queues. -/
theorem Arena.Sound.sbufUserAlloc (sound : arena.Sound all opened) (buf : Handle) (start : Nat) :
    arena.sbufUserAlloc.1 ∉ all.map Node.number ∧
      arena.sbufUserAlloc.2.users.Balanced
        (· ∈ ((Node.mk arena.sbufUserAlloc.1 buf start) ::ₘ all).map Node.number) := by
  refine sound.users.take (by decide) fun item => ?_
  rw [Multiset.map_cons, Multiset.mem_cons, or_comm]
  rfl

/-- A buffer that is new and has got its first bytes. -/
theorem Arena.Sound.newNode (sound : arena.Sound all opened) (theLength : Nat) {chunk : Text} (some : chunk ≠ [])
    (inside : chunk.length ≤ Recv.sbufAlloc theLength) :
    ((arena.newNode theLength).2.append (arena.newNode theLength).1.buf chunk).Sound
        ((arena.newNode theLength).1 ::ₘ all) opened ∧
      ((arena.newNode theLength).2.append (arena.newNode theLength).1.buf chunk).live (arena.newNode theLength).1 =
        chunk ∧
      ∀ other, Taken all opened other →
        ((arena.newNode theLength).2.append (arena.newNode theLength).1.buf chunk).buffers other =
          arena.buffers other := by
  obtain ⟨unused, clear, bytes, same, users, pools⟩ := fresh_sbufAlloc arena.sbufUserAlloc.2 sound.pools theLength
  unfold Arena.newNode
  dsimp only
  generalize arena.sbufUserAlloc.2.sbufAlloc theLength = fresh at *
  obtain ⟨buf, larger⟩ := fresh
  obtain ⟨numbered, balanced⟩ := sound.sbufUserAlloc buf 0
  dsimp only at *
  generalize made : (larger.modify buf fun buffer => { buffer with refcount := 1 }).append buf chunk = final
  have here : final.buffers buf = ⟨chunk, buf.1.bytes, 1, false⟩ := by
    rw [← made]
    simp [Arena.append, clear]
  have elsewhere (other : Handle) (differs : other ≠ buf) : final.buffers other = arena.buffers other := by
    rw [← made, Arena.append, buffers_modify_ne _ _ differs, buffers_modify_ne _ _ differs]
    exact same other differs
  have apart (other : Handle) (taken : Taken all opened other) : other ≠ buf := by
    rintro rfl
    exact unused taken
  have kept (other : Node) (member : other ∈ all) : final.live other = arena.live other := by
    rw [Arena.live, Arena.live, elsewhere _ (apart _ (.of_mem member))]
  have newest : final.live ⟨arena.sbufUserAlloc.1, buf, 0⟩ = chunk := by simp [Arena.live, here]
  refine ⟨⟨?_, ?_, ?_, ?_, ?_, ?_⟩, newest, fun other taken => elsewhere other (apart other taken)⟩
  · rw [← made]
    change larger.users.Balanced _
    rw [users]
    exact balanced
  · rw [Multiset.map_cons, Multiset.nodup_cons]
    exact ⟨numbered, sound.distinct⟩
  · rw [← made]
    exact pools _ fun other => taken_cons
  · intro other taken
    by_cases equal : other = buf
    · subst equal
      obtain ⟨none, closed⟩ := not_or.mp unused
      rw [here]
      refine ⟨?_, ?_, rfl, ?_⟩
      · rw [refs_cons, if_pos rfl]
        change 1 = _
        omega
      · exact iff_of_false Bool.false_ne_true closed
      · rw [bytes]
        exact inside
    · have old := sound.fits other ((taken_cons.mp taken).resolve_right equal)
      rw [elsewhere other equal, refs_cons, if_neg equal]
      exact old
  · intro other member
    rcases Multiset.mem_cons.mp member with rfl | member
    · rw [newest]
      exact some
    · rw [kept other member]
      exact sound.live other member
  · intro other open'
    rw [elsewhere other (apart other (.inr open'))]
    exact sound.text other open'

/-- Bytes behind those of a node that has its buffer for itself. -/
theorem Arena.Sound.append (sound : arena.Sound (node ::ₘ all) opened)
    (single : (arena.buffers node.buf).refcount ≤ 1) {chunk : Text} (inside : chunk.length ≤ arena.room node) :
    (arena.append node.buf chunk).Sound (node ::ₘ all) opened ∧
      (arena.append node.buf chunk).live node = arena.live node ++ chunk ∧
      ∀ other ∈ all, (arena.append node.buf chunk).live other = arena.live other := by
  have taken : Taken (node ::ₘ all) opened node.buf := .of_mem (Multiset.mem_cons_self ..)
  obtain ⟨refcount, shared, bufsize, room⟩ := sound.fits node.buf taken
  have alone : refs all node.buf = 0 := by
    rw [refs_cons, if_pos rfl] at refcount
    omega
  have elsewhere (other : Handle) (differs : other ≠ node.buf) :
      (arena.append node.buf chunk).buffers other = arena.buffers other := buffers_modify_ne _ _ differs
  have started : node.start ≤ (arena.buffers node.buf).data.length := by
    have some := sound.live node (Multiset.mem_cons_self ..)
    by_contra beyond
    exact some (List.drop_eq_nil_of_le (by omega))
  have longer : (arena.append node.buf chunk).live node = arena.live node ++ chunk := by
    simp [Arena.live, Arena.append, List.drop_append_of_le_length started]
  have kept (other : Node) (member : other ∈ all) : (arena.append node.buf chunk).live other = arena.live other := by
    have differs : other.buf ≠ node.buf := by
      intro same
      have positive := refs_pos member
      rw [same, alone] at positive
      exact absurd positive (Nat.lt_irrefl 0)
    rw [Arena.live, Arena.live, elsewhere _ differs]
  refine ⟨⟨sound.users, sound.distinct, sound.pools, ?_, ?_, ?_⟩, longer, kept⟩
  · intro other here
    by_cases equal : other = node.buf
    · subst equal
      rw [Arena.append, buffers_modify_self]
      refine ⟨refcount, shared, bufsize, ?_⟩
      simp only [Arena.room, List.length_append] at inside ⊢
      omega
    · rw [elsewhere other equal]
      exact sound.fits other here
  · intro other member
    rcases Multiset.mem_cons.mp member with rfl | member
    · rw [longer]
      exact List.append_ne_nil_of_left_ne_nil (sound.live other (Multiset.mem_cons_self ..)) _
    · rw [kept other member]
      exact sound.live other (Multiset.mem_cons_of_mem member)
  · intro other open'
    by_cases equal : other = node.buf
    · subst equal
      rw [Arena.append, buffers_modify_self]
      exact List.append_ne_nil_of_left_ne_nil (sound.text node.buf open') _
    · rw [elsewhere other equal]
      exact sound.text other open'

/-- A node that has given some of its bytes. -/
theorem Arena.Sound.advance (sound : arena.Sound (node ::ₘ all) opened) {skipped : Nat}
    (more : skipped < (arena.live node).length) :
    arena.Sound ({ node with start := node.start + skipped } ::ₘ all) opened ∧
      arena.live { node with start := node.start + skipped } = (arena.live node).drop skipped := by
  have moved : arena.live { node with start := node.start + skipped } = (arena.live node).drop skipped := by
    simp [Arena.live]
  have numbers : (({ node with start := node.start + skipped } : Node) ::ₘ all).map Node.number =
      (node ::ₘ all).map Node.number := by
    rw [Multiset.map_cons, Multiset.map_cons]
  have bufs (buf : Handle) : refs (({ node with start := node.start + skipped } : Node) ::ₘ all) buf =
      refs (node ::ₘ all) buf := by
    rw [refs_cons, refs_cons]
  have taken (buf : Handle) : Taken (({ node with start := node.start + skipped } : Node) ::ₘ all) opened buf ↔
      Taken (node ::ₘ all) opened buf := by
    rw [taken_cons, taken_cons]
  refine ⟨⟨?_, ?_, ?_, ?_, ?_, sound.text⟩, moved⟩
  · rw [numbers]
    exact sound.users
  · rw [numbers]
    exact sound.distinct
  · intro size
    exact (sound.pools size).congr fun item => taken _
  · intro buf here
    rw [bufs]
    exact sound.fits buf ((taken buf).mp here)
  · intro other member
    rcases Multiset.mem_cons.mp member with rfl | member
    · rw [moved]
      intro empty
      have short := List.drop_eq_nil_iff.mp empty
      omega
    · exact sound.live other (Multiset.mem_cons_of_mem member)

theorem Arena.Sound.sbufBeginShare (sound : arena.Sound all opened) (theData : Text) :
    (arena.sbufBeginShare theData).2.Sound all (fun buf => opened buf ∨ buf = (arena.sbufBeginShare theData).1) ∧
      ((arena.sbufBeginShare theData).2.buffers (arena.sbufBeginShare theData).1).data = shareText theData ∧
      ∀ other, Taken all opened other →
        (arena.sbufBeginShare theData).2.buffers other = arena.buffers other ∧
          other ≠ (arena.sbufBeginShare theData).1 := by
  obtain ⟨unused, clear, bytes, same, users, pools⟩ :=
    fresh_sbufAlloc arena sound.pools ((theData.take 510).length + 2)
  unfold Arena.sbufBeginShare
  dsimp only
  generalize arena.sbufAlloc ((theData.take 510).length + 2) = fresh at *
  obtain ⟨buf, larger⟩ := fresh
  dsimp only at *
  generalize made : (larger.modify buf fun buffer =>
    { buffer with data := buffer.data ++ shareText theData, refcount := 0, shared := true }) = final
  have here : final.buffers buf = ⟨shareText theData, buf.1.bytes, 0, true⟩ := by
    rw [← made]
    simp [clear]
  have elsewhere (other : Handle) (differs : other ≠ buf) : final.buffers other = arena.buffers other := by
    rw [← made, buffers_modify_ne _ _ differs]
    exact same other differs
  have apart (other : Handle) (taken : Taken all opened other) : other ≠ buf := by
    rintro rfl
    exact unused taken
  have kept (other : Node) (member : other ∈ all) : final.live other = arena.live other := by
    rw [Arena.live, Arena.live, elsewhere _ (apart _ (.of_mem member))]
  have wider (other : Handle) : Taken all (fun other => opened other ∨ other = buf) other ↔
      Taken all opened other ∨ other = buf := (or_assoc).symm
  refine ⟨⟨?_, sound.distinct, ?_, ?_, ?_, ?_⟩, congrArg Buffer.data here,
    fun other taken => ⟨elsewhere other (apart other taken), apart other taken⟩⟩
  · rw [← made]
    change larger.users.Balanced _
    rw [users]
    exact sound.users
  · rw [← made]
    exact pools _ wider
  · intro other taken
    by_cases equal : other = buf
    · subst equal
      obtain ⟨none, closed⟩ := not_or.mp unused
      rw [here]
      refine ⟨?_, iff_of_true rfl (.inr rfl), rfl, ?_⟩
      · change 0 = _
        omega
      · have short : (theData.take 510).length ≤ 510 := List.length_take_le ..
        have inside := le_sbufAlloc (show (theData.take 510).length + 2 ≤ 512 by omega)
        rw [← bytes] at inside
        simpa [shareText] using inside
    · obtain ⟨refcount, shared, bufsize, room⟩ := sound.fits other (((wider other).mp taken).resolve_right equal)
      rw [elsewhere other equal]
      exact ⟨refcount, shared.trans (or_iff_left equal).symm, bufsize, room⟩
  · intro other member
    rw [kept other member]
    exact sound.live other member
  · rintro other (open' | rfl)
    · rw [elsewhere other (apart other (.inr open'))]
      exact sound.text other open'
    · rw [here]
      simp [shareText]

theorem Arena.Sound.unshare (sound : arena.Sound all opened) (open' : opened buf) :
    (arena.unshare buf).Sound all (fun other => opened other ∧ other ≠ buf) ∧
      ∀ other, ((arena.unshare buf).buffers other).data = (arena.buffers other).data := by
  obtain ⟨refcount, -, bufsize, room⟩ := sound.fits buf (.inr open')
  generalize closed : (arena.modify buf fun buffer => { buffer with shared := false }) = low
  have same (other : Handle) : (low.buffers other).data = (arena.buffers other).data := by
    rw [← closed]
    exact data_modify arena buf other _ fun _ => rfl
  have here : low.buffers buf = { arena.buffers buf with shared := false } := by
    rw [← closed, buffers_modify_self]
  have pools : low.pools = arena.pools := by
    rw [← closed]
    rfl
  have users : low.users.Balanced (· ∈ all.map Node.number) := by
    rw [← closed]
    exact sound.users
  have wider {other : Handle} (taken : Taken all (fun other => opened other ∧ other ≠ buf) other) :
      Taken all opened other := taken.imp_right And.left
  have narrower {other : Handle} (differs : other ≠ buf) (taken : Taken all opened other) :
      Taken all (fun other => opened other ∧ other ≠ buf) other := taken.imp_right fun here => ⟨here, differs⟩
  have fits (other : Handle) (taken : Taken all (fun other => opened other ∧ other ≠ buf) other) :
      Fits (low.buffers other) other.1 (refs all other) (opened other ∧ other ≠ buf) := by
    by_cases equal : other = buf
    · subst equal
      rw [here]
      exact ⟨refcount, iff_of_false Bool.false_ne_true fun still => still.2 rfl, bufsize, room⟩
    · obtain ⟨refcount, shared, bufsize, room⟩ := sound.fits other (wider taken)
      rw [← closed, buffers_modify_ne _ _ equal]
      exact ⟨refcount, shared.trans (and_iff_left equal).symm, bufsize, room⟩
  have live (node : Node) : low.live node = arena.live node := live_congr (same node.buf)
  have lives (node : Node) (member : node ∈ all) : low.live node ≠ [] := by
    rw [live]
    exact sound.live node member
  have text (other : Handle) (still : opened other ∧ other ≠ buf) : (low.buffers other).data ≠ [] := by
    rw [same]
    exact sound.text other still.1
  unfold Arena.unshare
  dsimp only
  rw [closed]
  split
  next last =>
    rw [here] at last
    have gone : ¬ 0 < refs all buf := by
      rw [← refcount, show (arena.buffers buf).refcount = 0 from last]
      exact Nat.lt_irrefl 0
    refine ⟨⟨?_, sound.distinct, ?_, ?_, ?_, ?_⟩, ?_⟩
    · simpa using users
    · refine pools_free (Taken all opened) ?_ ?_ (.inr open') fun other => ?_
      · rw [pools]
        exact sound.pools
      · rw [here]
        exact bufsize
      · constructor
        · intro taken
          refine ⟨wider taken, ?_⟩
          rintro rfl
          exact taken.elim gone fun still => still.2 rfl
        · rintro ⟨taken, differs⟩
          exact narrower differs taken
    · simpa using fits
    · simpa [Arena.live] using lives
    · simpa using text
    · simpa using same
  next more =>
    rw [here] at more
    have used : 0 < refs all buf := by
      rw [← refcount]
      exact Nat.pos_of_ne_zero more
    refine ⟨⟨users, sound.distinct, ?_, fits, lives, text⟩, same⟩
    intro size
    rw [pools]
    refine (sound.pools size).congr fun item => ⟨wider, fun taken => ?_⟩
    by_cases equal : (size, item) = buf
    · exact .inl (equal ▸ used)
    · exact narrower equal taken

theorem Arena.Sound.sbufPutShare (sound : arena.Sound all opened) (open' : opened buf) (theBuf : Queue) :
    (arena.sbufPutShare theBuf buf).1.Sound (⟨arena.sbufUserAlloc.1, buf, 0⟩ ::ₘ all) opened ∧
      ∀ other, ((arena.sbufPutShare theBuf buf).1.buffers other).data = (arena.buffers other).data := by
  obtain ⟨refcount, shared, bufsize, room⟩ := sound.fits buf (.inr open')
  obtain ⟨numbered, balanced⟩ := sound.sbufUserAlloc buf 0
  have counted : (arena.sbufPutShare theBuf buf).1.buffers =
      (arena.modify buf fun buffer => { buffer with refcount := buffer.refcount + 1 }).buffers := rfl
  have same (other : Handle) : ((arena.sbufPutShare theBuf buf).1.buffers other).data = (arena.buffers other).data := by
    rw [counted]
    exact data_modify arena buf other _ fun _ => rfl
  refine ⟨⟨balanced, ?_, ?_, ?_, ?_, ?_⟩, same⟩
  · rw [Multiset.map_cons, Multiset.nodup_cons]
    exact ⟨numbered, sound.distinct⟩
  · intro size
    refine (sound.pools size).congr fun item => ?_
    rw [taken_cons]
    refine or_iff_left_of_imp ?_
    rintro rfl
    exact .inr open'
  · intro other taken
    rw [counted, refs_cons]
    by_cases equal : other = buf
    · subst equal
      rw [buffers_modify_self, if_pos rfl]
      exact ⟨by rw [refcount], shared, bufsize, room⟩
    · rw [buffers_modify_ne _ _ equal, if_neg equal]
      exact sound.fits other ((taken_cons.mp taken).resolve_right equal)
  · intro other member
    rw [live_congr (same other.buf)]
    rcases Multiset.mem_cons.mp member with rfl | member
    · simpa [Arena.live] using sound.text buf open'
    · exact sound.live other member
  · intro other still
    rw [same]
    exact sound.text other still

theorem data_release (arena : Arena) (node : Node) (buf : Handle) :
    ((arena.release node).buffers buf).data = (arena.buffers buf).data := by
  have same := data_modify arena node.buf buf (fun buffer => { buffer with refcount := buffer.refcount - 1 }) fun _ => rfl
  unfold Arena.release
  dsimp only
  split
  · simpa [Arena.sbufUserFree] using same
  · exact same

end

/-! One queue at a time, with the nodes of the others. -/

section

variable {arena after : Arena} {theBuf : Queue} {others : Multiset Node} {opened : Handle → Prop}
  {nodes rest : List Node} {node : Node} {buf : Handle}

@[simp] theorem content_nil (arena : Arena) : arena.content [] = [] := rfl

@[simp] theorem content_cons (arena : Arena) (head : Node) (rest : List Node) :
    arena.content (head :: rest) = arena.live head ++ arena.content rest := rfl

theorem content_snoc (arena : Arena) (nodes : List Node) (last : Node) :
    arena.content (nodes ++ [last]) = arena.content nodes ++ arena.live last := by
  simp [Arena.content]

theorem content_congr (same : ∀ node ∈ nodes, after.live node = arena.live node) :
    after.content nodes = arena.content nodes := List.flatMap_congr same

theorem coe_cons_add (head : Node) (rest : List Node) (others : Multiset Node) :
    ((head :: rest : List Node) : Multiset Node) + others = head ::ₘ ((rest : Multiset Node) + others) := by
  rw [← Multiset.cons_coe, Multiset.cons_add]

theorem coe_snoc_add (nodes : List Node) (last : Node) (others : Multiset Node) :
    ((nodes ++ [last] : List Node) : Multiset Node) + others = last ::ₘ ((nodes : Multiset Node) + others) := by
  rw [← Multiset.coe_add, Multiset.coe_singleton, add_comm (nodes : Multiset Node), Multiset.singleton_add,
    Multiset.cons_add]

theorem deleteLoop_spec (nodes : List Node) (theLength : Nat) (sound : arena.Sound (↑nodes + others) opened)
    (inside : theLength ≤ (arena.content nodes).length) :
    (arena.deleteLoop nodes theLength).1.Sound (↑(arena.deleteLoop nodes theLength).2 + others) opened ∧
      (arena.deleteLoop nodes theLength).1.content (arena.deleteLoop nodes theLength).2 =
        (arena.content nodes).drop theLength ∧
      ∀ buf, ((arena.deleteLoop nodes theLength).1.buffers buf).data = (arena.buffers buf).data := by
  induction nodes generalizing arena theLength with
  | nil => simpa [Arena.deleteLoop] using sound
  | cons head rest ih =>
    rw [Arena.deleteLoop]
    rw [coe_cons_add] at sound
    split
    next zero => simpa [zero, coe_cons_add] using sound
    next some =>
      split
      next whole =>
        have kept : (arena.release head).content rest = arena.content rest :=
          content_congr fun node _ => live_congr (data_release arena head node.buf)
        have left : theLength - (arena.live head).length ≤ ((arena.release head).content rest).length := by
          rw [kept]
          rw [content_cons, List.length_append] at inside
          omega
        obtain ⟨sound', content, data⟩ := ih (theLength - (arena.live head).length) sound.release left
        refine ⟨sound', ?_, fun buf => (data buf).trans (data_release arena head buf)⟩
        rw [content, kept, content_cons, List.drop_append]
        simp [List.drop_eq_nil_of_le whole]
      next part =>
        obtain ⟨sound', moved⟩ := sound.advance (Nat.lt_of_not_le part)
        refine ⟨?_, ?_, fun _ => rfl⟩
        · rw [coe_cons_add]
          exact sound'
        · rw [content_cons, content_cons, moved, List.drop_append_of_le_length (by omega)]

theorem flushLoop_spec (nodes : List Node) (sound : arena.Sound (↑nodes + others) opened) :
    (arena.flushLoop nodes).1.Sound (↑(arena.flushLoop nodes).2.1 + others) opened ∧
      (arena.flushLoop nodes).1.content (arena.flushLoop nodes).2.1 =
        (arena.content nodes).dropWhile isEol ∧
      (arena.flushLoop nodes).2.2 = ((arena.content nodes).takeWhile isEol).length ∧
      ∀ buf, ((arena.flushLoop nodes).1.buffers buf).data = (arena.buffers buf).data := by
  induction nodes generalizing arena with
  | nil => simpa [Arena.flushLoop] using sound
  | cons head rest ih =>
    have parts := List.takeWhile_append_dropWhile (p := isEol) (l := arena.live head)
    have lengths := congrArg List.length parts
    rw [List.length_append] at lengths
    rw [Arena.flushLoop]
    rw [coe_cons_add] at sound
    dsimp only
    split
    next part =>
      obtain ⟨sound', moved⟩ := sound.advance part
      have dropped : (arena.live head).drop ((arena.live head).takeWhile isEol).length =
          (arena.live head).dropWhile isEol := by
        have step := congrArg (List.drop ((arena.live head).takeWhile isEol).length) parts
        rw [List.drop_left] at step
        exact step.symm
      have some : (arena.live head).dropWhile isEol ≠ [] := by
        intro empty
        rw [empty, List.length_nil] at lengths
        omega
      refine ⟨?_, ?_, ?_, fun _ => rfl⟩
      · rw [coe_cons_add]
        exact sound'
      · rw [content_cons, content_cons, moved, dropped, List.dropWhile_append]
        simp [some]
      · rw [content_cons, List.takeWhile_append]
        simp [Nat.ne_of_lt part]
    next whole =>
      have allEol : (arena.live head).dropWhile isEol = [] := by
        apply List.eq_nil_of_length_eq_zero
        omega
      have length : ((arena.live head).takeWhile isEol).length = (arena.live head).length := by
        rw [allEol, List.length_nil] at lengths
        omega
      have kept : (arena.release head).content rest = arena.content rest :=
        content_congr fun node _ => live_congr (data_release arena head node.buf)
      obtain ⟨sound', content, skipped, data⟩ := ih sound.release
      refine ⟨sound', ?_, ?_, fun buf => (data buf).trans (data_release arena head buf)⟩
      · rw [content, kept, content_cons, List.dropWhile_append]
        simp [allEol]
      · rw [skipped, kept, content_cons, List.takeWhile_append]
        simp [length]

/-- What more nodes with more bytes leave of a queue, of the others and of the shares. -/
structure Grown (arena : Arena) (nodes : List Node) (others : Multiset Node) (opened : Handle → Prop) (theData : Text)
    (after : Arena × List Node) : Prop where
  sound : after.1.Sound (↑after.2 + others) opened
  content : after.1.content after.2 = arena.content nodes ++ theData
  frame : ∀ node ∈ others, after.1.live node = arena.live node

theorem Arena.Sound.grow (sound : arena.Sound (↑nodes + others) opened) (theLength : Nat) {chunk : Text}
    (some : chunk ≠ []) (inside : chunk.length ≤ Recv.sbufAlloc theLength) :
    Grown arena nodes others opened chunk ((arena.newNode theLength).2.append (arena.newNode theLength).1.buf chunk,
        nodes ++ [(arena.newNode theLength).1]) ∧
      ∀ buf, opened buf → (((arena.newNode theLength).2.append (arena.newNode theLength).1.buf chunk).buffers buf) =
        arena.buffers buf := by
  obtain ⟨grown, newest, same⟩ := sound.newNode theLength some inside
  rw [← coe_snoc_add] at grown
  have frame (node : Node) (member : node ∈ (↑nodes : Multiset Node) + others) :
      ((arena.newNode theLength).2.append (arena.newNode theLength).1.buf chunk).live node = arena.live node :=
    live_congr (congrArg Buffer.data (same node.buf (.of_mem member)))
  refine ⟨⟨grown, ?_, fun node member => frame node (Multiset.mem_add.mpr (.inr member))⟩,
    fun buf open' => same buf (.inr open')⟩
  rw [content_snoc, newest, content_congr fun node member => frame node (Multiset.mem_add.mpr (.inl member))]

theorem Grown.trans {middle final : Arena × List Node} {first second : Text}
    (before : Grown arena nodes others opened first middle)
    (after : Grown middle.1 middle.2 others opened second final) :
    Grown arena nodes others opened (first ++ second) final :=
  ⟨after.sound, by rw [after.content, before.content, List.append_assoc],
    fun node member => (after.frame node member).trans (before.frame node member)⟩

theorem take_ne_nil {theData : Text} (more : theData ≠ []) : theData.take (Recv.sbufAlloc theData.length) ≠ [] := by
  have positive : 0 < Recv.sbufAlloc theData.length := by
    unfold Recv.sbufAlloc
    split <;> simp [sbufLarge, sbufSmall]
  simpa [more] using Nat.ne_of_gt positive

theorem putLoop_spec (arena : Arena) (nodes : List Node) (theData : Text)
    (sound : arena.Sound (↑nodes + others) opened) :
    Grown arena nodes others opened theData (arena.putLoop nodes theData) ∧
      ∀ buf, opened buf → (arena.putLoop nodes theData).1.buffers buf = arena.buffers buf := by
  fun_induction Arena.putLoop arena nodes theData with
  | case1 arena nodes => exact ⟨⟨sound, by simp, fun _ _ => rfl⟩, fun _ _ => rfl⟩
  | case2 arena nodes theData more size fresh ih =>
    obtain ⟨grown, same⟩ := sound.grow theData.length (take_ne_nil more) (List.length_take_le ..)
    obtain ⟨grown', same'⟩ := ih grown.sound
    have both := grown.trans grown'
    rw [List.take_append_drop] at both
    exact ⟨both, fun buf open' => (same' buf open').trans (same buf open')⟩

theorem room_newNode (arena : Arena) (theLength : Nat) :
    (arena.newNode theLength).2.room (arena.newNode theLength).1 = Recv.sbufAlloc theLength := by
  rw [← bytes_chosen]
  unfold Arena.newNode Arena.sbufAlloc Arena.room
  simp

/-- Bytes behind a node that has its buffer for itself. Where that is being shared, the share gets them too. -/
theorem putOnto_spec {front : List Node} {last : Node} (sound : arena.Sound (↑(front ++ [last]) + others) opened)
    (single : (arena.buffers last.buf).refcount ≤ 1) (theData : Text) :
    Grown arena (front ++ [last]) others opened theData (arena.putOnto (front ++ [last]) last theData) ∧
      ((opened last.buf → theData = []) → ∀ buf, opened buf →
        ((arena.putOnto (front ++ [last]) last theData).1.buffers buf).data = (arena.buffers buf).data) := by
  rw [coe_snoc_add] at sound
  obtain ⟨extended, longer, frame⟩ := sound.append single (List.length_take_le (arena.room last) theData)
  rw [← coe_snoc_add] at extended
  have first : Grown arena (front ++ [last]) others opened (theData.take (arena.room last))
      (arena.append last.buf (theData.take (arena.room last)), front ++ [last]) := by
    refine ⟨extended, ?_, fun node member => frame node (by simp [member])⟩
    rw [content_snoc, content_snoc, longer, content_congr fun node member => frame node (by simp [member]),
      List.append_assoc]
  obtain ⟨second, same⟩ := putLoop_spec _ _ (theData.drop (arena.room last)) extended
  have both := first.trans second
  rw [List.take_append_drop] at both
  refine ⟨both, fun alone buf open' => ?_⟩
  rw [Arena.putOnto, same buf open']
  by_cases equal : buf = last.buf
  · subst equal
    simp [Arena.append, alone open']
  · rw [Arena.append, buffers_modify_ne _ _ equal]

/-- A queue that holds `bytes`. -/
structure Arena.Keeps (arena : Arena) (theBuf : Queue) (others : Multiset Node) (opened : Handle → Prop) (bytes : Text) :
    Prop where
  sound : arena.Sound (↑theBuf.nodes + others) opened
  content : arena.content theBuf.nodes = bytes
  length : theBuf.length = bytes.length

/-- What an operation on one queue leaves, with the bytes of the others as they were. -/
structure Done (arena : Arena) (others : Multiset Node) (opened : Handle → Prop) (bytes : Text) (after : Arena × Queue) :
    Prop where
  keeps : after.1.Keeps after.2 others opened bytes
  frame : ∀ node ∈ others, after.1.live node = arena.live node

/-- So it is where all bytes stay in their buffers. -/
structure Reads (arena : Arena) (others : Multiset Node) (opened : Handle → Prop) (bytes : Text) (after : Arena × Queue) :
    Prop where
  keeps : after.1.Keeps after.2 others opened bytes
  data : ∀ buf, (after.1.buffers buf).data = (arena.buffers buf).data

variable {bytes : Text}

theorem Reads.done {final : Arena × Queue} (reads : Reads arena others opened bytes final) :
    Done arena others opened bytes final :=
  ⟨reads.keeps, fun node _ => live_congr (reads.data node.buf)⟩

theorem Arena.Keeps.reads (keeps : arena.Keeps theBuf others opened bytes) :
    Reads arena others opened bytes (arena, theBuf) :=
  ⟨keeps, fun _ => rfl⟩

theorem Reads.trans {middle final : Arena × Queue} {bytes' : Text} (first : Reads arena others opened bytes middle)
    (second : Reads middle.1 others opened bytes' final) : Reads arena others opened bytes' final :=
  ⟨second.keeps, fun buf => (second.data buf).trans (first.data buf)⟩

theorem Arena.Keeps.nodes_nil (keeps : arena.Keeps theBuf others opened bytes) (empty : theBuf.length = 0) :
    theBuf.nodes = [] ∧ bytes = [] := by
  have none : bytes = [] := by
    have length := keeps.length
    rw [empty] at length
    exact List.eq_nil_of_length_eq_zero (by omega)
  refine ⟨?_, none⟩
  cases nodes : theBuf.nodes with
  | nil => rfl
  | cons head rest =>
    have some := keeps.sound.live head (by simp [nodes])
    have content := keeps.content
    rw [nodes, none, content_cons] at content
    exact absurd (List.append_eq_nil_iff.mp content).1 some

theorem Arena.Keeps.sbufDelete (keeps : arena.Keeps theBuf others opened bytes) (theLength : Nat) :
    Reads arena others opened (bytes.drop theLength) (arena.sbufDelete theBuf theLength) := by
  have whole : theBuf.length.toNat = bytes.length := by
    rw [keeps.length]
    omega
  have inside : min theLength theBuf.length.toNat ≤ (arena.content theBuf.nodes).length := by
    rw [keeps.content, whole]
    omega
  obtain ⟨sound, content, data⟩ := deleteLoop_spec theBuf.nodes _ keeps.sound inside
  refine ⟨⟨sound, ?_, ?_⟩, data⟩
  · rw [Arena.sbufDelete]
    dsimp only
    rw [content, keeps.content, whole]
    by_cases short : theLength ≤ bytes.length
    · rw [Nat.min_eq_left short]
    · rw [Nat.min_eq_right (by omega), List.drop_length, List.drop_eq_nil_of_le (by omega)]
  · simp only [Arena.sbufDelete, keeps.length, List.length_drop]
    omega

theorem Arena.Keeps.sbufFlush (keeps : arena.Keeps theBuf others opened bytes) :
    Reads arena others opened (bytes.dropWhile isEol) (arena.sbufFlush theBuf) := by
  unfold Arena.sbufFlush
  split
  next empty =>
    have none := (keeps.nodes_nil empty).2
    subst none
    exact keeps.reads
  next some =>
    obtain ⟨sound, content, skipped, data⟩ := flushLoop_spec theBuf.nodes keeps.sound
    refine ⟨⟨sound, by rw [content, keeps.content], ?_⟩, data⟩
    have lengths := congrArg List.length (List.takeWhile_append_dropWhile (p := isEol) (l := bytes))
    rw [List.length_append] at lengths
    simp only [skipped, keeps.content, keeps.length]
    omega

theorem bytes_view (arena : Arena) (nodes : List Node) : (arena.view nodes).bytes = arena.content nodes := by
  rw [Recv.SBuf.bytes, Arena.view, List.flatMap_map]
  rfl

theorem Arena.Keeps.sbufGetmsg (keeps : arena.Keeps theBuf others opened bytes) (theLength : Nat) :
    Reads arena others opened (Recv.getmsg bytes theLength).2 (arena.sbufGetmsg theBuf theLength).2 := by
  have flushed := keeps.sbufFlush
  unfold Arena.sbufGetmsg Recv.getmsg
  dsimp only
  by_cases empty : (arena.sbufFlush theBuf).2.length = 0
  · have line : Recv.lineWithin (bytes.dropWhile isEol) theLength = none := by
      rw [(flushed.keeps.nodes_nil empty).2]
      simp [Recv.lineWithin]
    rw [if_pos empty, line]
    exact flushed
  · rw [if_neg empty, Recv.sbufCopy_eq, bytes_view, flushed.keeps.content]
    cases found : Recv.lineWithin (bytes.dropWhile isEol) theLength with
    | none => exact flushed
    | some line =>
      have deleted := flushed.trans (flushed.keeps.sbufDelete line.length)
      exact deleted.trans deleted.keeps.sbufFlush

theorem Arena.Keeps.getLoop (turns : Nat) (keeps : arena.Keeps theBuf others opened bytes) (theLength : Nat)
    (copied : Text) (enough : theLength ≤ turns) :
    Reads arena others opened (bytes.drop theLength) (Arena.getLoop turns arena theBuf theLength copied).2 := by
  induction turns generalizing arena theBuf bytes theLength copied with
  | zero =>
    obtain rfl : theLength = 0 := by omega
    exact keeps.reads
  | succ turns ih =>
    rw [Arena.getLoop]
    split
    next done =>
      rcases done with rfl | empty
      · exact keeps.reads
      · have none := (keeps.nodes_nil empty).2
        subst none
        rw [List.drop_nil]
        exact keeps.reads
    next more =>
      split
      next none =>
        have content := keeps.content
        rw [none, content_nil] at content
        subst content
        rw [List.drop_nil]
        exact keeps.reads
      next head rest nodes =>
        have some := List.length_pos_iff.mpr (keeps.sound.live head (by simp [nodes]))
        have deleted := keeps.sbufDelete ((arena.live head).take theLength).length
        have length : ((arena.live head).take theLength).length = min theLength (arena.live head).length :=
          List.length_take
        have rest := ih deleted.keeps (theLength - ((arena.live head).take theLength).length)
          (copied ++ (arena.live head).take theLength) (by omega)
        rw [List.drop_drop, Nat.add_sub_of_le (by omega)] at rest
        exact deleted.trans rest

theorem Arena.Keeps.sbufPutShare (keeps : arena.Keeps theBuf others opened bytes) (open' : opened buf) :
    Reads arena others opened (bytes ++ (arena.buffers buf).data) (arena.sbufPutShare theBuf buf) := by
  obtain ⟨sound, same⟩ := keeps.sound.sbufPutShare open' theBuf
  have nodes : (arena.sbufPutShare theBuf buf).2.nodes = theBuf.nodes ++ [⟨arena.sbufUserAlloc.1, buf, 0⟩] := by
    change (if theBuf.length = 0 then _ else _) = _
    split
    next empty =>
      rw [(keeps.nodes_nil empty).1]
      rfl
    · rfl
  have length : (arena.sbufPutShare theBuf buf).2.length =
      theBuf.length + ((arena.sbufPutShare theBuf buf).1.buffers buf).data.length := rfl
  refine ⟨⟨?_, ?_, ?_⟩, same⟩
  · rw [nodes, coe_snoc_add]
    exact sound
  · rw [nodes, content_snoc, content_congr fun node _ => live_congr (same node.buf), keeps.content]
    simp [Arena.live, same]
  · rw [length, same, keeps.length, List.length_append]
    omega

/-- `sbuf_put`. The shares are as they were unless it writes into one. -/
theorem Arena.Keeps.sbufPut (keeps : arena.Keeps theBuf others opened bytes) {theData : Text}
    (fits : ∀ last, theBuf.nodes.getLast? = some last → 1 < (arena.buffers last.buf).refcount → theData ≠ []) :
    Done arena others opened (bytes ++ theData) (arena.sbufPut theBuf theData) ∧
      ((∀ last, theBuf.nodes.getLast? = some last → (arena.buffers last.buf).refcount ≤ 1 → opened last.buf →
          theData = []) →
        ∀ buf, opened buf → ((arena.sbufPut theBuf theData).1.buffers buf).data = (arena.buffers buf).data) := by
  have length : theBuf.length + theData.length = ((bytes ++ theData).length : Int) := by
    rw [keeps.length, List.length_append]
    omega
  have done {put : Arena × List Node} (grown : Grown arena theBuf.nodes others opened theData put) :
      Done arena others opened (bytes ++ theData) (put.1, ⟨theBuf.length + theData.length, put.2⟩) :=
    ⟨⟨grown.sound, by rw [grown.content, keeps.content], length⟩, grown.frame⟩
  unfold Arena.sbufPut
  dsimp only
  split
  next none =>
    have empty := List.getLast?_eq_none_iff.mp none
    obtain ⟨grown, same⟩ := putLoop_spec arena [] theData (empty ▸ keeps.sound)
    exact ⟨done (empty ▸ grown), fun _ buf open' => congrArg Buffer.data (same buf open')⟩
  next last found =>
    obtain ⟨front, nodes⟩ := List.getLast?_eq_some_iff.mp found
    split
    next more =>
      obtain ⟨grown, same⟩ := keeps.sound.grow theData.length (take_ne_nil (fits last found more))
        (List.length_take_le ..)
      obtain ⟨grown', same'⟩ := putLoop_spec _ _ (theData.drop (Recv.sbufAlloc theData.length)) grown.sound
      have both := grown.trans grown'
      rw [List.take_append_drop] at both
      simp only [Arena.putOnto, room_newNode]
      exact ⟨done both, fun _ buf open' => congrArg Buffer.data ((same' buf open').trans (same buf open'))⟩
    next single =>
      have few := Nat.le_of_not_lt single
      have sound := keeps.sound
      rw [nodes] at sound
      obtain ⟨grown, same⟩ := putOnto_spec sound few theData
      rw [← nodes] at grown same
      exact ⟨done grown, fun alone => same (alone last found few)⟩

end

/-! Any number of queues. -/

/-- The queues of a server, and the shares that are open. -/
structure Server (n : Nat) where
  arena : Arena
  queues : Fin n → Queue
  shares : List Handle

inductive Action (n : Nat) where
  | beginShare (theData : Text)
  | endShare (shares : List Handle)
  | putShare (q : Fin n) (buf : Handle)
  | put (q : Fin n) (theData : Text)
  | delete (q : Fin n) (theLength : Nat)
  | flush (q : Fin n)
  | getmsg (q : Fin n) (theLength : Nat)
  | get (q : Fin n) (theLength : Nat)

def Server.set (server : Server n) (q : Fin n) (after : Arena × Queue) : Server n :=
  { server with arena := after.1, queues := update server.queues q after.2 }

def Server.perform (server : Server n) : Action n → Server n
  | .beginShare theData =>
    { server with
      arena := (server.arena.sbufBeginShare theData).2
      shares := (server.arena.sbufBeginShare theData).1 :: server.shares }
  | .endShare shares =>
    { server with
      arena := shares.foldl Arena.unshare server.arena
      shares := server.shares.filter fun buf => buf ∉ shares }
  | .putShare q buf => server.set q (server.arena.sbufPutShare (server.queues q) buf)
  | .put q theData => server.set q (server.arena.sbufPut (server.queues q) theData)
  | .delete q theLength => server.set q (server.arena.sbufDelete (server.queues q) theLength)
  | .flush q => server.set q (server.arena.sbufFlush (server.queues q))
  | .getmsg q theLength => server.set q (server.arena.sbufGetmsg (server.queues q) theLength).2
  | .get q theLength => server.set q (server.arena.sbufGet (server.queues q) theLength).2

def Server.start (n : Nat) (memory : Handle → Buffer) : Server n :=
  ⟨Arena.sbufInit memory, fun _ => ⟨0, []⟩, []⟩

/-- Only a share that is open is put or ended, and each is ended once. -/
def Server.Possible (server : Server n) : Action n → Prop
  | .putShare _ buf => buf ∈ server.shares
  | .endShare shares => shares.Nodup ∧ ∀ buf ∈ shares, buf ∈ server.shares
  | _ => True

def machine (n : Nat) : Machine (Server n) (Action n) := ⟨Server.perform, Server.Possible⟩

/-- Nothing is not put behind a buffer that others have too. -/
def Server.Fits (server : Server n) : Action n → Prop
  | .put q theData => ∀ last, (server.queues q).nodes.getLast? = some last →
      1 < (server.arena.buffers last.buf).refcount → theData ≠ []
  | _ => True

/-- The nodes of all queues. -/
def Server.all (server : Server n) : Multiset Node := ∑ q, ((server.queues q).nodes : Multiset Node)

def Server.others (server : Server n) (q : Fin n) : Multiset Node :=
  ∑ other ∈ Finset.univ.erase q, ((server.queues other).nodes : Multiset Node)

structure Server.Kept (server : Server n) : Prop where
  sound : server.arena.Sound server.all (· ∈ server.shares)
  length : ∀ q, (server.queues q).length = (server.arena.content (server.queues q).nodes).length

section

variable {n : Nat} {server : Server n}

theorem all_split (server : Server n) (q : Fin n) : server.all = ↑(server.queues q).nodes + server.others q :=
  (Finset.add_sum_erase _ _ (Finset.mem_univ q)).symm

theorem mem_others {q other : Fin n} (differs : other ≠ q) (member : node ∈ (server.queues other).nodes) :
    node ∈ server.others q :=
  Multiset.mem_sum.mpr ⟨other, Finset.mem_erase.mpr ⟨differs, Finset.mem_univ other⟩, member⟩

theorem Server.Kept.keeps (kept : server.Kept) (q : Fin n) :
    server.arena.Keeps (server.queues q) (server.others q) (· ∈ server.shares)
      (server.arena.content (server.queues q).nodes) :=
  ⟨all_split server q ▸ kept.sound, rfl, kept.length q⟩

/-- The bytes of the other queues are as they were. -/
theorem content_others {q other : Fin n} {after : Arena × Queue}
    (done : Done server.arena (server.others q) opened bytes after) (differs : other ≠ q) :
    after.1.content (server.queues other).nodes = server.arena.content (server.queues other).nodes :=
  content_congr fun node member => done.frame node (mem_others differs member)

theorem Server.Kept.set (kept : server.Kept) (q : Fin n) {after : Arena × Queue}
    (done : Done server.arena (server.others q) (· ∈ server.shares) bytes after) : (server.set q after).Kept := by
  have same : (server.set q after).others q = server.others q := by
    refine Finset.sum_congr rfl fun other member => ?_
    simp [Server.set, Finset.ne_of_mem_erase member]
  constructor
  · rw [all_split _ q, same]
    simpa [Server.set] using done.keeps.sound
  · intro other
    by_cases equal : other = q
    · subst equal
      simpa [Server.set, done.keeps.content] using done.keeps.length
    · simpa [Server.set, equal, content_others done equal] using kept.length other

/-- Shares that begin and end leave the queues alone. -/
theorem Server.Kept.arena {after : Arena} {shares : List Handle} (kept : server.Kept)
    (sound : after.Sound server.all (· ∈ shares)) (same : ∀ node ∈ server.all, after.live node = server.arena.live node) :
    Server.Kept { server with arena := after, shares := shares } := by
  refine ⟨sound, fun q => ?_⟩
  have content : after.content (server.queues q).nodes = server.arena.content (server.queues q).nodes := by
    refine content_congr fun node member => same node ?_
    rw [all_split server q]
    exact Multiset.mem_add.mpr (.inl member)
  dsimp only
  rw [content]
  exact kept.length q

theorem endShare_sound (shares : List Handle) {arena : Arena} {all : Multiset Node} {opened : Handle → Prop}
    (sound : arena.Sound all opened) (once : shares.Nodup) (open' : ∀ buf ∈ shares, opened buf) :
    (shares.foldl Arena.unshare arena).Sound all (fun buf => opened buf ∧ buf ∉ shares) ∧
      ∀ other, ((shares.foldl Arena.unshare arena).buffers other).data = (arena.buffers other).data := by
  induction shares generalizing arena opened with
  | nil => simpa using sound
  | cons buf rest ih =>
    obtain ⟨absent, once⟩ := List.nodup_cons.mp once
    obtain ⟨closed, same⟩ := sound.unshare (open' buf List.mem_cons_self)
    have left (other : Handle) (member : other ∈ rest) : opened other ∧ other ≠ buf := by
      refine ⟨open' other (List.mem_cons_of_mem _ member), ?_⟩
      rintro rfl
      exact absent member
    obtain ⟨sound', same'⟩ := ih closed once left
    refine ⟨?_, fun other => (same' other).trans (same other)⟩
    simpa [and_assoc] using sound'

theorem Server.Kept.perform (kept : server.Kept) (possible : server.Possible action) (fits : server.Fits action) :
    (server.perform action).Kept := by
  cases action with
  | beginShare theData =>
    obtain ⟨sound, -, same⟩ := kept.sound.sbufBeginShare theData
    refine kept.arena ?_ fun node member => live_congr (congrArg Buffer.data (same _ (.of_mem member)).1)
    simpa [or_comm] using sound
  | endShare shares =>
    obtain ⟨sound, same⟩ := endShare_sound shares kept.sound possible.1 possible.2
    refine kept.arena ?_ fun node _ => live_congr (same node.buf)
    simpa using sound
  | putShare q buf => exact kept.set q ((kept.keeps q).sbufPutShare possible).done
  | put q theData => exact kept.set q ((kept.keeps q).sbufPut fits).1
  | delete q theLength => exact kept.set q ((kept.keeps q).sbufDelete theLength).done
  | flush q => exact kept.set q (kept.keeps q).sbufFlush.done
  | getmsg q theLength => exact kept.set q ((kept.keeps q).sbufGetmsg theLength).done
  | get q theLength => exact kept.set q ((kept.keeps q).getLoop theLength theLength [] (Nat.le_refl _)).done

theorem Server.Kept.start (n : Nat) (memory : Handle → Buffer) : (Server.start n memory).Kept := by
  have none : (Server.start n memory).all = 0 := Finset.sum_eq_zero fun _ _ => rfl
  refine ⟨⟨?_, ?_, ?_, ?_, ?_, ?_⟩, fun _ => rfl⟩
  · rw [none]
    exact (FreeList.Balanced.empty (by simp)).grow userCount
  · simp [none]
  · intro size
    rw [none]
    exact (FreeList.Balanced.empty (by simp [Taken, refs, Server.start])).grow size.count
  · rw [none]
    simp [Taken, refs, Server.start]
  · simp [none]
  · simp [Server.start]

end

/-- How many nodes of the queues have the buffer. -/
def Server.refcount (server : Server n) (buf : Handle) : Nat :=
  ∑ q, (server.queues q).nodes.countP fun node => node.buf = buf

/-- A buffer that has been made. -/
def Server.Made (server : Server n) (buf : Handle) : Prop := buf.2 < (server.arena.pools buf.1).total

def Server.InPool (server : Server n) (buf : Handle) : Prop := buf.2 ∈ (server.arena.pools buf.1).pool

/-- The counts, the pools and the statistics say what the queues and the shares are. -/
structure Server.Exact (server : Server n) : Prop where
  counted : ∀ buf, server.Made buf → ¬ server.InPool buf →
    (server.arena.buffers buf).refcount = server.refcount buf ∧
      ((server.arena.buffers buf).shared = true ↔ buf ∈ server.shares)
  free : ∀ buf, server.InPool buf ↔ server.Made buf ∧ server.refcount buf = 0 ∧ buf ∉ server.shares
  once : ∀ size, (server.arena.pools size).pool.Nodup
  made : ∀ q, ∀ node ∈ (server.queues q).nodes, server.Made node.buf
  used : ∀ size, (server.arena.pools size).used =
      ((List.range (server.arena.pools size).total).filter fun item => item ∉ (server.arena.pools size).pool).length ∧
    (server.arena.pools size).total - (server.arena.pools size).used = (server.arena.pools size).pool.length
  nodes : (server.all.map Node.number).Nodup ∧ server.arena.users.pool.Nodup ∧
    ∀ number, number ∈ server.arena.users.pool ↔
      number < server.arena.users.total ∧ ∀ q, ∀ node ∈ (server.queues q).nodes, node.number ≠ number
  usersUsed : server.arena.users.used = ((∑ q, (server.queues q).nodes.length : Nat) : Int) ∧
    server.arena.users.total - server.arena.users.used = server.arena.users.pool.length

section

variable {n : Nat} {server : Server n}

theorem refcount_eq (server : Server n) (buf : Handle) : server.refcount buf = refs server.all buf := by
  have mapped : server.all.map Node.buf = ∑ q, ((server.queues q).nodes : Multiset Node).map Node.buf :=
    map_sum (Multiset.mapAddMonoidHom Node.buf) _ _
  rw [refs, mapped, Multiset.count_sum']
  refine Finset.sum_congr rfl fun q _ => ?_
  rw [Multiset.count_map, Multiset.filter_coe, Multiset.coe_card, List.countP_eq_length_filter]
  congr 1
  refine List.filter_congr fun node _ => ?_
  simp [eq_comm]

theorem mem_all : node ∈ server.all ↔ ∃ q, node ∈ (server.queues q).nodes := by
  simp [Server.all, Multiset.mem_sum]

theorem card_all (server : Server n) : server.all.card = ∑ q, (server.queues q).nodes.length := by
  simp [Server.all]

/-- A buffer that is in no pool is in the hands of a node or of a share. -/
theorem Server.Kept.pooled (kept : server.Kept) (buf : Handle) :
    server.InPool buf ↔ server.Made buf ∧ ¬ Taken server.all (· ∈ server.shares) buf :=
  (kept.sound.pools buf.1).free buf.2

private theorem used_users {list : FreeList} {all : Multiset Nat} (balanced : list.Balanced (· ∈ all))
    (distinct : all.Nodup) : list.used = all.card := by
  have counts := balanced.counts.1
  have same : (((List.range list.total).filter fun item => item ∈ all : List Nat) : Multiset Nat) = all := by
    refine (Multiset.Nodup.ext (Multiset.coe_nodup.mpr (List.nodup_range.filter _)) distinct).mpr fun item => ?_
    simpa using balanced.made item
  rw [counts, ← Multiset.coe_card, same]

theorem Server.Kept.exact (kept : server.Kept) : server.Exact where
  counted := by
    intro buf made out
    have taken : Taken server.all (· ∈ server.shares) buf := by
      by_contra none
      exact out ((kept.pooled buf).mpr ⟨made, none⟩)
    obtain ⟨refcount, shared, -, -⟩ := kept.sound.fits buf taken
    exact ⟨refcount.trans (refcount_eq server buf).symm, shared⟩
  free := by
    intro buf
    rw [kept.pooled, refcount_eq, Taken, not_or, Nat.not_lt, Nat.le_zero]
  once := fun size => (kept.sound.pools size).once
  made := by
    intro q node member
    exact (kept.sound.pools node.buf.1).made node.buf.2 (.of_mem (mem_all.mpr ⟨q, member⟩))
  used := by
    intro size
    classical
    obtain ⟨used, free⟩ := (kept.sound.pools size).counts
    refine ⟨?_, free⟩
    rw [used]
    congr 2
    refine List.filter_congr fun item below => ?_
    have pooled := kept.pooled (size, item)
    have made : server.Made (size, item) := List.mem_range.mp below
    simp only [Server.InPool, made, true_and] at pooled
    simp [pooled]
  nodes := by
    refine ⟨kept.sound.distinct, kept.sound.users.once, fun number => ?_⟩
    have outside : number ∉ server.all.map Node.number ↔
        ∀ q, ∀ node ∈ (server.queues q).nodes, node.number ≠ number := by
      simp only [Multiset.mem_map, mem_all, not_exists, not_and]
      constructor
      · intro none q node member
        exact none node ⟨q, member⟩
      · rintro none node ⟨q, member⟩
        exact none q node member
    rw [kept.sound.users.free, outside]
  usersUsed := by
    refine ⟨?_, ?_⟩
    · rw [used_users kept.sound.users kept.sound.distinct, Multiset.card_map, card_all]
    · have used := kept.sound.users.used
      omega

end

/-- In every run that does not put nothing behind a shared buffer, each buffer has the
count of its nodes, is in its pool once exactly when nobody has it, and the statistics are
the true counts. -/
theorem sbuf_conserved (memory : Handle → Buffer) (run : (machine n).Run Server.Fits (.start n memory) final) :
    final.Exact :=
  (run.invariant Server.Kept (fun _ _ possible fits kept => kept.perform possible fits) (.start n memory)).exact

def blank (_ : Handle) : Buffer := ⟨[], 0, 0, false⟩

/-- The first small buffer is shared with both queues. -/
def shareLines (first second : Fin n) : List (Action n) :=
  [.beginShare "hi".toList, .putShare first (.small, 0), .putShare second (.small, 0)]

def bothShare (first second : Fin n) : Server n := (shareLines first second).foldl (machine n).perform (.start n blank)

theorem bothShare_exact : (bothShare 0 1 : Server 2).Exact ∧
    ((bothShare 0 1 : Server 2).arena.buffers (.small, 0)).refcount = 2 := by
  have run : (machine 2).Run Server.Fits (.start 2 blank) (bothShare 0 1) := by
    refine .of_list (shareLines 0 1) (.refl _) ⟨trivial, trivial, ?_, trivial, ?_, trivial, trivial⟩
    · exact List.mem_cons_self
    · exact List.mem_cons_self
  exact ⟨sbuf_conserved blank run, rfl⟩

private theorem sbufPut_nothing {arena : Arena} {theBuf : Queue} (last : Node) (found : theBuf.nodes.getLast? = some last)
    (more : (arena.buffers last.buf).refcount > 1) :
    arena.sbufPut theBuf [] = ((arena.newNode 0).2.append (arena.newNode 0).1.buf [],
      ⟨theBuf.length, theBuf.nodes ++ [(arena.newNode 0).1]⟩) := by
  have none (arena : Arena) (nodes : List Node) : arena.putLoop nodes [] = (arena, nodes) := by
    rw [Arena.putLoop]
    simp
  simp only [Arena.sbufPut, found, more, if_true, Arena.putOnto, List.take_nil, List.drop_nil, none, List.length_nil]
  simp

/-- Nothing is put behind the share, the share is taken, and the next one takes its place:
the node in between is lost with its buffer. -/
def lostLines (first : Fin n) : List (Action n) := [.put first [], .delete first 4, .putShare first (.small, 0)]

theorem nothing_loses : ∃ final, (machine 2).Run Machine.Any (.start 2 blank) final ∧ ¬ final.Exact ∧
    (final.arena.buffers (.small, 1)).refcount = 1 ∧ final.refcount (.small, 1) = 0 := by
  have run : (machine 2).Run Machine.Any (.start 2 blank) ((lostLines 0).foldl (machine 2).perform (bothShare 0 1)) := by
    let lines : List (Action 2) := shareLines 0 1 ++ lostLines 0
    refine .of_list lines (.refl _) ⟨trivial, trivial, ?_, trivial, ?_, trivial, trivial, trivial,
      trivial, trivial, ?_, trivial, trivial⟩
    all_goals exact List.mem_cons_self
  have found : ((bothShare 0 1 : Server 2).queues 0).nodes.getLast? = some ⟨0, (.small, 0), 0⟩ := rfl
  have put := sbufPut_nothing _ found (show ((bothShare 0 1 : Server 2).arena.buffers (.small, 0)).refcount > 1 by decide)
  refine ⟨_, run, ?_, ?_, ?_⟩
  · intro exact
    have used := exact.usersUsed.1
    simp only [lostLines, List.foldl_cons, List.foldl_nil, machine, Server.perform, put] at used
    exact absurd used (by decide)
  · simp only [lostLines, List.foldl_cons, List.foldl_nil, machine, Server.perform, put]
    decide
  · simp only [lostLines, List.foldl_cons, List.foldl_nil, machine, Server.perform, put]
    decide

end SolidIrcd.Sbuf
