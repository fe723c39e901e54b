import SolidIrcd.Channel.SetMode
import SolidIrcd.Lib.Batch

/-! `send_channel_modes` and `send_channel_lists` of `channel.c`: what a server
tells a new link about one channel. -/

namespace SolidIrcd.Channel

open Scan (Text)
open Decimal (print)

def modeBufLen : Nat := 200
def maxTsModeParams : Nat := maxPara - 5

/-- The signs in front of a nickname, then the nickname. -/
def memberWord (l : Member) : Text :=
  (if l.chanop then ['@'] else []) ++ (if l.halfop then ['%'] else []) ++ (if l.voice then ['+'] else []) ++
    l.name

/-- The members with one operator or half-operator first, if there is any. -/
def burstOrder (members : List Member) : List Member :=
  match members.find? fun l => l.chanop || l.halfop with
  | none => members
  | some anop => anop :: members.erase anop

/-- `:%s SJOIN %ld %s %s %s :`. -/
def sjoinOpening (me chname : Text) (channelts : Int) (modebuf parabuf : Text) : Text :=
  ':' :: me ++ " SJOIN ".toList ++ print channelts ++ ' ' :: chname ++ ' ' :: modebuf ++ ' ' :: parabuf ++
    " :".toList

/-- `:%s SJOIN %ld %s 0 :`. -/
def sjoinContinuation (me chname : Text) (channelts : Int) : Text :=
  ':' :: me ++ " SJOIN ".toList ++ print channelts ++ ' ' :: chname ++ " 0 :".toList

/-- The member loop: `buf` is sent when less than eighty bytes are left of it. -/
def memberLines (continuation : Text) : (buf : Text) → (n : Nat) → List Member → List Text
  | buf, n, [] => if n ≠ 0 then [buf] else []
  | buf, n, l :: rest =>
    let buf := buf ++ memberWord l ++ [' ']
    if buf.length > bufSize - 80 then buf :: memberLines continuation continuation 0 rest
    else memberLines continuation buf (n + 1) rest

/-- `modebuf`, `parabuf` and `count` of `send_channel_lists`. -/
structure ListBuf where
  modebuf : Text
  parabuf : Text
  count : Nat
  deriving DecidableEq, Repr

def ListBuf.empty : ListBuf := ⟨['+'], [], 0⟩

/-- The body of each of the three list loops, with the buffers it sends. -/
def listStep (buf : ListBuf) (list : MaskList) (mask : Text) : Option ListBuf × ListBuf :=
  let fits := decide (buf.parabuf.length + mask.length + 20 < modeBufLen)
  let added := if fits then
    ⟨buf.modebuf ++ [list.letter], addPara buf.parabuf mask, buf.count + 1⟩ else buf
  if (!fits && buf.parabuf ≠ []) || added.count = maxTsModeParams then
    (some added, if added.count ≠ maxTsModeParams then ⟨['+', list.letter], mask, 1⟩ else .empty)
  else (none, added)

/-- The three loops one after the other, and the buffers left at the end. -/
def listLoop : ListBuf → List (MaskList × Text) → List ListBuf
  | buf, [] => if buf.modebuf.length > 1 ∨ buf.parabuf ≠ [] then [buf] else []
  | buf, (list, mask) :: rest =>
    let (sent, next) := listStep buf list mask
    sent.toList ++ listLoop next rest

/-- The masks of all lists, in the order they are sent. -/
def Chan.entries (chptr : Chan) : List (MaskList × Text) :=
  chptr.banlist.map (.ban, ·) ++ chptr.banexemptList.map (.exempt, ·) ++ chptr.inviteList.map (.invite, ·)

/-- `send_channel_modes` to a server: the SJOIN lines, then the MODE lines. -/
def sendChannelModes (build : Build) (me : Text) (chptr : Chan) : List Text :=
  if chptr.chname.head? ≠ some '#' then []
  else
    let (modebuf, parabuf) := channelModes build true chptr.mode
    memberLines (sjoinContinuation me chptr.chname chptr.channelts)
        (sjoinOpening me chptr.chname chptr.channelts modebuf parabuf) 0 (burstOrder chptr.members) ++
      (listLoop .empty chptr.entries).map fun buf =>
        modeLine me chptr.chname chptr.channelts buf.modebuf buf.parabuf

/-- The member list of one SJOIN line. -/
def chunkText (chunk : List Member) : Text := chunk.flatMap fun l => memberWord l ++ [' ']

/-- The member loop cuts the members into runs, one to a line; only the first line
has what was in the buffer already. -/
theorem memberLines_chunks (continuation buf : Text) (n : Nat) (members : List Member) :
    ∃ first rest, members = first ++ rest.flatten ∧ (n = 0 → first = [] → rest = []) ∧
      memberLines continuation buf n members =
        (if n = 0 ∧ first = [] then [] else [buf ++ chunkText first]) ++
          rest.map (continuation ++ chunkText ·) := by
  induction members generalizing buf n with
  | nil =>
    refine ⟨[], [], rfl, fun _ _ => rfl, ?_⟩
    by_cases zero : n = 0 <;> simp [memberLines, zero, chunkText]
  | cons l members ih =>
    simp only [memberLines]
    split
    · obtain ⟨first, rest, split, short, lines⟩ := ih continuation 0
      by_cases none : first = []
      · refine ⟨[l], [], by simp [split, none, short rfl none], by simp, ?_⟩
        simp [lines, none, short rfl none, chunkText]
      · refine ⟨[l], first :: rest, by simp [split], by simp, ?_⟩
        simp [lines, none, chunkText]
    · obtain ⟨first, rest, split, -, lines⟩ := ih (buf ++ memberWord l ++ [' ']) (n + 1)
      refine ⟨l :: first, rest, by simp [split], by simp, ?_⟩
      rw [lines]
      simp [chunkText]

/-- The buffers that hold a run of masks. -/
def ListBuf.of (batch : List (MaskList × Text)) : ListBuf :=
  ⟨'+' :: batch.map fun entry => entry.1.letter, (batch.map Prod.snd).foldl addPara [], batch.length⟩

/-- What fits in one MODE line. -/
structure Batch (batch : List (MaskList × Text)) : Prop where
  nonempty : batch ≠ []
  few : batch.length ≤ maxTsModeParams
  short : (ListBuf.of batch).parabuf.length < modeBufLen

@[simp] theorem ListBuf.of_nil : ListBuf.of [] = .empty := rfl

theorem ListBuf.of_concat (batch : List (MaskList × Text)) (list : MaskList) (mask : Text) :
    ListBuf.of (batch ++ [(list, mask)]) =
      ⟨(ListBuf.of batch).modebuf ++ [list.letter], addPara (ListBuf.of batch).parabuf mask,
        (ListBuf.of batch).count + 1⟩ := by
  simp [ListBuf.of]

theorem foldl_addPara_ne_nil (start : pbuf ≠ []) (paras : List Text) : paras.foldl addPara pbuf ≠ [] := by
  induction paras generalizing pbuf with
  | nil => exact start
  | cons para paras ih => exact ih (by simp [addPara, start])

theorem parabuf_eq_nil_iff (solid : ∀ entry ∈ batch, entry.2 ≠ []) :
    (ListBuf.of batch).parabuf = [] ↔ batch = [] := by
  cases batch with
  | nil => simp [ListBuf.of]
  | cons entry batch =>
    have first : addPara [] entry.2 ≠ [] := by simpa [addPara] using solid entry (List.mem_cons_self ..)
    simpa [ListBuf.of] using foldl_addPara_ne_nil first (batch.map Prod.snd)

/-- A mask that fits is added, and a line of ten is sent. -/
theorem listStep_fits (fits : (ListBuf.of batch).parabuf.length + mask.length + 20 < modeBufLen) :
    listStep (.of batch) list mask =
      if batch.length + 1 = maxTsModeParams then (some (.of (batch ++ [(list, mask)])), .empty)
      else (none, .of (batch ++ [(list, mask)])) := by
  have count : (ListBuf.of (batch ++ [(list, mask)])).count = batch.length + 1 := by simp [ListBuf.of]
  simp only [listStep, fits, decide_true, if_true, Bool.not_true, Bool.false_and, Bool.false_or,
    decide_eq_true_eq, ← ListBuf.of_concat, count]
  by_cases full : batch.length + 1 = maxTsModeParams <;> simp [full]

/-- A mask that does not fit starts the next line. -/
theorem listStep_over (tooLong : ¬ (ListBuf.of batch).parabuf.length + mask.length + 20 < modeBufLen)
    (some : (ListBuf.of batch).parabuf ≠ []) (few : batch.length ≠ maxTsModeParams) :
    listStep (.of batch) list mask = (Option.some (.of batch), .of [(list, mask)]) := by
  have count : (ListBuf.of batch).count ≠ maxTsModeParams := few
  have fresh : ListBuf.of [(list, mask)] = ⟨['+', list.letter], mask, 1⟩ := by simp [ListBuf.of, addPara]
  simp [listStep, tooLong, some, count, fresh]

theorem parabuf_concat_short (list : MaskList)
    (fits : (ListBuf.of batch).parabuf.length + mask.length + 20 < modeBufLen) :
    (ListBuf.of (batch ++ [(list, mask)])).parabuf.length < modeBufLen := by
  rw [ListBuf.of_concat]
  simp only [addPara]
  split
  · omega
  · simp only [List.length_append, List.length_cons]
    omega

/-- A run that more masks may be added to. -/
private structure Gathered (batch : List (MaskList × Text)) : Prop where
  solid : ∀ entry ∈ batch, entry.2 ≠ []
  few : batch.length < maxTsModeParams
  short : (ListBuf.of batch).parabuf.length < modeBufLen

private theorem listStep_pushed {batch : List (MaskList × Text)} (gathered : Gathered batch) (entry : MaskList × Text)
    (fits : entry.2 ≠ [] ∧ entry.2.length + 20 < modeBufLen) :
    Batch.Pushed ListBuf.of Gathered Batch batch entry (listStep (.of batch) entry.1 entry.2) := by
  obtain ⟨list, mask⟩ := entry
  obtain ⟨solid, few, short⟩ := gathered
  simp only at fits
  by_cases room : (ListBuf.of batch).parabuf.length + mask.length + 20 < modeBufLen
  · have short' := parabuf_concat_short list room
    rw [listStep_fits room]
    split
    next full => exact .full ⟨by simp, by simp [full], short'⟩ ⟨by simp, by decide, by decide⟩
    next more =>
      refine .kept ⟨?_, by simp; omega, short'⟩
      intro entry member
      obtain old | new := List.mem_append.mp member
      · exact solid entry old
      · simpa [List.mem_singleton.mp new] using fits.1
  · have some : (ListBuf.of batch).parabuf ≠ [] := by
      intro none
      simp only [none, List.length_nil] at room
      omega
    have nonempty : batch ≠ [] := (parabuf_eq_nil_iff solid).not.mp some
    have single : [(list, mask)].length < maxTsModeParams := by simp [maxTsModeParams, maxPara]
    rw [listStep_over room some (Nat.ne_of_lt few)]
    refine .overflow ⟨nonempty, Nat.le_of_lt few, short⟩ ⟨by simpa using fits.1, single, ?_⟩
    simp only [ListBuf.of, addPara, List.map_cons, List.map_nil, List.foldl_cons, List.foldl_nil, if_true]
    omega

private def listClose (buf : ListBuf) : List ListBuf :=
  if buf.modebuf.length > 1 ∨ buf.parabuf ≠ [] then [buf] else []

private theorem listClose_closed (gathered : Gathered batch) :
    Batch.Closed ListBuf.of Batch batch (listClose (ListBuf.of batch)) := by
  by_cases none : batch = []
  · subst none
    exact .nothing
  · rw [listClose, if_pos (.inr ((parabuf_eq_nil_iff gathered.solid).not.mpr none))]
    exact .rest ⟨none, Nat.le_of_lt gathered.few, gathered.short⟩

private theorem listLoop_eq (buf : ListBuf) (entries : List (MaskList × Text)) :
    listLoop buf entries = Batch.loop (fun buf entry => listStep buf entry.1 entry.2) listClose buf entries := by
  induction entries generalizing buf with
  | nil => rfl
  | cons entry entries ih =>
    rw [Batch.loop, ← ih]
    rfl

/-- The list loops cut the masks into runs that fit, one to a line, and lose none. -/
theorem listLoop_batches (fits : ∀ entry ∈ entries, entry.2 ≠ [] ∧ entry.2.length + 20 < modeBufLen)
    (solid : ∀ entry ∈ batch, entry.2 ≠ []) (few : batch.length < maxTsModeParams)
    (short : (ListBuf.of batch).parabuf.length < modeBufLen) :
    ∃ batches : List (List (MaskList × Text)), batch ++ entries = batches.flatten ∧
      (∀ one ∈ batches, Batch one) ∧ listLoop (.of batch) entries = batches.map ListBuf.of := by
  have pushes : ∀ batch, Gathered batch → ∀ entry ∈ entries,
      Batch.Pushed ListBuf.of Gathered Batch batch entry (listStep (.of batch) entry.1 entry.2) :=
    fun _ gathered entry member => listStep_pushed gathered entry (fits entry member)
  have gathered : Gathered batch := ⟨solid, few, short⟩
  obtain ⟨batches, split, ready, lines⟩ := Batch.loop_batches
    (fun (buf : ListBuf) (entry : MaskList × Text) => listStep buf entry.1 entry.2) listClose entries pushes
    (fun _ => listClose_closed) gathered
  exact ⟨batches, split.symm, ready, (listLoop_eq _ _).trans lines⟩

end SolidIrcd.Channel
