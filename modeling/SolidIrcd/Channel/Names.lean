import SolidIrcd.Common
import SolidIrcd.Lib.Batch
import SolidIrcd.Lib.Token
import Mathlib.Data.List.Forall2

/-! NAMES: `m_names` of `channel.c`, and what `send_message` leaves of its lines. -/

namespace SolidIrcd.Channel.Names

open Scan (Text tokens)

/-- What a nickname is at least. -/
structure Nick where
  text : Text
  some : text ≠ []
  short : text.length ≤ nickLen
  solid : ' ' ∉ text

/-- A `chanMember`, with what `m_names` looks at of its client. -/
structure Member where
  cptr : Nat
  name : Nick
  invisible : Bool
  chanop : Bool
  halfop : Bool
  voice : Bool

structure Chan where
  chname : Text
  short : chname.length ≤ channelLen
  secret : Bool
  /-- `MODE_PRIVATE` -/
  hidden : Bool
  members : List Member

/-- A local client that asks. -/
structure Client where
  id : Nat
  name : Nick

def Chan.isMember (chptr : Chan) (sptr : Client) : Bool := chptr.members.any (·.cptr == sptr.id)

/-- `PubChannel`. -/
def Chan.pub (chptr : Chan) : Bool := !chptr.hidden && !chptr.secret

/-- `ShowChannel`. -/
def Chan.showChannel (chptr : Chan) (sptr : Client) : Bool := chptr.pub || chptr.isMember sptr

/-- The sign in front of a nickname. -/
def Member.sign (cm : Member) : Text :=
  if cm.chanop then ['@'] else if cm.halfop then ['%'] else if cm.voice then ['+'] else []

def Member.entry (cm : Member) : Text := cm.sign ++ cm.name.text

def mlen (me : Text) : Nat := me.length + nickLen + 7

/-- What `buf` starts with. -/
def Chan.start (chptr : Chan) : Text :=
  (if chptr.pub then '=' else if chptr.secret then '@' else '*') :: ' ' :: chptr.chname ++ [' ', ':']

/-- The loop of `m_names` with the line at its end: the contents of `buf` that are sent. -/
def namesLoop (me : Text) (member : Bool) (start : Text) : (buf : Text) → (flag : Bool) → List Member → List Text
  | buf, flag, [] => if flag then [buf] else []
  | buf, flag, cm :: members =>
    if cm.invisible && !member then namesLoop me member start buf flag members
    else
      let buf := buf ++ cm.entry ++ [' ']
      if mlen me + buf.length + nickLen > bufSize - 3 then buf :: namesLoop me member start start false members
      else namesLoop me member start buf true members

inductive Reply where
  | tooManyTargets
  | badChanName (cn : Text)
  /-- `RPL_NAMREPLY`, with the line itself. -/
  | namReply (line : Text)
  | endOfNames (para : Text)
  deriving DecidableEq

/-- The pattern of `RPL_NAMREPLY`. -/
def namReplyLine (me : Text) (sptr : Client) (buf : Text) : Text :=
  [':'] ++ me ++ " 353 ".toList ++ sptr.name.text ++ [' '] ++ buf

/-- What `check_channelname` stops at. -/
def illegal (c : Char) : Bool := c.toNat < 33 || c == ',' || c.toNat == 160

/-- `m_names`; `find` is `find_channel`. -/
def mNames (me : Text) (sptr : Client) (find : Text → Option Chan) (para : Option Text) : List Reply :=
  match para with
  | none => [.endOfNames ['*']]
  | some para =>
    if para.contains ',' then [.tooManyTargets]
    else if para.any illegal then [.badChanName (para.dropWhile (!illegal ·))]
    else
      match find para with
      | none => [.endOfNames para]
      | some chptr =>
        if chptr.showChannel sptr then
          (namesLoop me (chptr.isMember sptr) chptr.start chptr.start true chptr.members).map
            (fun buf => Reply.namReply (namReplyLine me sptr buf)) ++ [.endOfNames para]
        else [.endOfNames para]

/-- The line that `send_message` makes of a message to a client. -/
def sendMessage (msg : Text) : Text :=
  if msg.length > 509 then msg.take 510 ++ ['\r', '\n'] else msg ++ ['\r', '\n']

/-- The client that asks may see the member. -/
def Chan.visible (chptr : Chan) (sptr : Client) (cm : Member) : Bool :=
  chptr.showChannel sptr && !(cm.invisible && !chptr.isMember sptr)

/-- The buffer with a batch of names. -/
def render (start : Text) (batch : List Member) : Text × Bool :=
  (start ++ batch.flatMap (fun cm => cm.entry ++ [' ']), !batch.isEmpty)

def push (me start : Text) (buf : Text × Bool) (cm : Member) : Option (Text × Bool) × (Text × Bool) :=
  let text := buf.1 ++ cm.entry ++ [' ']
  if mlen me + text.length + nickLen > bufSize - 3 then (some (text, true), (start, false)) else (none, (text, true))

def close (buf : Text × Bool) : List (Text × Bool) := if buf.2 then [buf] else []

/-- The loop gathers the names that are visible. -/
theorem namesLoop_loop (me : Text) (member : Bool) (start buf : Text) (flag : Bool) (members : List Member) :
    namesLoop me member start buf flag members =
      (Batch.loop (push me start) close (buf, flag) (members.filter (fun cm => !(cm.invisible && !member)))).map
        Prod.fst := by
  induction members generalizing buf flag with
  | nil => cases flag <;> rfl
  | cons cm members ih =>
    rw [namesLoop]
    by_cases skipped : (cm.invisible && !member) = true
    · rw [if_pos skipped, ih, List.filter_cons_of_neg (by simp [skipped])]
    · rw [if_neg skipped, List.filter_cons_of_pos (by rw [Bool.eq_false_iff.mpr skipped]; rfl), Batch.loop, push]
      by_cases full : mlen me + (buf ++ cm.entry ++ [' ']).length + nickLen > bufSize - 3
      · rw [if_pos full, if_pos full, ih]
        rfl
      · rw [if_neg full, if_neg full, ih]
        rfl

theorem sign_cases (cm : Member) : cm.sign = ['@'] ∨ cm.sign = ['%'] ∨ cm.sign = ['+'] ∨ cm.sign = [] := by
  unfold Member.sign
  by_cases chanop : cm.chanop = true
  · exact .inl (if_pos chanop)
  · rw [if_neg chanop]
    by_cases halfop : cm.halfop = true
    · exact .inr (.inl (if_pos halfop))
    · rw [if_neg halfop]
      by_cases voice : cm.voice = true
      · exact .inr (.inr (.inl (if_pos voice)))
      · exact .inr (.inr (.inr (if_neg voice)))

theorem entry_solid (cm : Member) : cm.entry ≠ [] ∧ ' ' ∉ cm.entry := by
  refine ⟨fun empty => cm.name.some (List.append_eq_nil_iff.mp empty).2, ?_⟩
  intro member
  rcases List.mem_append.mp member with front | back
  · rcases sign_cases cm with sign | sign | sign | sign
    all_goals
      rw [sign] at front
      exact absurd front (by decide)
  · exact cm.name.solid back

theorem length_entry_le (cm : Member) : cm.entry.length ≤ nickLen + 1 := by
  have name := cm.name.short
  rw [Member.entry, List.length_append]
  rcases sign_cases cm with sign | sign | sign | sign
  all_goals
    rw [sign]
    simp only [List.length_cons, List.length_nil]
    omega

theorem length_start_le (chptr : Chan) : chptr.start.length ≤ channelLen + 4 := by
  have name := chptr.short
  simp only [Chan.start, List.cons_append, List.length_cons, List.length_append, List.length_nil]
  omega

/-- A batch the loop can hold on to, and one it can send. -/
def Pending (me start : Text) (batch : List Member) : Prop :=
  mlen me + (render start batch).1.length + nickLen ≤ bufSize - 3

def Ready (me start : Text) (batch : List Member) : Prop := mlen me + (render start batch).1.length < bufSize

theorem pending_nil {chptr : Chan} (short : me.length ≤ hostLen) : Pending me chptr.start [] := by
  have length := length_start_le chptr
  simp only [Pending, render, List.flatMap_nil, List.append_nil, mlen, hostLen, nickLen, channelLen, bufSize] at *
  omega

theorem render_nil (start : Text) : render start [] = (start, false) := by
  rw [render, List.flatMap_nil, List.append_nil]
  rfl

theorem render_snoc (start : Text) (batch : List Member) (cm : Member) :
    render start (batch ++ [cm]) = ((render start batch).1 ++ cm.entry ++ [' '], true) := by
  simp [render, List.append_assoc]

theorem push_pushed {chptr : Chan} (short : me.length ≤ hostLen) (pending : Pending me chptr.start batch)
    (cm : Member) :
    Batch.Pushed (render chptr.start) (Pending me chptr.start) (Ready me chptr.start) batch cm
      (push me chptr.start (render chptr.start batch) cm) := by
  have entry := length_entry_le cm
  have longer : (render chptr.start (batch ++ [cm])).1.length =
      (render chptr.start batch).1.length + cm.entry.length + 1 := by
    simp only [render_snoc, List.length_append, List.length_cons, List.length_nil]
  have pushed : push me chptr.start (render chptr.start batch) cm =
      if mlen me + (render chptr.start (batch ++ [cm])).1.length + nickLen > bufSize - 3 then
        (some (render chptr.start (batch ++ [cm])), render chptr.start [])
      else (none, render chptr.start (batch ++ [cm])) := by
    rw [push, render_snoc, render_nil]
  rw [pushed]
  by_cases full : mlen me + (render chptr.start (batch ++ [cm])).1.length + nickLen > bufSize - 3
  · rw [if_pos full]
    refine .full ?_ (pending_nil short)
    simp only [Pending, Ready, nickLen, bufSize] at *
    omega
  · rw [if_neg full]
    exact .kept (Nat.le_of_not_lt full)

theorem close_closed {chptr : Chan} (pending : Pending me chptr.start batch) :
    Batch.Closed (render chptr.start) (Ready me chptr.start) batch (close (render chptr.start batch)) := by
  cases batch with
  | nil => exact .nothing
  | cons cm batch =>
    refine .rest ?_
    simp only [Pending, Ready, nickLen, bufSize] at *
    omega

/-- The contents of `buf` that are sent are batches of the visible members; when there is nobody
to see, the line goes out empty. -/
theorem namesLoop_batches (me : Text) (short : me.length ≤ hostLen) (chptr : Chan) (member : Bool) :
    ∃ batches : List (List Member),
      batches.flatten = chptr.members.filter (fun cm => !(cm.invisible && !member)) ∧
        (∀ batch ∈ batches, Ready me chptr.start batch) ∧
          namesLoop me member chptr.start chptr.start true chptr.members =
            batches.map fun batch => (render chptr.start batch).1 := by
  rw [namesLoop_loop]
  generalize chptr.members.filter (fun cm => !(cm.invisible && !member)) = seen
  have start : Pending me chptr.start [] := pending_nil short
  cases seen with
  | nil =>
    refine ⟨[[]], rfl, ?_, ?_⟩
    · intro batch inside
      rw [List.mem_singleton.mp inside]
      simp only [Pending, Ready, nickLen, bufSize] at *
      omega
    · simp [Batch.loop, close, render]
  | cons cm seen =>
    obtain ⟨batches, split, ready, lines⟩ := Batch.loop_batches (push me chptr.start) close (cm :: seen)
      (fun _ pending cm _ => push_pushed short pending cm) (fun _ pending => close_closed pending) start
    have begun : Batch.loop (push me chptr.start) close (chptr.start, true) (cm :: seen) =
        Batch.loop (push me chptr.start) close (render chptr.start []) (cm :: seen) := by
      simp [Batch.loop, push, render]
    refine ⟨batches, split, ready, ?_⟩
    rw [begun, lines, List.map_map]
    rfl

/-- The text in front of the names of a line. -/
def header (me : Text) (sptr : Client) (chptr : Chan) : Text := namReplyLine me sptr chptr.start

/-- Where the loop sends a batch, at most the last blank is cut off. -/
theorem sendMessage_batch (me : Text) (short : me.length ≤ hostLen) (sptr : Client) (chptr : Chan) (batch : List Member)
    (ready : Ready me chptr.start batch) :
    ∃ tail, sendMessage (namReplyLine me sptr (render chptr.start batch).1) =
        header me sptr chptr ++ tail ++ ['\r', '\n'] ∧ tokens ' ' tail = batch.map Member.entry ∧
      (header me sptr chptr ++ tail ++ ['\r', '\n']).length ≤ bufSize := by
  have solid : ∀ piece ∈ batch.map Member.entry, piece ≠ [] ∧ ' ' ∉ piece := by
    intro piece member
    obtain ⟨cm, -, rfl⟩ := List.mem_map.mp member
    exact entry_solid cm
  have names : batch.flatMap (fun cm => cm.entry ++ [' ']) = (batch.map Member.entry).flatMap (· ++ [' ']) := by
    rw [List.flatMap_map]
  have line : namReplyLine me sptr (render chptr.start batch).1 =
      header me sptr chptr ++ (batch.map Member.entry).flatMap (· ++ [' ']) := by
    simp only [namReplyLine, header, render, names, List.append_assoc]
  have length : (namReplyLine me sptr (render chptr.start batch).1).length ≤ 511 := by
    have nick := sptr.name.short
    simp only [namReplyLine, Ready, mlen, List.length_append, List.length_cons, List.length_nil, bufSize] at ready ⊢
    rw [show " 353 ".toList.length = 5 from rfl]
    omega
  rw [sendMessage]
  by_cases long : (namReplyLine me sptr (render chptr.start batch).1).length > 509
  · rw [if_pos long]
    by_cases cut : (namReplyLine me sptr (render chptr.start batch).1).length = 511
    · have some : batch.map Member.entry ≠ [] := by
        intro empty
        have start := length_start_le chptr
        have nick := sptr.name.short
        rw [line, empty, List.flatMap_nil, List.append_nil, header, namReplyLine] at cut
        simp only [List.length_append, List.length_cons, List.length_nil] at cut
        rw [show " 353 ".toList.length = 5 from rfl] at cut
        simp only [nickLen, channelLen, hostLen] at *
        omega
      have whole : namReplyLine me sptr (render chptr.start batch).1 =
          header me sptr chptr ++ [' '].intercalate (batch.map Member.entry) ++ [' '] := by
        rw [line, Scan.flatMap_intercalate ' ' some, List.append_assoc]
      have most : (header me sptr chptr ++ [' '].intercalate (batch.map Member.entry)).length = 510 := by
        rw [whole, List.length_append] at cut
        exact Nat.succ.inj cut
      refine ⟨_, ?_, Scan.tokens_intercalate _ solid, ?_⟩
      · rw [whole, List.take_left' most]
      · rw [List.length_append, most]
        rfl
    · refine ⟨_, ?_, Scan.tokens_flatMap _ solid, ?_⟩
      · rw [List.take_of_length_le (by omega), line]
      · rw [← line, List.length_append]
        simp only [List.length_cons, List.length_nil, bufSize]
        omega
  · rw [if_neg long]
    refine ⟨_, by rw [line], Scan.tokens_flatMap _ solid, ?_⟩
    rw [← line, List.length_append]
    simp only [List.length_cons, List.length_nil, bufSize]
    omega

/-- NAMES sends every member that the client may see, once, in the order of the channel and with
its sign, and nobody else; no line is longer than a message can be. -/
theorem names_complete (me : Text) (short : me.length ≤ hostLen) (sptr : Client) (find : Text → Option Chan)
    (para : Text) (chptr : Chan) (found : find para = some chptr) (legal : para.any illegal = false) :
    ∃ batches : List (List Member), batches.flatten = chptr.members.filter (chptr.visible sptr) ∧
      ∃ lines, mNames me sptr find (some para) = lines.map Reply.namReply ++ [.endOfNames para] ∧
        List.Forall₂ (fun line batch => (sendMessage line).length ≤ bufSize ∧
          ∃ tail, sendMessage line = header me sptr chptr ++ tail ++ ['\r', '\n'] ∧
            tokens ' ' tail = batch.map Member.entry) lines batches := by
  have single : para.contains ',' = false := by
    apply Bool.eq_false_iff.mpr
    intro comma
    exact List.any_eq_false.mp legal ',' (List.contains_iff_mem.mp comma) rfl
  have replies : mNames me sptr find (some para) = if chptr.showChannel sptr then
      (namesLoop me (chptr.isMember sptr) chptr.start chptr.start true chptr.members).map
        (fun buf => Reply.namReply (namReplyLine me sptr buf)) ++ [.endOfNames para]
      else [.endOfNames para] := by
    rw [mNames, single, legal, found]
    rfl
  rw [replies]
  by_cases shown : chptr.showChannel sptr = true
  · rw [if_pos shown]
    obtain ⟨batches, split, ready, lines⟩ := namesLoop_batches me short chptr (chptr.isMember sptr)
    refine ⟨batches, ?_, batches.map fun batch => namReplyLine me sptr (render chptr.start batch).1, ?_, ?_⟩
    · rw [split]
      apply List.filter_congr
      intro cm _
      rw [Chan.visible, shown, Bool.true_and]
    · rw [lines, List.map_map, List.map_map]
      rfl
    · rw [List.forall₂_map_left_iff, List.forall₂_same]
      intro batch inside
      obtain ⟨tail, sent, names, length⟩ := sendMessage_batch me short sptr chptr batch (ready batch inside)
      exact ⟨sent ▸ length, tail, sent, names⟩
  · rw [if_neg shown]
    refine ⟨[], ?_, [], rfl, .nil⟩
    simp [Chan.visible, shown]

/-- A channel with an operator, somebody invisible and a voice. -/
private def parlour : Chan :=
  ⟨"#parlour".toList, by decide, false, false,
    [⟨1, ⟨"ann".toList, by decide, by decide, by decide⟩, false, true, false, true⟩,
      ⟨2, ⟨"bob".toList, by decide, by decide, by decide⟩, true, false, false, false⟩,
      ⟨3, ⟨"cid".toList, by decide, by decide, by decide⟩, false, false, false, true⟩]⟩

private def asker : Client := ⟨4, ⟨"dan".toList, by decide, by decide, by decide⟩⟩

theorem names_complete_parlour :
    ∃ batches : List (List Member), batches.flatten = parlour.members.filter (parlour.visible asker) ∧
      ∃ lines, mNames "irc.net".toList asker (fun _ => some parlour) (some "#parlour".toList) =
          lines.map Reply.namReply ++ [.endOfNames "#parlour".toList] ∧
        List.Forall₂ (fun line batch => (sendMessage line).length ≤ bufSize ∧
          ∃ tail, sendMessage line = header "irc.net".toList asker parlour ++ tail ++ ['\r', '\n'] ∧
            tokens ' ' tail = batch.map Member.entry) lines batches :=
  names_complete "irc.net".toList (by decide) asker (fun _ => some parlour) "#parlour".toList parlour rfl (by decide)

example : mNames "irc.net".toList asker (fun _ => some parlour) (some "#parlour".toList) =
    [.namReply ":irc.net 353 dan = #parlour :@ann +cid ".toList, .endOfNames "#parlour".toList] := by decide +kernel

end SolidIrcd.Channel.Names
