import SolidIrcd.Channel.Names

/-! The channels in the answer to WHOIS: the loop of `m_whois` in `s_user.c` that gathers their names in lines. -/

namespace SolidIrcd.Whois

open Channel.Names (Chan Client)
open Scan (Text tokens)

/-- A channel with a name that `check_channelname` lets through. -/
structure Room extends Chan where
  some : chname ≠ []
  solid : ' ' ∉ chname

/-- The client that asks; `remote` where it is reached over another server. -/
structure Asker where
  client : Client
  remote : Bool
  admin : Bool
  sadmin : Bool

/-- The client that is asked about, with the list `user->channel`. -/
structure Target where
  id : Nat
  name : Text
  short : name.length ≤ nickLen
  channels : List Room

/-- The name of the client in the answer. -/
def Target.shown (acptr : Target) : Text := if acptr.name = [] then ['?'] else acptr.name

/-- `is_chan_op`. -/
def isChanOp (id : Nat) (chptr : Room) : Bool := (chptr.members.find? (·.cptr == id)).any (·.chanop)

/-- `has_voice`. -/
def hasVoice (id : Nat) (chptr : Room) : Bool := (chptr.members.find? (·.cptr == id)).any (·.voice)

/-- The test of the loop: administrators are shown every channel. -/
def Asker.sees (sptr : Asker) (chptr : Room) : Bool := chptr.showChannel sptr.client || sptr.admin || sptr.sadmin

/-- The signs in front of the name of a channel. -/
def marks (sptr : Asker) (acptr : Target) (chptr : Room) : Text :=
  (if chptr.showChannel sptr.client then [] else ['%']) ++
    (if isChanOp acptr.id chptr then ['@'] else if hasVoice acptr.id chptr then ['+'] else [])

def entry (sptr : Asker) (acptr : Target) (chptr : Room) : Text := marks sptr acptr chptr ++ chptr.chname

def mlen (me : Text) (sptr : Asker) (acptr : Target) : Nat :=
  me.length + sptr.client.name.text.length + 6 + acptr.shown.length

/-- The loop with the line at its end: the contents of `buf` that are sent. -/
def channelLoop (me : Text) (sptr : Asker) (acptr : Target) : (buf : Text) → List Room → List Text
  | buf, [] => if buf ≠ [] then [buf] else []
  | buf, chptr :: channels =>
    if sptr.sees chptr then
      if buf.length + chptr.chname.length > bufSize - 4 - mlen me sptr acptr then
        buf :: channelLoop me sptr acptr (entry sptr acptr chptr ++ [' ']) channels
      else channelLoop me sptr acptr (buf ++ (entry sptr acptr chptr ++ [' '])) channels
    else channelLoop me sptr acptr buf channels

/-- The line that `send_message` makes of a message to the client that asks. -/
def Asker.sendMessage (sptr : Asker) (msg : Text) : Text :=
  if sptr.remote then (if msg.length > 510 then msg.take 511 ++ ['\n'] else msg ++ ['\n'])
  else Channel.Names.sendMessage msg

/-- What ends a line. -/
def Asker.ending (sptr : Asker) : Text := if sptr.remote then ['\n'] else ['\r', '\n']

/-- What stands in front of the names in a line. -/
def header (me : Text) (sptr : Asker) (acptr : Target) : Text :=
  [':'] ++ me ++ " 319 ".toList ++ sptr.client.name.text ++ [' '] ++ acptr.shown ++ " :".toList

/-- The lines of `RPL_WHOISCHANNELS`. -/
def whoisLines (me : Text) (sptr : Asker) (acptr : Target) : List Text :=
  (channelLoop me sptr acptr [] acptr.channels).map (header me sptr acptr ++ ·)

/-- Every channel that the client may see is in one line, once, in order and with its whole name, and no line is cut. -/
def Delivered (me : Text) (sptr : Asker) (acptr : Target) : Prop :=
  ∃ batches : List (List Room), batches.flatten = acptr.channels.filter sptr.sees ∧
    List.Forall₂ (fun line batch => line.length ≤ 510 ∧
      ∃ tail, sptr.sendMessage line = header me sptr acptr ++ tail ++ sptr.ending ∧
        tokens ' ' tail = batch.map (entry sptr acptr)) (whoisLines me sptr acptr) batches

/-- The visible channels, each with the length that `buf` has when the loop comes to it. -/
def arrivals (me : Text) (sptr : Asker) (acptr : Target) : (len : Nat) → List Room → List (Nat × Room)
  | _, [] => []
  | len, chptr :: channels =>
    if sptr.sees chptr then
      (len, chptr) :: arrivals me sptr acptr
        ((if len + chptr.chname.length > bufSize - 4 - mlen me sptr acptr then 0 else len) +
          (entry sptr acptr chptr).length + 1) channels
    else arrivals me sptr acptr len channels

/-- Where the budget has room for the name, it has room for the signs, the blank and the rest of the line too. -/
def Fits (me : Text) (sptr : Asker) (acptr : Target) (arrival : Nat × Room) : Prop :=
  arrival.1 + arrival.2.chname.length ≤ bufSize - 4 - mlen me sptr acptr →
    arrival.1 + arrival.2.chname.length + (marks sptr acptr arrival.2).length + 2 ≤ bufSize - 4 - mlen me sptr acptr

instance : Decidable (Fits me sptr acptr arrival) := inferInstanceAs (Decidable (_ → _))

variable {sptr : Asker} {acptr : Target}

theorem length_marks_le (sptr : Asker) (acptr : Target) (chptr : Room) : (marks sptr acptr chptr).length ≤ 2 := by
  unfold marks
  rw [List.length_append]
  split <;> split <;> (try split) <;> decide

theorem space_not_mem_marks (chptr : Room) : ' ' ∉ marks sptr acptr chptr := by
  unfold marks
  split <;> split <;> (try split) <;> decide

theorem entry_solid (chptr : Room) : entry sptr acptr chptr ≠ [] ∧ ' ' ∉ entry sptr acptr chptr := by
  refine ⟨fun empty => chptr.some (List.append_eq_nil_iff.mp empty).2, fun member => ?_⟩
  obtain front | back := List.mem_append.mp member
  · exact space_not_mem_marks chptr front
  · exact chptr.solid back

theorem length_header (me : Text) (sptr : Asker) (acptr : Target) :
    (header me sptr acptr).length = mlen me sptr acptr + 3 := by
  have number : " 319 ".toList.length = 5 := rfl
  have colon : " :".toList.length = 2 := rfl
  simp only [header, mlen, List.length_append, List.length_cons, List.length_nil, number, colon]
  omega

theorem mlen_le (short : me.length ≤ hostLen) (sptr : Asker) (acptr : Target) : mlen me sptr acptr ≤ 129 := by
  have nick := sptr.client.name.short
  have shown : acptr.shown.length ≤ nickLen := by
    unfold Target.shown
    split
    · decide
    · exact acptr.short
  simp only [mlen, hostLen, nickLen] at *
  omega

/-! ### Batches -/

def render (sptr : Asker) (acptr : Target) (batch : List Room) : Text :=
  batch.flatMap fun chptr => entry sptr acptr chptr ++ [' ']

def push (me : Text) (sptr : Asker) (acptr : Target) (buf : Text) (chptr : Room) : Option Text × Text :=
  if buf.length + chptr.chname.length > bufSize - 4 - mlen me sptr acptr then
    (some buf, entry sptr acptr chptr ++ [' '])
  else (none, buf ++ (entry sptr acptr chptr ++ [' ']))

def close (buf : Text) : List Text := if buf ≠ [] then [buf] else []

theorem channelLoop_loop (me : Text) (buf : Text) (channels : List Room) :
    channelLoop me sptr acptr buf channels = Batch.loop (push me sptr acptr) close buf (channels.filter sptr.sees) := by
  induction channels generalizing buf with
  | nil => rfl
  | cons chptr channels ih =>
    rw [channelLoop]
    by_cases seen : sptr.sees chptr = true
    · rw [if_pos seen, List.filter_cons_of_pos seen, Batch.loop, push]
      split
      · rw [ih]
        rfl
      · rw [ih]
        rfl
    · rw [if_neg seen, List.filter_cons_of_neg seen, ih]

theorem push_pushed (batch : List Room) (chptr : Room) :
    Batch.Pushed (render sptr acptr) (fun _ => True) (fun _ => True) batch chptr
      (push me sptr acptr (render sptr acptr batch) chptr) := by
  have one : entry sptr acptr chptr ++ [' '] = render sptr acptr [chptr] := by simp [render]
  have more : render sptr acptr batch ++ (entry sptr acptr chptr ++ [' ']) = render sptr acptr (batch ++ [chptr]) := by
    simp [render]
  rw [push, one]
  split
  · exact .overflow trivial trivial
  · rw [← one, more]
    exact .kept trivial

theorem close_closed (batch : List Room) :
    Batch.Closed (render sptr acptr) (fun _ => True) batch (close (render sptr acptr batch)) := by
  cases batch with
  | nil => exact .nothing
  | cons chptr batch =>
    have filled : render sptr acptr (chptr :: batch) ≠ [] := by simp [render]
    rw [close, if_pos filled]
    exact .rest trivial

theorem whoisLines_batches (me : Text) (sptr : Asker) (acptr : Target) :
    ∃ batches : List (List Room), batches.flatten = acptr.channels.filter sptr.sees ∧
      whoisLines me sptr acptr = batches.map fun batch => header me sptr acptr ++ render sptr acptr batch := by
  have gathered : ∃ batches : List (List Room), batches.flatten = [] ++ acptr.channels.filter sptr.sees ∧
      (∀ one ∈ batches, True) ∧
        Batch.loop (push me sptr acptr) close (render sptr acptr [])
          (acptr.channels.filter sptr.sees) = batches.map (render sptr acptr) :=
    Batch.loop_batches _ _ _ (fun batch _ chptr _ => push_pushed batch chptr) (fun batch _ => close_closed batch) trivial
  obtain ⟨batches, split, -, lines⟩ := gathered
  refine ⟨batches, split, ?_⟩
  rw [whoisLines, channelLoop_loop, show ([] : Text) = render sptr acptr [] from rfl, lines, List.map_map]
  rfl

theorem tokens_render (batch : List Room) : tokens ' ' (render sptr acptr batch) = batch.map (entry sptr acptr) := by
  have pieces : render sptr acptr batch = (batch.map (entry sptr acptr)).flatMap (· ++ [' ']) := by
    rw [render, List.flatMap_map]
  rw [pieces]
  refine Scan.tokens_flatMap _ ?_
  intro piece member
  obtain ⟨chptr, -, rfl⟩ := List.mem_map.mp member
  exact entry_solid chptr

theorem sendMessage_of_short (sptr : Asker) (short : line.length ≤ 510) :
    sptr.sendMessage line = line ++ sptr.ending := by
  unfold Asker.sendMessage Asker.ending Channel.Names.sendMessage
  split
  · rw [if_neg (Nat.not_lt.mpr short)]
  · split
    · rw [List.take_of_length_le short]
    · rfl

/-- Only the lengths of the lines are in question. -/
theorem delivered_iff (me : Text) (sptr : Asker) (acptr : Target) :
    Delivered me sptr acptr ↔ ∀ line ∈ whoisLines me sptr acptr, line.length ≤ 510 := by
  constructor
  · intro delivered
    obtain ⟨batches, -, each⟩ := delivered
    generalize whoisLines me sptr acptr = lines at each
    induction each with
    | nil => simp
    | cons line later ih => exact List.forall_mem_cons.mpr ⟨line.1, ih⟩
  · intro short
    obtain ⟨batches, split, lines⟩ := whoisLines_batches me sptr acptr
    refine ⟨batches, split, ?_⟩
    rw [lines] at short ⊢
    rw [List.forall₂_map_left_iff, List.forall₂_same]
    intro batch member
    have fits := short _ (List.mem_map_of_mem member)
    exact ⟨fits, _, sendMessage_of_short sptr fits, tokens_render batch⟩

/-! ### Lengths -/

/-- A buffer that makes a line within the limit. -/
def Held (me : Text) (sptr : Asker) (acptr : Target) (buf : Text) : Prop := buf.length + mlen me sptr acptr + 3 ≤ 510

theorem whoisLines_short_iff (me : Text) (sptr : Asker) (acptr : Target) :
    (∀ line ∈ whoisLines me sptr acptr, line.length ≤ 510) ↔
      ∀ buf ∈ channelLoop me sptr acptr [] acptr.channels, Held me sptr acptr buf := by
  rw [whoisLines, List.forall_mem_map]
  have same (buf : Text) : (header me sptr acptr ++ buf).length ≤ 510 ↔ Held me sptr acptr buf := by
    rw [List.length_append, length_header, Held]
    omega
  simp only [same]

/-- A line that has grown too long is sent, at the latest at the end. -/
theorem channelLoop_long (me : Text) (channels : List Room) (some : buf ≠ []) (long : ¬ Held me sptr acptr buf) :
    ∃ line ∈ channelLoop me sptr acptr buf channels, ¬ Held me sptr acptr line := by
  induction channels generalizing buf with
  | nil => exact ⟨buf, by rw [channelLoop, if_pos some]; exact List.mem_singleton_self buf, long⟩
  | cons chptr channels ih =>
    rw [channelLoop]
    split
    · split
      · exact ⟨buf, List.mem_cons_self .., long⟩
      · refine ih (List.append_ne_nil_of_left_ne_nil some _) ?_
        simp only [Held, List.length_append] at long ⊢
        omega
    · exact ih some long

theorem length_entry (chptr : Room) :
    (entry sptr acptr chptr).length = (marks sptr acptr chptr).length + chptr.chname.length := List.length_append

/-- The first entry of a line always has its place. -/
theorem held_entry (short : me.length ≤ hostLen) (chptr : Room) :
    Held me sptr acptr (entry sptr acptr chptr ++ [' ']) := by
  have front := mlen_le short sptr acptr
  have signs := length_marks_le sptr acptr chptr
  have name := chptr.short
  simp only [Held, List.length_append, length_entry, channelLen, List.length_singleton] at *
  omega

/-- A name that the budget lets in keeps the line within the limit where the signs have their place. -/
theorem fits_iff (short : me.length ≤ hostLen) (chptr : Room)
    (room : ¬ buf.length + chptr.chname.length > bufSize - 4 - mlen me sptr acptr) :
    Fits me sptr acptr (buf.length, chptr) ↔ Held me sptr acptr (buf ++ (entry sptr acptr chptr ++ [' '])) := by
  have front := mlen_le short sptr acptr
  simp only [Fits, Held, List.length_append, length_entry, List.length_singleton, bufSize] at room ⊢
  omega

/-- The step of the loop, with what is sent of the line so far. -/
theorem channelLoop_short_iff (short : me.length ≤ hostLen) (channels : List Room) (held : Held me sptr acptr buf) :
    (∀ line ∈ channelLoop me sptr acptr buf channels, Held me sptr acptr line) ↔
      ∀ arrival ∈ arrivals me sptr acptr buf.length channels, Fits me sptr acptr arrival := by
  induction channels generalizing buf with
  | nil =>
    rw [channelLoop, arrivals]
    split
    · simpa using held
    · simp
  | cons chptr channels ih =>
    have grown :
        (buf ++ (entry sptr acptr chptr ++ [' '])).length = buf.length + (entry sptr acptr chptr).length + 1 := by
      rw [List.length_append, List.length_append, List.length_singleton, Nat.add_assoc]
    rw [channelLoop, arrivals]
    split
    · rw [List.forall_mem_cons]
      split
      next full =>
        have skipped : Fits me sptr acptr (buf.length, chptr) := fun room => absurd room (Nat.not_le.mpr full)
        have restart := ih (held_entry short chptr)
        rw [List.length_append, List.length_singleton] at restart
        rw [List.forall_mem_cons, restart, Nat.zero_add]
        exact ⟨fun sent => ⟨skipped, sent.2⟩, fun fits => ⟨held, fits.2⟩⟩
      next room =>
        rw [fits_iff short chptr room]
        by_cases kept : Held me sptr acptr (buf ++ (entry sptr acptr chptr ++ [' ']))
        · rw [ih kept, grown]
          exact ⟨fun fits => ⟨kept, fits⟩, fun fits => fits.2⟩
        · refine ⟨fun sent => ?_, fun fits => absurd fits.1 kept⟩
          have filled : buf ++ (entry sptr acptr chptr ++ [' ']) ≠ [] := by simp
          obtain ⟨line, member, long⟩ := channelLoop_long me channels filled kept
          exact absurd (sent line member) long
    · exact ih held

/-- Every channel that the client may see is delivered with its whole name exactly where the budget, which knows
neither the signs nor all of the line's own text, always has room for them. -/
theorem whois_delivered_iff (short : me.length ≤ hostLen) (sptr : Asker) (acptr : Target) :
    Delivered me sptr acptr ↔ ∀ arrival ∈ arrivals me sptr acptr 0 acptr.channels, Fits me sptr acptr arrival := by
  have front := mlen_le short sptr acptr
  have held : Held me sptr acptr [] := by
    simp only [Held, List.length_nil]
    omega
  rw [delivered_iff, whoisLines_short_iff]
  exact channelLoop_short_iff short acptr.channels held

/-! ### A line that is cut -/

theorem ann_some : "ann".toList ≠ [] := by decide

theorem ann_short : "ann".toList.length ≤ nickLen := by decide

theorem ann_solid : ' ' ∉ "ann".toList := by decide

theorem bob_some : "bob".toList ≠ [] := by decide

theorem bob_short : "bob".toList.length ≤ nickLen := by decide

theorem bob_solid : ' ' ∉ "bob".toList := by decide

def ann : Asker where
  client := { id := 1, name := ⟨"ann".toList, ann_some, ann_short, ann_solid⟩ }
  remote := false
  admin := false
  sadmin := false

/-- A channel of which bob is an operator, with a name of one sign and the letter `c`. -/
def letters (count : Nat) (short : count < channelLen) (c : Char) (solid : ' ' ≠ c) : Room where
  chname := '#' :: List.replicate count c
  short := by
    rw [List.length_cons, List.length_replicate]
    exact short
  secret := false
  hidden := false
  members :=
    [{ cptr := 2, name := ⟨"bob".toList, bob_some, bob_short, bob_solid⟩
       invisible := false, chanop := true, halfop := false, voice := false }]
  some := List.cons_ne_nil _ _
  solid := by
    intro member
    cases member with
    | tail _ later => exact solid (List.eq_of_mem_replicate later)

def full (c : Char) (solid : ' ' ≠ c) : Room := letters 31 (by decide) c solid

/-- Fourteen channels with the longest name, and one more whose name the budget just lets in. -/
def bob : Target where
  id := 2
  name := "bob".toList
  short := bob_short
  channels :=
    [full 'a' (by decide), full 'b' (by decide), full 'c' (by decide), full 'd' (by decide), full 'e' (by decide),
      full 'f' (by decide), full 'g' (by decide), full 'h' (by decide), full 'i' (by decide), full 'j' (by decide),
      full 'k' (by decide), full 'l' (by decide), full 'm' (by decide), full 'n' (by decide),
      letters 12 (by decide) 'o' (by decide)]

theorem bob_cut : ¬ Delivered "irc.net".toList ann bob := by
  intro delivered
  have short := (delivered_iff "irc.net".toList ann bob).mp delivered
  have cut : ∃ line ∈ whoisLines "irc.net".toList ann bob, line.length = 513 := by decide +kernel
  obtain ⟨line, member, length⟩ := cut
  have fits := short line member
  omega

/-- With his last channel away, his list is delivered. -/
theorem whois_delivered_iff_bob :
    Delivered "irc.net".toList ann { bob with channels := bob.channels.dropLast } :=
  (whois_delivered_iff (by decide) ann { bob with channels := bob.channels.dropLast }).mpr
    (by decide +kernel)

end SolidIrcd.Whois
