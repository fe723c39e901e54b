import SolidIrcd.Parse.Msgtab

/-! Where the cursors of `parse` can go. Every scan stops at the terminating
NUL, and the only way out of the buffer is a `PRIVMSG raw` without a colon. -/

namespace SolidIrcd.Parse

open Scan

/-- A position of the line up to its terminator, or of the `sender` array. -/
def Ptr.Within (last : Nat) : Ptr → Prop
  | .line offset => offset ≤ last
  | .sender offset => offset ≤ hostLen
  | .null | .wild _ => False

/-- A cursor holds a position or NULL, as `s` does while a line has no
parameters; only a position is ever used. -/
def Event.Inside (last : Nat) : Event → Prop
  | .take _ value => value = .null ∨ value.Within last
  | .use value => value.Within last

def Inside (last : Nat) (trace : List Event) : Prop := ∀ event ∈ trace, event.Inside last

/-- The line is terminated at `last`, whatever was cut before. -/
def Ended (bytes : Text) (last : Nat) : Prop := bytes[last]? = some nul

/-- Following every `PRIVMSG raw ... :` of a command text ends at one without a colon. -/
def openTunnel (treeParse : Text → Option Message) (text : Text) : Bool :=
  if isNumeric text then false
  else
    match treeParse (text.takeWhile (· != ' ')) with
    | none => false
    | some message =>
      if _raw : ' ' ∈ text ∧ message.func = .mPrivate ∧ isRaw (afterFirst ' ' text) then
        if _colon : ':' ∈ afterFirst ' ' text then
          openTunnel treeParse (afterFirst ':' (afterFirst ' ' text))
        else true
      else false
termination_by text.length
decreasing_by
  have first := length_afterFirst_lt _raw.1
  have second := length_afterFirst_lt _colon
  omega

/-- The text `parse` takes the command from: past the leading spaces and the
prefix, and empty when the connection is dead or the prefix makes it drop the line. -/
def commandText (env : Env) (cptr : Client) (text : Text) : Text :=
  let trimmed := text.dropWhile (· == ' ')
  if cptr.isDead then []
  else if trimmed.head? = some ':' then
    let afterColon := trimmed.drop 1
    let sender := (afterColon.takeWhile (· != ' ')).take hostLen
    if sender ≠ [] ∧ cptr.status = .server ∧
        ((env.findClient sender).map Origin.behindLink).getD false = false then []
    else (afterColon.dropWhile (· != ' ')).dropWhile (· == ' ')
  else trimmed

theorem Inside.append (first : Inside last trace) (second : Inside last more) :
    Inside last (trace ++ more) := by
  intro event member
  rcases List.mem_append.mp member with early | late
  · exact first event early
  · exact second event late

@[simp] theorem inside_append : Inside last (trace ++ more) ↔ Inside last trace ∧ Inside last more :=
  ⟨fun all => ⟨fun event member => all event (List.mem_append_left _ member),
    fun event member => all event (List.mem_append_right _ member)⟩,
   fun both => both.1.append both.2⟩

@[simp] theorem inside_nil : Inside last [] := by simp [Inside]

@[simp] theorem inside_cons :
    Inside last (event :: trace) ↔ event.Inside last ∧ Inside last trace := by
  simp [Inside]

@[simp] theorem prepend_trace (trace : List Event) (run : Run) :
    (prepend trace run).trace = trace ++ run.trace := rfl

theorem Inside.prepend_iff {run : Run} (before : Inside last trace) :
    Inside last (prepend trace run).trace ↔ Inside last run.trace := by
  simp [before]

theorem Ptr.Within.take {value : Ptr} (within : value.Within last) (cursor : Cursor) :
    (Event.take cursor value).Inside last := Or.inr within

theorem walk_inside (cursor : Cursor) (first : Nat) (bound : stop ≤ last) :
    Inside last (walk cursor first stop) := by
  intro event member
  obtain ⟨offset, inRange, shape⟩ := List.mem_flatMap.mp member
  have within : (Ptr.line offset).Within last := by
    obtain ⟨index, small, same⟩ := List.mem_range'.mp inRange
    show offset ≤ last
    omega
  simp only [List.mem_cons, List.not_mem_nil, or_false] at shape
  rcases shape with rfl | rfl
  · exact within.take cursor
  · exact within

theorem Ended.set (ended : Ended bytes last) (index : Nat) : Ended (bytes.set index nul) last := by
  have inside := (List.getElem?_eq_some_iff.mp ended).1
  unfold Ended at *
  rw [List.getElem?_set]
  split
  · rename_i same
    simp [same, inside]
  · exact ended

theorem Ended.lt_length (ended : Ended bytes last) : last < bytes.length :=
  (List.getElem?_eq_some_iff.mp ended).1

/-- Blanking a range up to `stop ≤ last` leaves the bytes from `stop` on. -/
theorem drop_blank (bound : stop ≤ bytes.length) (order : first ≤ stop) (far : stop ≤ index) :
    (blank bytes first stop).drop index = bytes.drop index := by
  have front : (bytes.take first ++ List.replicate (stop - first) nul).length = stop := by
    simp only [List.length_append, List.length_take, List.length_replicate]
    omega
  rw [blank, List.drop_append, List.drop_of_length_le (by omega), front, List.drop_drop]
  simp [Nat.add_sub_of_le far]

theorem Ended.blank (ended : Ended bytes last) (order : first ≤ stop) (bound : stop ≤ last) :
    Ended (blank bytes first stop) last := by
  have inside := ended.lt_length
  have same : (Parse.blank bytes first stop).drop last = bytes.drop last := drop_blank (by omega) order bound
  have head := congrArg (fun rest : Text => rest[0]?) same
  simp only [List.getElem?_drop, Nat.add_zero] at head
  exact head.trans ended

theorem paramLoop_inside (room : Nat) (ended : Ended bytes last) (bound : s ≤ last) :
    Inside last (paramLoop room bytes s).1 := by
  induction room using Nat.strongRecOn generalizing bytes s with
  | _ room ih =>
    have startBound : scan (· == ' ') bytes s ≤ last := scan_le _ ended (by decide) bound
    have blanked := ended.blank (le_scan (· == ' ') bytes s) startBound
    have skipping := walk_inside .s s startBound
    rw [paramLoop.eq_def]
    simp only
    split
    · exact skipping
    · split
      · rename_i notEnd colon
        have strict : scan (· == ' ') bytes s ≠ last := by
          intro same
          unfold Ended at blanked
          rw [← same] at blanked
          exact notEnd blanked
        have within : (Ptr.line (scan (· == ' ') bytes s + 1)).Within last := by
          show _ ≤ last
          omega
        simpa using ⟨skipping, within.take .para⟩
      · have within : (Ptr.line (scan (· == ' ') bytes s)).Within last := startBound
        match room with
        | 0 => simpa using ⟨skipping, within.take .para, within⟩
        | 1 => simpa using ⟨skipping, within.take .para, within⟩
        | room + 2 =>
          have stopBound := scan_le (skipped ' ') blanked (by simp [skipped]) startBound
          have later := ih (room + 1) (by omega) blanked stopBound
          have moving := walk_inside .s (scan (· == ' ') bytes s) stopBound
          simpa using ⟨skipping, within.take .para, moving, later⟩

theorem readParams_inside (room : Nat) {s : Option Nat} (ended : Ended bytes last)
    (sWithin : ∀ offset, s = some offset → offset ≤ last) :
    Inside last (readParams room bytes s).1 := by
  cases s with
  | none => exact inside_nil
  | some offset => exact paramLoop_inside room ended (sWithin offset rfl)

theorem finish_inside (cptr : Client) (mptr : Option Message) (number : Nat) {ch : Ptr}
    {s : Option Nat} (ended : Ended bytes last) (chWithin : ch.Within last)
    (sWithin : ∀ offset, s = some offset → offset ≤ last) :
    Inside last (finish cptr mptr number bytes ch s).trace := by
  have parameters (room : Nat) := readParams_inside room ended sWithin
  unfold finish
  cases mptr with
  | none => exact parameters _
  | some message =>
    simp only
    split
    · simpa using ⟨parameters _, chWithin⟩
    · exact parameters _

theorem length_textAt_le (ended : Ended bytes last) (bound : ch ≤ last) :
    (textAt bytes ch).length ≤ last - ch := by
  have stop := scan_le (· != nul) ended (by simp) bound
  unfold scan at stop
  unfold textAt
  omega

/-- Past the terminator the digits of a numeric cannot all be there, so the
bytes `parse` peeks at beyond the text do not matter. -/
theorem isNumeric_takeWhile (bytes : Text) :
    isNumeric (bytes.takeWhile (· != nul)) = isNumeric bytes := by
  have digit {c : Char} (holds : isDigit c = true) : c ≠ nul := by
    rintro rfl
    exact absurd holds (by decide)
  match bytes with
  | [] => rfl
  | [a] => by_cases h : a = nul <;> simp [isNumeric, h]
  | [a, b] => by_cases h : a = nul <;> by_cases h' : b = nul <;> simp [isNumeric, h, h']
  | [a, b, c] =>
    by_cases h : a = nul <;> by_cases h' : b = nul <;> by_cases h'' : c = nul <;>
      simp [isNumeric, h, h', h'']
  | a :: b :: c :: d :: rest =>
    by_cases numeric : isNumeric (a :: b :: c :: d :: rest) = true
    · have parts := numeric
      simp only [isNumeric, Bool.and_eq_true, beq_iff_eq] at parts
      obtain ⟨⟨⟨rfl, first⟩, second⟩, third⟩ := parts
      have blankByte : ' ' ≠ nul := by decide
      simp [digit first, digit second, digit third, blankByte, isNumeric,
        first, second, third]
    · by_cases h : a = nul <;> by_cases h' : b = nul <;> by_cases h'' : c = nul <;>
        by_cases h''' : d = nul <;> simp_all [isNumeric]

private theorem four_le_of_isNumeric (numeric : isNumeric text = true) : 4 ≤ text.length := by
  match text with
  | [] | [_] | [_, _] | [_, _, _] => simp [isNumeric] at numeric
  | _ :: _ :: _ :: _ :: _ => simp

private theorem openTunnel_of_no_space (treeParse : Text → Option Message)
    (absent : ' ' ∉ text) : openTunnel treeParse text = false := by
  rw [openTunnel]
  split
  · rfl
  · split <;> simp [absent]

private theorem openTunnel_of_unknown {treeParse : Text → Option Message}
    (unknown : treeParse (text.takeWhile (· != ' ')) = none) : openTunnel treeParse text = false := by
  rw [openTunnel]
  simp [unknown]

private theorem openTunnel_of_command {treeParse : Text → Option Message}
    (plain : isNumeric text = false) (separated : ' ' ∈ text)
    (known : treeParse (text.takeWhile (· != ' ')) = some message) :
    openTunnel treeParse text =
      (if message.func = .mPrivate ∧ isRaw (afterFirst ' ' text) then
        if ':' ∈ afterFirst ' ' text then
          openTunnel treeParse (afterFirst ':' (afterFirst ' ' text))
        else true
      else false) := by
  rw [openTunnel]
  simp [plain, known, separated]

theorem reparse_inside_iff (env : Env) (cptr : Client) (isPerson : Bool)
    (ended : Ended bytes last) (bound : ch ≤ last) :
    Inside last (reparse env cptr isPerson bytes ch).trace ↔
      openTunnel env.treeParse (textAt bytes ch) = false := by
  generalize measured : bytes.length - ch = size
  induction size using Nat.strongRecOn generalizing bytes ch with
  | _ size ih =>
    have same : isNumeric (textAt bytes ch) = isNumeric (bytes.drop ch) :=
      isNumeric_takeWhile (bytes.drop ch)
    have chWithin : (Ptr.line ch).Within last := bound
    have quoted : Inside last (if isPerson = true then [.use (.line ch)] else []) := by
      split
      · exact inside_cons.mpr ⟨chWithin, inside_nil⟩
      · exact inside_nil
    rw [reparse]
    by_cases numeric : isNumeric (bytes.drop ch) = true
    · have long := four_le_of_isNumeric (same.trans numeric)
      have short := length_textAt_le ended bound
      have room : ch + 4 ≤ last := by omega
      have three : (Ptr.line (ch + 3)).Within last := by
        show _ ≤ last
        omega
      have four : (Ptr.line (ch + 4)).Within last := room
      have ending := finish_inside cptr none (numericOf (bytes.drop ch)) (ended.set (ch + 3)) chWithin
        (s := some (ch + 4)) (by rintro _ ⟨⟩; exact room)
      have closed : openTunnel env.treeParse (textAt bytes ch) = false := by
        rw [openTunnel]
        simp [same, numeric]
      simpa [numeric, closed] using
        ⟨chWithin, three.take .s, three, four.take .s, ending⟩
    · simp only [numeric, Bool.false_eq_true, ↓reduceIte]
      split
      · rename_i missing
        have absent := (find_none_iff ended bound (by decide)).mp missing
        have closed := openTunnel_of_no_space env.treeParse absent
        split
        · simpa [closed, Event.Inside] using ⟨chWithin, quoted⟩
        · rename_i message known
          have ending := finish_inside cptr (some message) 0 ended chWithin (s := none) (by simp)
          simpa [closed, Event.Inside] using ⟨chWithin, ending⟩
      · rename_i space separated
        obtain ⟨front, split, clean, position⟩ := textAt_of_find separated (by decide)
        have spaceBound := find_lt separated ended bound (by decide)
        have spaceWithin : (Ptr.line space).Within last := Nat.le_of_lt spaceBound
        have sWithin : (Ptr.line (space + 1)).Within last := spaceBound
        have cutEnded := ended.set space
        have present : ' ' ∈ textAt bytes ch := by rw [split]; simp
        have word : textAt (bytes.set space nul) ch = (textAt bytes ch).takeWhile (· != ' ') :=
          textAt_cut separated (by decide)
        have rest : textAt (bytes.set space nul) (space + 1) = afterFirst ' ' (textAt bytes ch) := by
          rw [textAt_set_before nul (Nat.lt_succ_self space), split, afterFirst_of_split clean]
        have looked : Inside last [.use (.line ch), .take .s (.line space), .use (.line space),
            .take .s (.line (space + 1))] := by
          simpa using ⟨chWithin, spaceWithin.take .s, spaceWithin, sWithin.take .s⟩
        simp only [word, rest]
        split
        · rename_i unknown
          have closed := openTunnel_of_unknown unknown
          simpa only [closed, inside_append, iff_true] using ⟨looked, quoted⟩
        · rename_i message known
          have plain : isNumeric (textAt bytes ch) = false := by simpa [same] using numeric
          rw [openTunnel_of_command plain present known]
          split
          · rename_i raw
            split
            · rename_i colon tunnel
              obtain ⟨front', split', clean', position'⟩ := textAt_of_find tunnel (by decide)
              have colonBound := find_lt tunnel cutEnded spaceBound (by decide)
              have inside := lt_length_of_find tunnel
              have chosen : ':' ∈ afterFirst ' ' (textAt bytes ch) := by
                rw [← rest, split']
                simp
              have deeper := ih (bytes.length - (colon + 1))
                (by simp only [List.length_set] at inside; omega)
                cutEnded (Nat.succ_le_of_lt colonBound) (by simp)
              rw [← rest] at chosen ⊢
              simp only [chosen, ↓reduceIte]
              rw [split', afterFirst_of_split clean']
              have here : (Ptr.line colon).Within last := Nat.le_of_lt colonBound
              have next : (Ptr.line (colon + 1)).Within last := colonBound
              simp only [prepend_trace, inside_append, looked, deeper, true_and]
              simpa using fun _ => ⟨sWithin, here.take .ch, next.take .ch⟩
            · rename_i missing
              have absent := (find_none_iff cutEnded spaceBound (by decide)).mp missing
              rw [rest] at absent
              simp only [absent, ↓reduceIte, prepend_trace, inside_append]
              simp [Event.Inside, Ptr.Within]
          · have ending := finish_inside cptr (some message) 0 cutEnded chWithin
              (s := some (space + 1)) (by rintro _ ⟨⟩; exact spaceBound)
            have reading : Inside last [.use (.line (space + 1))] :=
              inside_cons.mpr ⟨sWithin, inside_nil⟩
            exact iff_of_true ((looked.append reading).append ending) rfl

theorem command_inside_iff (env : Env) (cptr : Client) (isPerson : Bool)
    (ended : Ended bytes last) (bound : ch ≤ last) :
    Inside last (command env cptr isPerson bytes ch).trace ↔
      openTunnel env.treeParse (textAt bytes ch) = false := by
  have chWithin : (Ptr.line ch).Within last := bound
  unfold command
  split
  · rename_i atEnd
    have empty : ' ' ∉ textAt bytes ch := by
      obtain ⟨inside, same⟩ := List.getElem?_eq_some_iff.mp atEnd
      rw [textAt, List.drop_eq_getElem_cons inside, same]
      simp
    exact iff_of_true (inside_cons.mpr ⟨chWithin, inside_nil⟩) (openTunnel_of_no_space _ empty)
  · have reading : Inside last [.use (.line ch)] := inside_cons.mpr ⟨chWithin, inside_nil⟩
    rw [reading.prepend_iff, reparse_inside_iff env cptr isPerson ended bound]

private theorem copying_inside (size : Nat) (short : size ≤ hostLen) :
    Inside last ((List.range (size + 1)).map fun offset => .take .s (.sender offset)) := by
  intro event member
  obtain ⟨offset, small, rfl⟩ := List.mem_map.mp member
  have below := List.mem_range.mp small
  have within : (Ptr.sender offset).Within last := by
    show offset ≤ hostLen
    omega
  exact within.take .s

theorem ended_terminated (text beyond : Text) : Ended (text ++ nul :: beyond) text.length := by
  simp [Ended]

/-- Behind a colon stands the sender, up to a space. -/
theorem sender_stands (ended : Ended bytes last) (bound : ch ≤ last) (colon : bytes[ch]? = some ':') :
    (textAt bytes ch).drop 1 = textAt bytes (ch + 1) ∧
      (bytes.drop (ch + 1)).take (scan (skipped ' ') bytes (ch + 1) - (ch + 1)) =
        (textAt bytes (ch + 1)).takeWhile (· != ' ') ∧
      textAt bytes (scan (· == ' ') bytes (scan (skipped ' ') bytes (ch + 1))) =
        ((textAt bytes (ch + 1)).dropWhile (· != ' ')).dropWhile (· == ' ') ∧
      scan (skipped ' ') bytes (ch + 1) ≤ last := by
  have nextBound : ch + 1 ≤ last := by
    rcases Nat.lt_or_eq_of_le bound with below | same
    · exact below
    · rw [same, ended] at colon
      exact absurd (Option.some.inj colon) (by decide)
  refine ⟨?_, ?_, ?_, scan_le (skipped ' ') ended (by simp [skipped]) nextBound⟩
  · rw [textAt_cons colon (by decide)]
    rfl
  · rw [take_scan (by simp [skipped]), takeWhile_skipped (nul_not_mem_textAt _ _)]
  · rw [textAt_scan (by decide), textAt_scan (by simp [skipped]), dropWhile_skipped (nul_not_mem_textAt _ _)]

/-- The cursors stay inside the line exactly when no chain of `PRIVMSG raw`
tunnels ends at one without a colon. -/
theorem parse_inside_iff (env : Env) (cptr : Client) (beyond : Text) (clean : nul ∉ text) :
    Inside text.length (parse env cptr (text ++ nul :: beyond)).trace ↔
      openTunnel env.treeParse (commandText env cptr text) = false := by
  have nothing : openTunnel env.treeParse [] = false := openTunnel_of_no_space _ (by simp)
  have ended := ended_terminated text beyond
  have whole := textAt_terminated clean beyond
  generalize text ++ nul :: beyond = bytes at ended whole ⊢
  have startBound : scan (· == ' ') bytes 0 ≤ text.length := scan_le _ ended (by decide) (Nat.zero_le _)
  have trimmed : textAt bytes (scan (· == ' ') bytes 0) = text.dropWhile (· == ' ') := by
    rw [textAt_scan (by decide), whole]
  have opening : Inside text.length ([.take .s (.sender 0)] ++ walk .ch 0 (scan (· == ' ') bytes 0)) :=
    inside_append.mpr ⟨inside_cons.mpr ⟨.inr (Nat.zero_le _), inside_nil⟩, walk_inside .ch _ startBound⟩
  unfold parse commandText
  by_cases dead : cptr.isDead = true
  · simp [dead, nothing]
  simp only [dead, Bool.false_eq_true, ↓reduceIte, ← trimmed, head_textAt (by decide : ':' ≠ nul)]
  generalize scan (· == ' ') bytes 0 = ch at *
  by_cases colon : bytes[ch]? = some ':'
  · obtain ⟨rest, sender, afterPrefix, stopBound⟩ := sender_stands ended startBound colon
    simp only [colon, ↓reduceIte, rest, sender]
    generalize scan (skipped ' ') bytes (ch + 1) = stop at *
    have spaceBound := scan_le (· == ' ') ended (by decide) stopBound
    have copying : Inside text.length (walk .ch (ch + 1) stop ++
        (List.range ((((textAt bytes (ch + 1)).takeWhile (· != ' ')).take hostLen).length + 1)).map
          fun offset => .take .s (.sender offset)) :=
      (walk_inside .ch _ stopBound).append (copying_inside _ (List.length_take_le _ _))
    have moving : Inside text.length (walk .ch stop (scan (· == ' ') bytes stop)) :=
      walk_inside .ch _ spaceBound
    have going (isPerson : Bool) := command_inside_iff env cptr isPerson ended spaceBound
    rw [afterPrefix] at going
    generalize ((textAt bytes (ch + 1)).takeWhile (· != ' ')).take hostLen = name at *
    by_cases served : name ≠ [] ∧ cptr.status = .server
    · obtain ⟨named, server⟩ := served
      simp only [named, server, ne_eq, not_false_eq_true, and_self, ↓reduceIte, true_and]
      cases looked : env.findClient name with
      | none => exact iff_of_true (opening.append copying) (by simpa using nothing)
      | some origin =>
        by_cases behind : origin.behindLink = true
        · simp only [behind, ↓reduceIte, Option.map_some, Option.getD_some, Bool.true_eq_false]
          rw [((opening.append copying).append moving).prepend_iff, going]
        · simp only [behind, Bool.false_eq_true, ↓reduceIte, Option.map_some, Option.getD_some, nothing,
            iff_true]
          exact opening.append copying
    · have kept : ¬ (name ≠ [] ∧ cptr.status = .server ∧
          ((env.findClient name).map Origin.behindLink).getD false = false) :=
        fun dropped => served ⟨dropped.1, dropped.2.1⟩
      simp only [served, kept, ↓reduceIte]
      rw [((opening.append copying).append moving).prepend_iff, going]
  · simp only [colon, ↓reduceIte]
    rw [opening.prepend_iff, command_inside_iff env cptr cptr.isPerson ended startBound]

/-- A server with nobody on it. -/
def alone : Env := ⟨fun _ => none, treeParse msgtab⟩

/-- A connection that has not sent `NICK` and `USER` yet. -/
def unregistered : Client := ⟨false, .unknown, false⟩

theorem parse_inside_privmsg :
    nul ∉ "PRIVMSG raw :PING x".toList ∧
      Inside 19 (parse alone unregistered ("PRIVMSG raw :PING x".toList ++ [nul])).trace := by
  have clean : nul ∉ "PRIVMSG raw :PING x".toList := by decide
  have closed : openTunnel alone.treeParse
      (commandText alone unregistered "PRIVMSG raw :PING x".toList) = false := by decide +kernel
  exact ⟨clean, (parse_inside_iff alone unregistered [] clean).mpr closed⟩

/-- `PRIVMSG raw x` from an unregistered client has the refusal quote address 1. -/
theorem parse_quotes_wild :
    Event.use (.wild 1) ∈ (parse alone unregistered ("PRIVMSG raw x".toList ++ [nul])).trace ∧
      ¬ Inside 13 (parse alone unregistered ("PRIVMSG raw x".toList ++ [nul])).trace := by
  have quoted : Event.use (.wild 1) ∈
      (parse alone unregistered ("PRIVMSG raw x".toList ++ [nul])).trace := by decide +kernel
  exact ⟨quoted, fun inside => inside _ quoted⟩

end SolidIrcd.Parse
