import SolidIrcd.Transport.Absorb
import SolidIrcd.Transport.SendMessage

/-! The other end of a link is handed the lines that were sent, however the stream between them is cut. -/

namespace SolidIrcd.Transport

variable {D I : Type} (zlib : Zlib D I) (key : Bytes)

/-- What the other end makes of a line: it is handed over, and the next stage begins where the line is the one for it. -/
def hand (handed : List Bytes) (line : Bytes) : List Bytes × Verdict I :=
  (handed ++ [line],
    if line = dkeyDone then .rc4NextBuffer (rc4Initstate key)
    else if line = svinfoZip then .zipNextBuffer zlib.inflateInit
    else .other)

def Receiver.fresh : Receiver I := ⟨[], none, none⟩

/-- One read after the other. -/
def dopackets (calls : Nat) : Receiver I → List Bytes → List Bytes → Option (Outcome (List Bytes) I)
  | receiver, handed, [] => some (.kept receiver handed)
  | receiver, handed, read :: reads =>
    match dopacket zlib (hand zlib key) calls receiver handed read with
    | some (.kept receiver handed) => dopackets calls receiver handed reads
    | stopped => stopped

def text (lines : List Bytes) : Bytes := lines.flatMap (· ++ [10])

section

variable {zlib key}

theorem Plain.take (plain : Plain msg) (length : svinfoZip.length < n) : Plain (msg.take n) := by
  obtain ⟨nonempty, eol, done, zip⟩ := plain
  have short (other : Bytes) (fits : other.length < n) (same : msg.take n = other) : msg = other := by
    have within : msg.length ≤ n := by
      by_contra long
      rw [← same, List.length_take] at fits
      omega
    rwa [List.take_of_length_le within] at same
  refine ⟨?_, fun g inside => eol g (List.mem_of_mem_take inside), fun same => done (short dkeyDone ?_ same),
    fun same => zip (short svinfoZip length same)⟩
  · rw [ne_eq, List.take_eq_nil_iff]
    exact not_or.mpr ⟨by omega, nonempty⟩
  · exact Nat.lt_of_le_of_lt (by decide) length

theorem eol_of_all {line : Bytes} (all : (line.all fun g => !isEol g) = true) : ∀ g ∈ line, isEol g = false := by
  simpa using all

/-- The bytes of a line gather in the buffer. -/
theorem scan_line {parse : τ → Bytes → τ × Verdict I} (line : Bytes) (eol : ∀ g ∈ line, isEol g = false)
    (fits : buffer.length + line.length ≤ bufSize - 1) (rest : Bytes) :
    scan parse state buffer (line ++ rest) = scan parse state (buffer ++ line) rest := by
  induction line generalizing buffer with
  | nil => rw [List.append_nil, List.nil_append]
  | cons g line ih =>
    rw [List.length_cons] at fits
    rw [List.cons_append, scan, if_neg (by simp [eol g]), if_pos (by omega),
      ih (fun g inside => eol g (.tail _ inside)) (by rw [List.length_append, List.length_singleton]; omega),
      List.append_assoc, List.singleton_append]

theorem scan_plain (plain : Plain line) (fits : line.length ≤ bufSize - 1) (ends : isEol g = true) (rest : Bytes) :
    scan (hand zlib key) handed [] (line ++ g :: rest) = scan (hand zlib key) (handed ++ [line]) [] rest := by
  obtain ⟨nonempty, eol, done, zip⟩ := plain
  rw [scan_line line eol (by simpa using fits), List.nil_append, scan, if_pos ends, if_neg nonempty, hand,
    if_neg done, if_neg zip]

theorem scan_text (lines : List Bytes) (plain : ∀ line ∈ lines, Plain line ∧ line.length ≤ bufSize - 1) :
    scan (hand zlib key) handed [] (text lines) = (handed ++ lines, [], .done) := by
  induction lines generalizing handed with
  | nil => rw [text, List.flatMap_nil, scan, List.append_nil]
  | cons line lines ih =>
    rw [text, List.flatMap_cons, List.append_assoc, List.singleton_append,
      scan_plain (plain line (.head _)).1 (plain line (.head _)).2 (by decide), ← text,
      ih fun line inside => plain line (.tail _ inside), List.append_assoc, List.singleton_append]

theorem crypt_crypt (rc4 : Option Rc4) (msg : Bytes) : crypt rc4 (crypt rc4 msg).2 = ((crypt rc4 msg).1, msg) := by
  cases rc4 with
  | none => rfl
  | some cipher => simp only [crypt, rc4_undo]

theorem crypt_nil (rc4 : Option Rc4) : crypt rc4 [] = (rc4, []) := by
  cases rc4 <;> rfl

/-- What a link that inflates nothing absorbs of what was put on the queue. -/
theorem Absorbs.of_msg {parse : τ → Bytes → τ × Verdict I} {receiver : Receiver I} (zipIn : receiver.zipIn = none)
    (absorbed : absorb zlib parse turns { receiver with rc4In := (crypt receiver.rc4In msg).1 } state msg = some final) :
    Absorbs zlib parse receiver state (crypt receiver.rc4In msg).2 final := by
  refine ⟨turns, ?_⟩
  unfold Remains
  simp only [zipIn, true_and, crypt_crypt, List.nil_append] at absorbed ⊢
  exact absorbed

/-- What a link that inflates absorbs of a block. -/
theorem Absorbs.of_block {parse : τ → Bytes → τ × Verdict I} {receiver : Receiver I} (lawful : zlib.Lawful)
    (zipIn : receiver.zipIn = some i) (synced : zlib.synced d i) (buffer : receiver.buffer = [])
    (scanned : scan parse state [] block = (state', [], .done)) :
    ∃ i', zlib.synced (zlib.deflate d block).1 i' ∧
      Absorbs zlib parse receiver state (crypt receiver.rc4In (zlib.deflate d block).2).2
        (⟨[], (crypt receiver.rc4In (zlib.deflate d block).2).1, some i'⟩, state') := by
  obtain ⟨i', fed, synced'⟩ := lawful.inverts d i synced block
  refine ⟨i', synced', 1, ?_⟩
  unfold Remains
  rw [zipIn]
  refine ⟨i', block, by rw [crypt_crypt]; exact fed, ?_⟩
  rw [List.nil_append, absorb, buffer, scanned, crypt_crypt]

/-- The other end, when it has absorbed the queue, is where the next of it begins; lines that wait have not left. -/
structure Carries (zlib : Zlib D I) (key : Bytes) (output : Output D) (receiver : Receiver I)
    (handed waiting : List Bytes) : Prop where
  sent : output.sent = handed ++ waiting
  absorbs : Absorbs zlib (hand zlib key) .fresh [] output.sender.sendQ (receiver, handed)
  buffer : receiver.buffer = []
  rc4In : receiver.rc4In = output.sender.rc4Out
  zipIn : match output.sender.zipOut with
    | none => receiver.zipIn = none
    | some session => ∃ i, receiver.zipIn = some i ∧ zlib.synced session.1 i
  waits : text waiting = output.sender.waiting
  plain : ∀ line ∈ waiting, Plain line
  short : ∀ line ∈ output.sent, line.length ≤ bufSize - 1

theorem text_append (lines more : List Bytes) : text (lines ++ more) = text lines ++ text more :=
  List.flatMap_append

theorem text_eq_nil (none : text lines = []) : lines = [] := by
  cases lines with
  | nil => rfl
  | cons line lines => simp [text] at none

theorem msg_ended (msg : Bytes) :
    (if 510 < msg.length then msg.take 511 ++ [10] else msg ++ [10]) = msg.take 511 ++ [10] := by
  split
  · rfl
  · rw [List.take_of_length_le (by omega)]

/-- A message of a link that deflates nothing: either line end keeps the lines apart. -/
theorem sendMessage_unzipped (zlib : Zlib D I) (key : Bytes) (sbuf : Bool) (zipOut : sender.zipOut = none)
    (plain : Plain msg) :
    ∃ ended, sendMessage zlib sender msg sbuf = sender.put ended ∧
      ∀ handed, scan (hand zlib key) handed [] ended = (handed ++ [sender.lineOf msg sbuf], [], .done) := by
  unfold sendMessage Sender.lineOf
  split
  · refine ⟨msg.take 511 ++ [10], by simp only [zipOut, msg_ended], fun handed => ?_⟩
    rw [scan_plain (plain.take (by decide)) (by rw [List.length_take]; exact Nat.min_le_left _ _) (by decide), scan]
  · rename_i shared
    have encrypted : sender.rc4Out = none := by
      cases rc4 : sender.rc4Out with
      | none => rfl
      | some cipher => simp [rc4] at shared
    refine ⟨msg.take 510 ++ [13, 10], by simp only [Sender.put, encrypted, crypt], fun handed => ?_⟩
    rw [scan_plain (plain.take (by decide)) (by rw [List.length_take]; exact Nat.le_trans (Nat.min_le_left _ _) (by decide))
      (by decide), scan, if_pos (by decide), if_pos rfl, scan]

/-- A message of a link that deflates. -/
theorem sendMessage_zipped (msg : Bytes) (sbuf : Bool) (zipOut : sender.zipOut = some session) :
    sendMessage zlib sender msg sbuf =
      { sender with zipOut := some (zipOutput zlib session (text [sender.lineOf msg sbuf]) false).1 }.put
        (zipOutput zlib session (text [sender.lineOf msg sbuf]) false).2 := by
  have zipped : (!sbuf || sender.zipOut.isSome || sender.rc4Out.isSome) = true := by simp [zipOut]
  have ended : text [sender.lineOf msg sbuf] = msg.take 511 ++ [10] := by
    rw [Sender.lineOf, if_pos zipped, text, List.flatMap_singleton]
  rw [ended, sendMessage, if_pos zipped, msg_ended, zipOut]

theorem zipOutput_cases (zlib : Zlib D I) (session : D × Bytes) (buffer : Bytes) (forceflush : Bool) :
    zipOutput zlib session buffer forceflush = ((session.1, session.2 ++ buffer), []) ∨
      zipOutput zlib session buffer forceflush =
        (((zlib.deflate session.1 (session.2 ++ buffer)).1, []), (zlib.deflate session.1 (session.2 ++ buffer)).2) := by
  unfold zipOutput Zlink.zipOutput
  by_cases waits : (!forceflush && ((session.2 ++ buffer).length < zipMinBlock ||
      (some (0 : Int)).isSome && (session.2 ++ buffer).length < zipMaxBlock - 512)) = true
  · simp only [Option.getD_some, if_pos waits, true_or]
  · simp only [Option.getD_some, if_neg waits, or_true]

theorem Plain.lineOf (plain : Plain msg) (sender : Sender D) (sbuf : Bool) :
    Plain (sender.lineOf msg sbuf) ∧ (sender.lineOf msg sbuf).length ≤ bufSize - 1 := by
  unfold Sender.lineOf
  split
  · exact ⟨plain.take (by decide), by rw [List.length_take]; exact Nat.min_le_left _ _⟩
  · exact ⟨plain.take (by decide), by rw [List.length_take]; exact Nat.le_trans (Nat.min_le_left _ _) (by decide)⟩

section

variable {output : Output D} {receiver : Receiver I}

theorem Carries.nothing_waits (carries : Carries zlib key output receiver handed waiting)
    (zipOut : output.sender.zipOut = none) : waiting = [] :=
  text_eq_nil (by rw [carries.waits, Sender.waiting, zipOut, Option.map_none, Option.getD_none])

/-- What is put on a queue that deflates nothing. -/
theorem Carries.put (lawful : zlib.Lawful) (carries : Carries zlib key output receiver handed waiting)
    (zipOut : output.sender.zipOut = none) (turns : Nat) (msg : Bytes)
    (absorbed : absorb zlib (hand zlib key) turns { receiver with rc4In := (crypt receiver.rc4In msg).1 } handed msg =
      some (receiver', handed')) :
    Absorbs zlib (hand zlib key) .fresh [] (output.sender.put msg).sendQ (receiver', handed') := by
  have zipIn := carries.zipIn
  rw [zipOut] at zipIn
  have onward := carries.absorbs.append lawful (.of_msg zipIn absorbed)
  rwa [carries.rc4In] at onward

/-- A block of all that waited leaves. -/
theorem Carries.deflates (lawful : zlib.Lawful) (carries : Carries zlib key output receiver handed waiting)
    (zipOut : output.sender.zipOut = some session)
    (more : List Bytes) (plain : ∀ line ∈ more, Plain line ∧ line.length ≤ bufSize - 1) :
    ∃ receiver' handed', Carries zlib key
      ⟨{ output.sender with zipOut := some ((zlib.deflate session.1 (session.2 ++ text more)).1, []) }.put
        (zlib.deflate session.1 (session.2 ++ text more)).2, output.sent ++ more⟩ receiver' handed' [] := by
  have zipIn := carries.zipIn
  rw [zipOut] at zipIn
  obtain ⟨i, inflates, synced⟩ := zipIn
  have waits : text waiting = session.2 := by
    rw [carries.waits, Sender.waiting, zipOut, Option.map_some, Option.getD_some]
  have lines : ∀ line ∈ waiting ++ more, Plain line ∧ line.length ≤ bufSize - 1 := by
    intro line inside
    rcases List.mem_append.mp inside with before | after
    · exact ⟨carries.plain line before, carries.short line (carries.sent ▸ List.mem_append_right _ before)⟩
    · exact plain line after
  have scanned : scan (hand zlib key) handed [] (text (waiting ++ more)) = _ := scan_text (waiting ++ more) lines
  rw [text_append, waits] at scanned
  obtain ⟨i', synced', absorbs⟩ := Absorbs.of_block lawful inflates synced carries.buffer scanned
  rw [carries.rc4In] at absorbs
  refine ⟨_, handed ++ (waiting ++ more), ?_, carries.absorbs.append lawful absorbs, rfl, rfl, ⟨i', rfl, synced'⟩, rfl,
    List.forall_mem_nil _, ?_⟩
  · rw [carries.sent, List.append_nil, List.append_assoc]
  · intro line inside
    rcases List.mem_append.mp inside with before | after
    · exact carries.short line before
    · exact (plain line after).2

theorem Carries.sends (lawful : zlib.Lawful) (carries : Carries zlib key output receiver handed waiting)
    (plain : Plain msg) (sbuf : Bool) :
    ∃ receiver' handed' waiting',
      Carries zlib key (output.perform zlib key (.sendMessage msg sbuf)) receiver' handed' waiting' := by
  have line := plain.lineOf output.sender sbuf
  have short : ∀ other ∈ output.sent ++ [output.sender.lineOf msg sbuf], other.length ≤ bufSize - 1 := by
    intro other inside
    rcases List.mem_append.mp inside with before | this
    · exact carries.short other before
    · rw [List.mem_singleton.mp this]
      exact line.2
  cases zipOut : output.sender.zipOut with
  | none =>
    obtain ⟨ended, put, scanned⟩ := sendMessage_unzipped zlib key sbuf zipOut plain
    have none := carries.nothing_waits zipOut
    have absorbs := carries.put lawful zipOut 1 ended
      (by rw [absorb, carries.buffer, scanned])
    have zipIn := carries.zipIn
    rw [zipOut] at zipIn
    refine ⟨_, _, [], ⟨?_, by rw [Output.perform, put]; exact absorbs, rfl, ?_, ?_, ?_, List.forall_mem_nil _, short⟩⟩
    · rw [Output.perform, carries.sent, none, List.append_nil, List.append_nil]
    · rw [Output.perform, put, Sender.put, carries.rc4In]
    · simp only [Output.perform, put, Sender.put, zipOut, zipIn]
    · simp only [Output.perform, put, Sender.put, Sender.waiting, zipOut]
      rfl
  | some session =>
    have zipIn := carries.zipIn
    rw [zipOut] at zipIn
    rw [Output.perform, sendMessage_zipped msg sbuf zipOut]
    rcases zipOutput_cases zlib session (text [output.sender.lineOf msg sbuf]) false with waits | leaves
    · rw [waits]
      refine ⟨receiver, handed, waiting ++ [output.sender.lineOf msg sbuf],
        ⟨?_, ?_, carries.buffer, ?_, zipIn, ?_, ?_, short⟩⟩
      · rw [carries.sent, List.append_assoc]
      · simpa only [Sender.put, crypt_nil, List.append_nil] using carries.absorbs
      · rw [carries.rc4In, Sender.put, crypt_nil]
      · rw [text_append, carries.waits, Sender.waiting, zipOut]
        rfl
      · intro other inside
        rcases List.mem_append.mp inside with before | this
        · exact carries.plain other before
        · rw [List.mem_singleton.mp this]
          exact line.1
    · rw [leaves]
      obtain ⟨receiver', handed', after⟩ :=
        carries.deflates lawful zipOut [output.sender.lineOf msg sbuf] (by simpa using line)
      exact ⟨receiver', handed', [], after⟩

theorem Carries.queued (lawful : zlib.Lawful) (carries : Carries zlib key output receiver handed waiting) :
    ∃ receiver' handed' waiting',
      Carries zlib key (output.perform zlib key .sendQueued) receiver' handed' waiting' := by
  unfold Output.perform sendQueued
  cases zipOut : output.sender.zipOut with
  | none => exact ⟨receiver, handed, waiting, carries⟩
  | some session =>
    dsimp only
    split
    · exact ⟨receiver, handed, waiting, carries⟩
    · obtain ⟨receiver', handed', after⟩ := carries.deflates lawful zipOut [] (List.forall_mem_nil _)
      refine ⟨receiver', handed', [], ?_⟩
      simpa [text, zipOutput, Zlink.zipOutput] using after

theorem sendMessage_stage (line : Bytes) (zipOut : sender.zipOut = none) (short : line.length ≤ 510) :
    sendMessage zlib sender line false = sender.put (line ++ [10]) := by
  unfold sendMessage
  rw [if_pos (by rfl), if_neg (Nat.not_lt.mpr short), zipOut]

/-- The line itself is the last that is not encrypted. -/
theorem Carries.encrypts (lawful : zlib.Lawful) (carries : Carries zlib key output receiver handed waiting)
    (possible : output.possible .dkeyDone) :
    ∃ receiver' handed' waiting', Carries zlib key (output.perform zlib key .dkeyDone) receiver' handed' waiting' := by
  obtain ⟨rc4Out, zipOut⟩ := possible
  have none := carries.nothing_waits zipOut
  have zipIn := carries.zipIn
  rw [zipOut] at zipIn
  have plainIn := carries.rc4In
  rw [rc4Out] at plainIn
  have scanned : scan (hand zlib key) handed [] (dkeyDone ++ [10]) =
      (handed ++ [dkeyDone], [], .rc4 (rc4Initstate key) []) := by
    rw [scan_line dkeyDone (eol_of_all rfl) (Nat.le_of_ble_eq_true rfl), List.nil_append, scan,
      if_pos (by decide), if_neg (by decide), hand,
      if_pos rfl]
  have absorbs := carries.put lawful zipOut 2 (dkeyDone ++ [10])
    (by rw [absorb, carries.buffer, scanned]; simp only [plainIn, zipIn, crypt]; rfl)
  refine ⟨_, _, [], ⟨?_, by rw [Output.perform, sendMessage_stage _ zipOut (by decide)]; exact absorbs, rfl, rfl, ?_, ?_,
    List.forall_mem_nil _, ?_⟩⟩
  · rw [Output.perform, carries.sent, none, List.append_nil, List.append_nil]
  · rw [Output.perform, sendMessage_stage _ zipOut (by decide), Sender.put]
    simp only [zipOut]
  · rw [Output.perform, sendMessage_stage _ zipOut (by decide), Sender.put, Sender.waiting, zipOut]
    rfl
  · intro line inside
    rcases List.mem_append.mp inside with before | this
    · exact carries.short line before
    · rw [List.mem_singleton.mp this]
      decide

/-- The line itself is the last that is not compressed. -/
theorem Carries.compresses (lawful : zlib.Lawful) (carries : Carries zlib key output receiver handed waiting)
    (zipOut : output.sender.zipOut = none) :
    ∃ receiver' handed' waiting', Carries zlib key (output.perform zlib key .svinfoZip) receiver' handed' waiting' := by
  have none := carries.nothing_waits zipOut
  have zipIn := carries.zipIn
  rw [zipOut] at zipIn
  have scanned : scan (hand zlib key) handed [] (svinfoZip ++ [10]) =
      (handed ++ [svinfoZip], [], .zip zlib.inflateInit []) := by
    rw [scan_line svinfoZip (eol_of_all rfl) (Nat.le_of_ble_eq_true rfl), List.nil_append, scan,
      if_pos (by decide), if_neg (by decide), hand,
      if_neg (by decide), if_pos rfl]
  have absorbs := carries.put lawful zipOut 2 (svinfoZip ++ [10])
    (by rw [absorb, carries.buffer, scanned]; simp only [zipIn, lawful.settled _ _ lawful.start]; rfl)
  refine ⟨_, _, [], ⟨?_, by rw [Output.perform, sendMessage_stage _ zipOut (by decide)]; exact absorbs, rfl, ?_, ?_, rfl,
    List.forall_mem_nil _, ?_⟩⟩
  · rw [Output.perform, carries.sent, none, List.append_nil, List.append_nil]
  · rw [Output.perform, sendMessage_stage _ zipOut (by decide), Sender.put, carries.rc4In]
  · exact ⟨zlib.inflateInit, rfl, lawful.start⟩
  · intro line inside
    rcases List.mem_append.mp inside with before | this
    · exact carries.short line before
    · rw [List.mem_singleton.mp this]
      decide

theorem perform_carries (lawful : zlib.Lawful) (event : Event) (possible : output.possible event)
    (carries : Carries zlib key output receiver handed waiting) :
    ∃ receiver' handed' waiting', Carries zlib key (output.perform zlib key event) receiver' handed' waiting' := by
  cases event with
  | sendMessage msg sbuf => exact carries.sends lawful possible sbuf
  | sendQueued => exact carries.queued lawful
  | dkeyDone => exact carries.encrypts lawful possible
  | svinfoZip => exact carries.compresses lawful possible

/-- At any time the queue holds what the other end needs to get at the lines before those that wait. -/
theorem run_carries (lawful : zlib.Lawful) (run : (Transport.output zlib key).Run Machine.Any .fresh output) :
    ∃ (receiver : Receiver I) (handed waiting : List Bytes), Carries zlib key output receiver handed waiting := by
  refine run.invariant (fun output => ∃ receiver handed waiting, Carries zlib key output receiver handed waiting) ?_ ?_
  · rintro output event possible - ⟨receiver, handed, waiting, carries⟩
    exact perform_carries lawful event possible carries
  · exact ⟨.fresh, [], [], rfl, ⟨1, rfl, rfl⟩, rfl, rfl, rfl, rfl, List.forall_mem_nil _, List.forall_mem_nil _⟩

end

/-- A link that inflates goes on with it. -/
theorem absorb_zipIn {parse : τ → Bytes → τ × Verdict I} {receiver : Receiver I} (zipIn : receiver.zipIn = some session)
    (absorbed : absorb zlib parse turns receiver state bytes = some final) :
    ∃ buffer, scan parse state receiver.buffer bytes = (final.2, buffer, .done) ∧
      final.1 = { receiver with buffer := buffer } := by
  cases turns with
  | zero => cases absorbed
  | succ turns =>
    rw [absorb] at absorbed
    rcases scanned : scan parse state receiver.buffer bytes with ⟨state', buffer, stop⟩
    rw [scanned] at absorbed
    cases stop with
    | done =>
      obtain rfl := Option.some.inj absorbed
      exact ⟨buffer, rfl, rfl⟩
    | _ => simp [zipIn] at absorbed

/-- A link that is in step has handed over all there is. -/
theorem Absorbs.done {parse : τ → Bytes → τ × Verdict I} {receiver : Receiver I} (lawful : zlib.Lawful)
    (absorbs : Absorbs zlib parse receiver state [] final)
    (instep : ∀ last, final.1.zipIn = some last → ∃ d, zlib.synced d last) : state = final.2 := by
  obtain ⟨turns, remains⟩ := absorbs
  unfold Remains at remains
  rw [crypt_nil] at remains
  cases zipIn : receiver.zipIn with
  | none =>
    simp only [zipIn, List.nil_append] at remains
    cases turns with
    | zero => cases remains.2
    | succ turns =>
      rw [← Option.some.inj remains.2]
  | some session =>
    simp only [zipIn, Option.getD_none, List.nil_append] at remains
    obtain ⟨last, more, fed, absorbed⟩ := remains
    obtain ⟨buffer, scanned, same⟩ := absorb_zipIn rfl absorbed
    obtain ⟨d, synced⟩ := instep last (by rw [same])
    rw [lawful.prompt d session last more synced fed, scan] at scanned
    exact congrArg Prod.fst scanned

theorem dopackets_keeps {receiver : Receiver I} (lawful : zlib.Lawful) (reads : List Bytes)
    (nonempty : ∀ read ∈ reads, read ≠ [])
    (absorbs : Absorbs zlib (hand zlib key) receiver handed (reads.flatten ++ bytes) final) :
    Keeps zlib (hand zlib key) (fun calls => dopackets zlib key calls receiver handed reads) bytes final := by
  induction reads generalizing receiver handed with
  | nil => exact ⟨receiver, handed, 0, fun _ _ => rfl, absorbs⟩
  | cons read reads ih =>
    rw [List.flatten_cons, List.append_assoc] at absorbs
    obtain ⟨receiver', handed', least, goes, behind⟩ := dopacket_keeps lawful absorbs (nonempty read (.head _))
    obtain ⟨final', handed'', more, onward, after⟩ := ih (fun read inside => nonempty read (.tail _ inside)) behind
    refine ⟨final', handed'', max least more, fun calls enough => ?_, after⟩
    simp only [dopackets, goes calls (Nat.le_trans (Nat.le_max_left _ _) enough)]
    exact onward calls (Nat.le_trans (Nat.le_max_right _ _) enough)

/-- However the queue is cut into reads, the other end parses the lines that were sent up to those that wait to be
deflated, in order, and each fits the buffer. -/
theorem transparent (lawful : zlib.Lawful) (run : (output zlib key).Run Machine.Any .fresh out) (reads : List Bytes)
    (nonempty : ∀ read ∈ reads, read ≠ []) (cut : reads.flatten = out.sender.sendQ) :
    ∃ receiver handed least,
      (∀ calls, least ≤ calls → dopackets zlib key calls .fresh [] reads = some (.kept receiver handed)) ∧
      (∃ waiting, out.sent = handed ++ waiting ∧ text waiting = out.sender.waiting) ∧
      ∀ line ∈ handed, line.length ≤ bufSize - 1 := by
  obtain ⟨peer, handed, waiting, carries⟩ := run_carries lawful run
  obtain ⟨receiver, handed', least, goes, behind⟩ :=
    dopackets_keeps lawful reads nonempty (by rw [List.append_nil, cut]; exact carries.absorbs)
  have same : handed' = handed := by
    refine behind.done lawful fun last zipIn => ?_
    have instep := carries.zipIn
    cases zipOut : out.sender.zipOut with
    | none =>
      rw [zipOut] at instep
      cases zipIn.symm.trans instep
    | some session =>
      rw [zipOut] at instep
      obtain ⟨i, zipIn', synced⟩ := instep
      exact ⟨session.1, by rwa [Option.some.inj (zipIn.symm.trans zipIn')]⟩
  refine ⟨receiver, handed', least, goes, ⟨waiting, by rw [same, carries.sent], carries.waits⟩, fun line inside => ?_⟩
  exact carries.short line (by rw [carries.sent]; exact List.mem_append_left _ (same ▸ inside))

/-- The least that a codec can do. -/
def Zlib.stored : Zlib Unit Unit where
  deflateInit := ()
  deflate _ block := ((), block)
  inflateInit := ()
  inflate _ input room := some ((), min room input.length, input.take room)
  feed _ input := some ((), input)
  synced _ _ := True

theorem Zlib.stored_lawful : Zlib.stored.Lawful where
  start := trivial
  inverts _ _ _ block := ⟨(), rfl, trivial⟩
  settled _ _ _ := rfl
  prompt _ _ _ _ _ fed := (Prod.mk.inj (Option.some.inj fed)).2.symm
  splits _ _ _ := rfl
  inflates _ input _ _ fed nonempty := by
    refine ⟨(), _, _, rfl, Nat.min_le_right _ _, ?_, .inl ?_, ?_, fun part => ?_⟩
    · rw [List.length_take]
      exact Nat.min_le_left _ _
    · exact Nat.lt_min.mpr ⟨by decide, List.length_pos_of_ne_nil nonempty⟩
    · obtain ⟨rfl, rfl⟩ := Prod.mk.inj (Option.some.inj fed)
      rcases Nat.le_total zipInBufSize input.length with much | little
      · simp [Zlib.stored, Nat.min_eq_left much]
      · simp [Zlib.stored, Nat.min_eq_right little, List.take_of_length_le little]
    · rw [List.length_take]
      omega

/-- A line in each of the three stages; the last block leaves. -/
private def actions : List Event :=
  [.sendMessage (ascii "PING :hub") true, .dkeyDone, .sendMessage (ascii "PING :leaf") false, .svinfoZip,
    .sendMessage (ascii "PING :west") false, .sendQueued]

private theorem allows : (output Zlib.stored [1, 2, 3]).Allows Machine.Any .fresh actions :=
  ⟨⟨by decide, eol_of_all rfl, by decide, by decide⟩, trivial, ⟨rfl, rfl⟩, trivial,
    ⟨by decide, eol_of_all rfl, by decide, by decide⟩, trivial, rfl, trivial,
    ⟨by decide, eol_of_all rfl, by decide, by decide⟩, trivial, trivial, trivial, trivial⟩

theorem transparent_bytewise :
    let out := actions.foldl (Output.perform Zlib.stored [1, 2, 3]) .fresh
    let reads := out.sender.sendQ.map fun g => [g]
    ∃ receiver handed least,
      (∀ calls, least ≤ calls →
        dopackets Zlib.stored [1, 2, 3] calls .fresh [] reads = some (.kept receiver handed)) ∧
      (∃ waiting, out.sent = handed ++ waiting ∧ text waiting = out.sender.waiting) ∧
      ∀ line ∈ handed, line.length ≤ bufSize - 1 := by
  intro out reads
  apply transparent Zlib.stored_lawful (Machine.Run.of_list actions (.refl _) allows)
  · simp [reads]
  · rw [← List.flatMap_def, List.flatMap_singleton']
    rfl

end

end SolidIrcd.Transport
