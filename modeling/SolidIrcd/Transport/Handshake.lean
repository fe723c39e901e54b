import SolidIrcd.Transport.Dkey
import SolidIrcd.Transport.Encrypt

/-! Both ends of a link run the same exchange. Each hears the five lines of the other in their order, answers them
at once, and is at the stage that the lines it has heard tell. -/

namespace SolidIrcd.Transport

open Function (update)
open Scan (Text)

variable {S D I : Type}

/-- The two ends; an end has taken some bytes of what the other has put on its queue. -/
structure Net (S D I : Type) where
  serv : Bool → Serv S D
  receiver : Bool → Receiver I
  taken : Bool → Nat
  dropped : Bool → Bool

def Net.start : Net S D I := ⟨fun _ => ⟨.idle, .fresh, []⟩, fun _ => .fresh, fun _ => 0, fun _ => false⟩

inductive Action where
  /-- The end of `m_server_estab`. -/
  | mServerEstab (side : Bool)
  /-- Any other line, and `send_queued`. -/
  | sendMessage (side : Bool) (msg : Bytes) (sbuf : Bool)
  | sendQueued (side : Bool)
  /-- The part of `do_server_estab` that begins compression. -/
  | svinfoZip (side : Bool)
  | readPacket (side : Bool) (length calls : Nat)

def Action.side : Action → Bool
  | .mServerEstab side | .sendMessage side _ _ | .sendQueued side | .svinfoZip side | .readPacket side _ _ => side

def Net.chunk (net : Net S D I) (side : Bool) (length : Nat) : Bytes :=
  ((net.serv !side).output.sender.sendQ.drop (net.taken side)).take length

def Net.put (net : Net S D I) (side : Bool) (serv : Serv S D) : Net S D I := { net with serv := update net.serv side serv }

variable (zlib : Zlib D I) (dh : Dh S) (sessions : Bool → S × S)

/-- An event of an end's output that sets up no cipher. -/
def Serv.emit (serv : Serv S D) (event : Event) : Serv S D := { serv with output := serv.output.perform zlib [] event }

def Net.read (net : Net S D I) (side : Bool) (length calls : Nat) : Option (Outcome (Serv S D) I) :=
  dopacket zlib (parseLink zlib dh (sessions side)) calls (net.receiver side) (net.serv side) (net.chunk side length)

def Net.perform (net : Net S D I) : Action → Net S D I
  | .mServerEstab side =>
    let serv := net.serv side
    net.put side ({ serv with dkey := { serv.dkey with nego := true } }.sendtoOne zlib "DKEY START".toList)
  | .sendMessage side msg sbuf => net.put side ((net.serv side).emit zlib (.sendMessage msg sbuf))
  | .sendQueued side => net.put side ((net.serv side).emit zlib .sendQueued)
  | .svinfoZip side => net.put side ((net.serv side).emit zlib .svinfoZip)
  | .readPacket side length calls =>
    match net.read zlib dh sessions side length calls with
    | none => net
    | some (.kept receiver serv) =>
      { net.put side serv with
        receiver := update net.receiver side receiver
        taken := update net.taken side (net.taken side + (net.chunk side length).length) }
    | some (.exited serv) => { net.put side serv with dropped := update net.dropped side true }

/-- A line that begins no stage, and belongs to no exchange. -/
structure Quiet (line : Bytes) : Prop where
  dkey : isDkey line = false
  zip : isZip line = false

/-- `DKEY START` is sent once, and nothing is read before; after the exchange compression may begin. -/
def Net.Possible (net : Net S D I) (action : Action) : Prop :=
  net.dropped action.side = false ∧
    match action with
    | .mServerEstab side => (net.serv side).dkey.nego = false ∧ (net.serv side).dkey.estab = false
    | .sendMessage side msg sbuf =>
      msg ≠ [] ∧ (∀ g ∈ msg, isEol g = false ∧ g ≠ 0) ∧ Quiet ((net.serv side).output.sender.lineOf msg sbuf)
    | .sendQueued _ => True
    | .svinfoZip side => (net.serv side).dkey.estab = true ∧ (net.serv side).output.sender.zipOut = none
    | .readPacket side length calls =>
      ((net.serv side).dkey.nego = true ∨ (net.serv side).dkey.estab = true) ∧ net.chunk side length ≠ [] ∧
        net.read zlib dh sessions side length calls ≠ none

def machine : Machine (Net S D I) Action := ⟨Net.perform zlib dh sessions, Net.Possible zlib dh sessions⟩

/-- The secret of what a side sends, and of what it reads. -/
def keyOut (side : Bool) : Bytes := (dh.computeKey (sessions side).2 (dh.pubKey (sessions !side).1)).getD []

def keyIn (side : Bool) : Bytes := (dh.computeKey (sessions side).1 (dh.pubKey (sessions !side).2)).getD []

/-- The lines of a side, in their order. -/
def script (own : S × S) : Nat → List Text
  | 0 => ["START".toList]
  | 1 => ["PUB".toList, "I".toList, dh.pubKey own.1]
  | 2 => ["PUB".toList, "O".toList, dh.pubKey own.2]
  | 3 => ["DONE".toList]
  | _ => ["EXIT".toList]

/-- How many of them are sent when some of the peer's have been heard. -/
def answers : Nat → Nat
  | 0 => 1
  | 1 | 2 => 3
  | 3 => 4
  | _ => 5

/-- Where the exchange stands then. -/
def stage (side : Bool) : Nat → Dkey S
  | 0 => ⟨true, none, none, false, false, none, false, false⟩
  | 1 => ⟨true, some ⟨(sessions side).1, none⟩, some ⟨(sessions side).2, none⟩, false, false, none, false, false⟩
  | 2 =>
    ⟨true, some ⟨(sessions side).1, none⟩, some ⟨(sessions side).2, some (keyOut dh sessions side)⟩, true, false, none,
      false, false⟩
  | 3 => ⟨true, none, none, true, true, some (rc4Initstate (keyIn dh sessions side)), false, false⟩
  | 4 => ⟨true, none, none, true, true, some (rc4Initstate (keyIn dh sessions side)), true, false⟩
  | _ => ⟨false, none, none, true, true, some (rc4Initstate (keyIn dh sessions side)), true, true⟩

section

variable {dh sessions} {side : Bool} {own : S × S}

theorem script_zero : script dh own 0 = ["START".toList] := rfl

theorem script_one : script dh own 1 = ["PUB".toList, "I".toList, dh.pubKey own.1] := rfl

theorem script_two : script dh own 2 = ["PUB".toList, "O".toList, dh.pubKey own.2] := rfl

theorem script_three : script dh own 3 = ["DONE".toList] := rfl

theorem script_four : script dh own (count + 4) = ["EXIT".toList] := rfl

theorem stage_zero : stage dh sessions side 0 = ⟨true, none, none, false, false, none, false, false⟩ := rfl

theorem stage_one : stage dh sessions side 1 =
    ⟨true, some ⟨(sessions side).1, none⟩, some ⟨(sessions side).2, none⟩, false, false, none, false, false⟩ := rfl

theorem stage_two : stage dh sessions side 2 =
    ⟨true, some ⟨(sessions side).1, none⟩, some ⟨(sessions side).2, some (keyOut dh sessions side)⟩, true, false, none,
      false, false⟩ := rfl

theorem stage_three : stage dh sessions side 3 =
    ⟨true, none, none, true, true, some (rc4Initstate (keyIn dh sessions side)), false, false⟩ := rfl

theorem stage_four : stage dh sessions side 4 =
    ⟨true, none, none, true, true, some (rc4Initstate (keyIn dh sessions side)), true, false⟩ := rfl

end

def dkeys (lines : List Bytes) : List Bytes := lines.filter isDkey

/-- The first lines of a side. -/
def lines (own : S × S) (count : Nat) : List Bytes := (List.range count).map fun i => dkeyLine (script dh own i)

/-- What a side has sent of its lines. -/
structure Told (side : Bool) (count : Nat) (output : Output D) : Prop where
  told : dkeys output.sent = lines dh (sessions side) count
  rc4Out : output.sender.rc4Out ≠ none ↔ 4 ≤ count
  zipOut : output.sender.zipOut ≠ none → count = 5
  zips : ∀ before behind, output.sent = before ++ svinfoZip :: behind → dkeys before = lines dh (sessions side) 5
  quiet : ∀ line ∈ output.sent, isDkey line = true ∨ line = svinfoZip ∨ Quiet line
  writes : Writes zlib (keyOut dh sessions side) output
  carries : ∃ (receiver : Receiver I) (handed waiting : List Bytes),
    Carries zlib (keyOut dh sessions side) output receiver handed waiting

/-- A side that has heard some lines of the peer. -/
structure Heard (side : Bool) (count : Nat) (serv : Serv S D) : Prop where
  dkey : serv.dkey = stage dh sessions side count
  heard : dkeys serv.heard = lines dh (sessions !side) count
  told : Told zlib dh sessions side (answers count) serv.output

section

variable {zlib dh sessions} {side : Bool} {serv : Serv S D} {output : Output D}

theorem keyOut_eq_keyIn (lawful : dh.Lawful) (side : Bool) : keyOut dh sessions side = keyIn dh sessions !side := by
  obtain ⟨secret, -, first, second⟩ := lawful.agrees (sessions side).2 (sessions !side).1
  rw [keyOut, keyIn, first, Bool.not_not, second]

/-- What all lines of the exchange have in common. -/
theorem script_params (lawful : dh.Lawful) (own : S × S) (count : Nat) :
    (∀ text ∈ script dh own count, Param text) ∧ (script dh own count).length < maxPara - 1 ∧
      (dkeyLine (script dh own count)).length ≤ 510 := by
  have start : Param "START".toList := .of_all (by decide) (by decide)
  have pub : Param "PUB".toList := .of_all (by decide) (by decide)
  have own₁ : Param "I".toList := .of_all (by decide) (by decide)
  have own₂ : Param "O".toList := .of_all (by decide) (by decide)
  have done : Param "DONE".toList := .of_all (by decide) (by decide)
  have exit : Param "EXIT".toList := .of_all (by decide) (by decide)
  have short (key : Text) (option : Text) (few : option.length = 1) (fits : key.length ≤ 256) :
      (dkeyLine ["PUB".toList, option, key]).length ≤ 510 := by
    simp only [dkeyLine, encode, Parse.spaced, List.length_map, List.length_append, List.flatMap_cons, List.flatMap_nil,
      List.length_cons, List.length_nil, few]
    have pub : "PUB".toList.length = 3 := rfl
    have dkey : "DKEY".toList.length = 4 := rfl
    omega
  rcases count with _ | _ | _ | _ | count
  · exact ⟨by simpa [script_zero] using start, by simp [script_zero, maxPara],
      show (dkeyLine ["START".toList]).length ≤ 510 by decide⟩
  · exact ⟨by simpa [script_one] using ⟨pub, own₁, lawful.param own.1⟩, by simp [script_one,
      maxPara], short _ _ rfl (lawful.short own.1)⟩
  · exact ⟨by simpa [script_two] using ⟨pub, own₂, lawful.param own.2⟩, by simp [script_two,
      maxPara], short _ _ rfl (lawful.short own.2)⟩
  · exact ⟨by simpa [script_three] using done, by simp [script_three, maxPara],
      show (dkeyLine ["DONE".toList]).length ≤ 510 by decide⟩
  · exact ⟨by simpa [script_four] using exit, by simp [script_four, maxPara],
      show (dkeyLine ["EXIT".toList]).length ≤ 510 by decide⟩

theorem isDkey_script (lawful : dh.Lawful) (own : S × S) (count : Nat) : isDkey (dkeyLine (script dh own count)) = true :=
  isDkey_dkeyLine (script_params lawful own count).1 (script_params lawful own count).2.1

theorem script_other (other : count ≠ 3) : script dh own count ≠ ["DONE".toList] := by
  rcases count with _ | _ | _ | _ | count
  · exact fun same => absurd (List.cons.inj same).1 (by decide)
  · exact fun same => absurd (List.cons.inj same).1 (by decide)
  · exact fun same => absurd (List.cons.inj same).1 (by decide)
  · exact absurd rfl other
  · exact fun same => absurd (List.cons.inj same).1 (by decide)

theorem lines_succ (own : S × S) (count : Nat) :
    lines dh own (count + 1) = lines dh own count ++ [dkeyLine (script dh own count)] := by
  rw [lines, List.range_succ, List.map_append]
  rfl

theorem dkeys_append (first second : List Bytes) : dkeys (first ++ second) = dkeys first ++ dkeys second :=
  List.filter_append ..

theorem dkeys_dkey (dkey : isDkey line = true) : dkeys [line] = [line] := by
  simp [dkeys, dkey]

theorem dkeys_other (other : isDkey line = false) : dkeys [line] = [] := by
  simp [dkeys, other]

/-- A line behind the last leaves what is said of a line before. -/
private theorem zips_snoc (zips : ∀ before behind, sent = before ++ svinfoZip :: behind → dkeys before = all)
    (last : line = svinfoZip → dkeys sent = all) (before behind : List Bytes)
    (same : sent ++ [line] = before ++ svinfoZip :: behind) : dkeys before = all := by
  rcases List.eq_nil_or_concat behind with rfl | ⟨behind, other, rfl⟩
  · obtain ⟨rfl, zip⟩ := List.append_inj' same rfl
    exact last (List.cons.inj zip).1
  · refine zips before behind ?_
    rw [List.concat_eq_append, ← List.cons_append, ← List.append_assoc] at same
    exact (List.append_inj_left' same rfl)

theorem dkey_svinfoZip : isDkey svinfoZip = false := by decide +kernel

theorem dkey_dkeyDone : isDkey dkeyDone = true := by decide +kernel

/-- The output goes on with a line. -/
theorem Told.perform (lawful : zlib.Lawful) (told : Told zlib dh sessions side count output) (event : Event)
    (possible : output.possible event) (line : Bytes)
    (sent : (output.perform zlib (keyOut dh sessions side) event).sent = output.sent ++ [line])
    (said : dkeys output.sent ++ dkeys [line] = Transport.lines dh (sessions side) count')
    (rc4Out : (output.perform zlib (keyOut dh sessions side) event).sender.rc4Out ≠ none ↔ 4 ≤ count')
    (zipOut : (output.perform zlib (keyOut dh sessions side) event).sender.zipOut ≠ none → count' = 5)
    (last : line = svinfoZip → count = 5)
    (quiet : isDkey line = true ∨ line = svinfoZip ∨ Quiet line) :
    Told zlib dh sessions side count' (output.perform zlib (keyOut dh sessions side) event) := by
  obtain ⟨receiver, handed, waiting, carries⟩ := told.carries
  refine ⟨by rw [sent, dkeys_append, said], rc4Out, zipOut, ?_, ?_, told.writes.perform event possible,
    perform_carries lawful event possible carries⟩
  · rw [sent]
    refine zips_snoc told.zips fun zip => ?_
    rw [told.told, last zip]
  · intro other inside
    rw [sent] at inside
    rcases List.mem_append.mp inside with before | this
    · exact told.quiet other before
    · rw [List.mem_singleton.mp this]
      exact quiet

theorem sendMessage_rc4Out (zlib : Zlib D I) (sender : Sender D) (msg : Bytes) (sbuf : Bool) :
    (sendMessage zlib sender msg sbuf).rc4Out ≠ none ↔ sender.rc4Out ≠ none := by
  unfold sendMessage
  split
  · dsimp only
    split
    · exact Sender.put_rc4Out ..
    · exact Sender.put_rc4Out ..
  · exact Iff.rfl

/-- Nothing that is on the queue is taken back. -/
theorem perform_sendQ (output : Output D) (event : Event) (key : Bytes) :
    output.sender.sendQ <+: (output.perform zlib key event).sender.sendQ := by
  have put (sender : Sender D) (msg : Bytes) : sender.sendQ <+: (sender.put msg).sendQ := List.prefix_append ..
  have message (msg : Bytes) (sbuf : Bool) : output.sender.sendQ <+: (sendMessage zlib output.sender msg sbuf).sendQ := by
    unfold sendMessage
    split
    · dsimp only
      split
      · exact put ..
      · exact put { output.sender with zipOut := _ } _
    · exact List.prefix_append ..
  cases event with
  | sendMessage msg sbuf => exact message msg sbuf
  | sendQueued =>
    rw [Output.perform, sendQueued]
    split
    · exact List.prefix_rfl
    · split
      · exact List.prefix_rfl
      · exact put { output.sender with zipOut := _ } _
  | dkeyDone => exact message dkeyDone false
  | svinfoZip => exact message svinfoZip false

theorem sendMessage_zipOut (zlib : Zlib D I) (sender : Sender D) (msg : Bytes) (sbuf : Bool) :
    (sendMessage zlib sender msg sbuf).zipOut ≠ none ↔ sender.zipOut ≠ none := by
  unfold sendMessage
  split
  · dsimp only
    split
    next zipOut => exact Iff.rfl
    next session zipOut => simp [Sender.put, zipOut]
  · exact Iff.rfl

theorem lineOf_short (sender : Sender D) (sbuf : Bool) (short : line.length ≤ 510) : sender.lineOf line sbuf = line := by
  unfold Sender.lineOf
  split <;> exact List.take_of_length_le (by omega)

/-- The next line of the exchange. -/
theorem Told.next (lawful : zlib.Lawful) (dlawful : dh.Lawful) (told : Told zlib dh sessions side count output)
    (other : count ≠ 3) (few : count < 5) :
    Told zlib dh sessions side (count + 1)
      (output.perform zlib (keyOut dh sessions side) (.sendMessage (dkeyLine (script dh (sessions side) count)) false)) := by
  obtain ⟨params, short, fits⟩ := script_params dlawful (sessions side) count
  have dkey := isDkey_script dlawful (sessions side) count
  refine told.perform lawful (.sendMessage _ false) (dkeyLine_Plain params short (script_other other))
    (dkeyLine (script dh (sessions side) count)) ?_ ?_ ?_ ?_ ?_ (.inl dkey)
  · rw [Output.perform, lineOf_short _ _ fits]
  · rw [told.told, dkeys_dkey dkey, lines_succ]
  · rw [Output.perform, sendMessage_rc4Out, told.rc4Out]
    omega
  · rw [Output.perform, sendMessage_zipOut]
    intro zipped
    have all := told.zipOut zipped
    omega
  · intro zip
    rw [zip, dkey_svinfoZip] at dkey
    cases dkey

/-- Both keys are there, and the line that says so. -/
theorem Told.done (lawful : zlib.Lawful) (told : Told zlib dh sessions side 3 output) :
    Told zlib dh sessions side 4 (output.perform zlib (keyOut dh sessions side) .dkeyDone) := by
  have plain : output.sender.rc4Out = none := by
    by_contra ciphered
    exact absurd (told.rc4Out.mp ciphered) (by decide)
  have unzipped : output.sender.zipOut = none := by
    by_contra zipped
    exact absurd (told.zipOut zipped) (by decide)
  refine told.perform lawful .dkeyDone ⟨plain, unzipped⟩ dkeyDone rfl ?_ ?_ ?_ ?_ (.inl dkey_dkeyDone)
  · rw [told.told, dkeys_dkey dkey_dkeyDone, lines_succ]
    rfl
  · simp [Output.perform]
  · intro zipped
    rw [Output.perform] at zipped
    exact absurd unzipped ((sendMessage_zipOut ..).mp zipped)
  · intro zip
    exact absurd zip (by decide)

theorem Told.quietly (lawful : zlib.Lawful) (told : Told zlib dh sessions side count output) (sbuf : Bool)
    (nonempty : msg ≠ []) (eol : ∀ g ∈ msg, isEol g = false) (quiet : Quiet (output.sender.lineOf msg sbuf)) :
    Told zlib dh sessions side count (output.perform zlib (keyOut dh sessions side) (.sendMessage msg sbuf)) := by
  have plain : Plain msg := by
    refine ⟨nonempty, eol, fun same => ?_, fun same => ?_⟩
    · have line := quiet.dkey
      rw [same, lineOf_short _ _ (by decide), dkey_dkeyDone] at line
      cases line
    · have line := quiet.zip
      rw [same, lineOf_short _ _ (by decide)] at line
      exact absurd line (by decide +kernel)
  refine told.perform lawful (.sendMessage msg sbuf) plain _ rfl ?_ ?_ ?_ ?_ (.inr (.inr quiet))
  · rw [told.told, dkeys_other quiet.dkey, List.append_nil]
  · rw [Output.perform, sendMessage_rc4Out, told.rc4Out]
  · rw [Output.perform, sendMessage_zipOut]
    exact told.zipOut
  · intro zip
    have line := quiet.zip
    rw [zip] at line
    exact absurd line (by decide +kernel)

theorem Told.zip (lawful : zlib.Lawful) (told : Told zlib dh sessions side 5 output)
    (unzipped : output.sender.zipOut = none) :
    Told zlib dh sessions side 5 (output.perform zlib (keyOut dh sessions side) .svinfoZip) := by
  refine told.perform lawful .svinfoZip unzipped svinfoZip rfl ?_ ?_ (fun _ => rfl) (fun _ => rfl) (.inr (.inl rfl))
  · rw [told.told, dkeys_other dkey_svinfoZip, List.append_nil]
  · rw [Output.perform]
    exact (sendMessage_rc4Out ..).trans told.rc4Out

theorem Told.queued (lawful : zlib.Lawful) (told : Told zlib dh sessions side count output) :
    Told zlib dh sessions side count (output.perform zlib (keyOut dh sessions side) .sendQueued) := by
  obtain ⟨receiver, handed, waiting, carries⟩ := told.carries
  have same : (sendQueued zlib output.sender).rc4Out ≠ none ↔ output.sender.rc4Out ≠ none := by
    unfold sendQueued
    split
    · exact Iff.rfl
    · split
      · exact Iff.rfl
      · exact Sender.put_rc4Out ..
  have zipped : (sendQueued zlib output.sender).zipOut ≠ none → output.sender.zipOut ≠ none := by
    intro zipped unzipped
    simp [sendQueued, unzipped] at zipped
  exact ⟨told.told, same.trans told.rc4Out, fun zip => told.zipOut (zipped zip), told.zips, told.quiet,
    told.writes.perform .sendQueued trivial, perform_carries lawful .sendQueued trivial carries⟩

private theorem option_other : mycmp "PUB".toList "START".toList = false ∧ mycmp "I".toList "O".toList = false ∧
    mycmp "DONE".toList "START".toList = false ∧ mycmp "DONE".toList "PUB".toList = false ∧
    mycmp "EXIT".toList "START".toList = false ∧ mycmp "EXIT".toList "PUB".toList = false ∧
    mycmp "EXIT".toList "DONE".toList = false := by decide +kernel

/-- The answer of a side to `START`. -/
theorem mDkey_start (all : List Bytes) :
    mDkey zlib dh (sessions side) ⟨stage dh sessions side 0, output, all⟩ ["START".toList] =
      (⟨stage dh sessions side 1,
        (output.perform zlib key (.sendMessage (dkeyLine (script dh (sessions side) 1)) false)).perform zlib key
          (.sendMessage (dkeyLine (script dh (sessions side) 2)) false), all⟩, .other) := by
  have own : encode ("DKEY PUB I ".toList ++ dh.pubKey (sessions side).1) = dkeyLine (script dh (sessions side) 1) := by
    simp [dkeyLine, script_one, Parse.spaced]
  have own' : encode ("DKEY PUB O ".toList ++ dh.pubKey (sessions side).2) = dkeyLine (script dh (sessions side) 2) := by
    simp [dkeyLine, script_two, Parse.spaced]
  rw [← own, ← own']
  unfold mDkey
  simp only [stage_zero, mycmp_refl, if_true]
  rfl

/-- The peer's key for what it reads: another one is to come. -/
theorem mDkey_pubI (dlawful : dh.Lawful) (all : List Bytes) :
    mDkey zlib dh (sessions side) ⟨stage dh sessions side 1, output, all⟩
        ["PUB".toList, "I".toList, dh.pubKey (sessions !side).1] =
      (⟨stage dh sessions side 2, output, all⟩, .other) := by
  obtain ⟨start, direction, -⟩ := option_other
  obtain ⟨secret, -, computed, -, generated⟩ := dlawful.generates (sessions side).2 (sessions !side).1
  have key : keyOut dh sessions side = secret := by rw [keyOut, computed, Option.getD_some]
  unfold mDkey
  simp only [stage_one, stage_two, start, direction, mycmp_refl, if_true, generated, key, Serv.gotBoth]
  rfl

/-- The peer's key for what it sends: now both are there. -/
theorem mDkey_pubO (dlawful : dh.Lawful) (all : List Bytes) :
    mDkey zlib dh (sessions side) ⟨stage dh sessions side 2, output, all⟩
        ["PUB".toList, "O".toList, dh.pubKey (sessions !side).2] =
      (⟨stage dh sessions side 3, output.perform zlib (keyOut dh sessions side) .dkeyDone, all⟩, .other) := by
  obtain ⟨start, -⟩ := option_other
  obtain ⟨secret, short, computed, -, generated⟩ := dlawful.generates (sessions side).1 (sessions !side).2
  obtain ⟨secret', short', computed', -, -⟩ := dlawful.generates (sessions side).2 (sessions !side).1
  have key : keyIn dh sessions side = secret := by rw [keyIn, computed, Option.getD_some]
  have key' : keyOut dh sessions side = secret' := by rw [keyOut, computed', Option.getD_some]
  unfold mDkey
  simp only [stage_two, stage_three, start, mycmp_refl, if_true, generated, key, key', Serv.gotBoth, Serv.sendtoOne,
    dhGetSShared, Option.bind_some, if_neg (Nat.not_lt.mpr short), if_neg (Nat.not_lt.mpr short')]
  have line : output.sender.lineOf (encode "DKEY DONE".toList) false = dkeyDone := lineOf_short _ _ (by decide)
  simp only [line, Output.perform]
  rfl

theorem mDkey_done (ciphered : output.sender.rc4Out ≠ none) (all : List Bytes) :
    mDkey zlib dh (sessions side) ⟨stage dh sessions side 3, output, all⟩ ["DONE".toList] =
      (⟨stage dh sessions side 4,
        output.perform zlib key (.sendMessage (dkeyLine (script dh (sessions side) 4)) false), all⟩,
        .rc4NextBuffer (rc4Initstate (keyIn dh sessions side))) := by
  obtain ⟨-, -, start, pub, -⟩ := option_other
  have some : output.sender.rc4Out.isNone = false := 
    Option.isNone_eq_false_iff.mpr (Option.isSome_iff_ne_none.mpr ciphered)
  unfold mDkey
  simp only [stage_three, start, pub, mycmp_refl, if_true, some]
  rfl

theorem mDkey_exit (ciphered : output.sender.rc4Out ≠ none) (all : List Bytes) :
    mDkey zlib dh (sessions side) ⟨stage dh sessions side 4, output, all⟩ ["EXIT".toList] =
      (⟨stage dh sessions side 5, output, all⟩, .other) := by
  obtain ⟨-, -, -, -, start, pub, done⟩ := option_other
  have some : output.sender.rc4Out.isSome = true := Option.isSome_iff_ne_none.mpr ciphered
  unfold mDkey
  simp only [stage_four, start, pub, done, mycmp_refl, if_true, some]
  rfl

/-- A line of the exchange that a side answers with some of its own. -/
private theorem Heard.answer (heard : Heard zlib dh sessions side count serv) (dkey : Dkey S) (output : Output D)
    (dlawful : dh.Lawful) (stands : dkey = stage dh sessions side (count + 1))
    (told : Told zlib dh sessions side (answers (count + 1)) output) :
    Heard zlib dh sessions side (count + 1)
      ⟨dkey, output, serv.heard ++ [dkeyLine (script dh (sessions !side) count)]⟩ := by
  refine ⟨stands, ?_, told⟩
  rw [dkeys_append, heard.heard, dkeys_dkey (isDkey_script dlawful _ _), lines_succ]

theorem parseLink_script (dlawful : dh.Lawful) (own theirs : S × S) (serv : Serv S D) (count : Nat) :
    parseLink zlib dh own serv (dkeyLine (script dh theirs count)) =
      mDkey zlib dh own { serv with heard := serv.heard ++ [dkeyLine (script dh theirs count)] }
        (script dh theirs count) := by
  obtain ⟨params, short, -⟩ := script_params dlawful theirs count
  rw [parseLink, if_pos (isDkey_script dlawful theirs count), commandWords_dkeyLine params short]

/-- The next line of the peer is answered, and no check refuses it. -/
theorem Heard.hear (lawful : zlib.Lawful) (dlawful : dh.Lawful) (heard : Heard zlib dh sessions side count serv)
    (few : count < 5) :
    (parseLink zlib dh (sessions side) serv (dkeyLine (script dh (sessions !side) count))).2 =
        (hand zlib (keyIn dh sessions side) [] (dkeyLine (script dh (sessions !side) count))).2 ∧
      Heard zlib dh sessions side (count + 1)
        (parseLink zlib dh (sessions side) serv (dkeyLine (script dh (sessions !side) count))).1 ∧
      (parseLink zlib dh (sessions side) serv (dkeyLine (script dh (sessions !side) count))).1.heard =
        serv.heard ++ [dkeyLine (script dh (sessions !side) count)] ∧
      serv.output.sender.sendQ <+:
        (parseLink zlib dh (sessions side) serv (dkeyLine (script dh (sessions !side) count))).1.output.sender.sendQ := by
  rw [parseLink_script dlawful]
  obtain ⟨dkey, output, before⟩ := serv
  obtain rfl : dkey = stage dh sessions side count := heard.dkey
  have told : Told zlib dh sessions side (answers count) output := heard.told
  have ciphered : 3 ≤ count → output.sender.rc4Out ≠ none := fun three => told.rc4Out.mpr (by
    rcases count with _ | _ | _ | _ | _ | count
    · omega
    · omega
    · omega
    · decide
    · decide
    · omega)
  have other (plain : count ≠ 3) : (hand zlib (keyIn dh sessions side) [] (dkeyLine (script dh (sessions !side) count))).2 =
      .other := by
    obtain ⟨params, short, -⟩ := script_params dlawful (sessions !side) count
    obtain ⟨-, -, done, zip⟩ := dkeyLine_Plain params short (script_other plain)
    simp only [hand, if_neg done, if_neg zip]
  rcases count with _ | _ | _ | _ | _ | count
  · rw [script_zero, mDkey_start]
    have own := (told.next lawful dlawful (by decide) (by decide)).next lawful dlawful (by decide) (by decide)
    exact ⟨(other (by decide)).symm, heard.answer _ _ dlawful rfl own, rfl, (perform_sendQ ..).trans (perform_sendQ ..)⟩
  · rw [script_one, mDkey_pubI dlawful]
    exact ⟨(other (by decide)).symm, heard.answer _ _ dlawful rfl told, rfl, List.prefix_rfl⟩
  · rw [script_two, mDkey_pubO dlawful]
    exact ⟨(other (by decide)).symm, heard.answer _ _ dlawful rfl (told.done lawful), rfl, perform_sendQ ..⟩
  · rw [script_three, mDkey_done (ciphered (Nat.le_refl 3))]
    refine ⟨?_, heard.answer _ _ dlawful rfl (told.next lawful dlawful (by decide) (by decide)), rfl, perform_sendQ ..⟩
    rw [hand, if_pos (by decide)]
  · rw [script_four, mDkey_exit (ciphered (by decide))]
    exact ⟨(other (by decide)).symm, heard.answer _ _ dlawful rfl told, rfl, List.prefix_rfl⟩
  · omega

theorem lines_next (same : lines dh own count ++ line :: more = lines dh own count') :
    count < count' ∧ line = dkeyLine (script dh own count) := by
  have place := congrArg (fun all : List Bytes => all[count]?) same
  have size : (lines dh own count).length = count := by simp [lines]
  rw [List.getElem?_append_right (Nat.le_of_eq size), size, Nat.sub_self, List.getElem?_cons_zero] at place
  have fits : count < count' := by
    have inside := (List.getElem?_eq_some_iff.mp place.symm).1
    simpa [lines] using inside
  rw [lines, List.getElem?_map, List.getElem?_range fits] at place
  exact ⟨fits, Option.some.inj place⟩

/-- A line that is not of the exchange is only heard. -/
theorem Heard.other (heard : Heard zlib dh sessions side count serv) (dkey : isDkey line = false) :
    Heard zlib dh sessions side count { serv with heard := serv.heard ++ [line] } := by
  refine ⟨heard.dkey, ?_, heard.told⟩
  rw [dkeys_append, heard.heard, dkeys_other dkey, List.append_nil]

/-- The lines of the peer, one after the other. -/
theorem Heard.hears (lawful : zlib.Lawful) (dlawful : dh.Lawful) (heard : Heard zlib dh sessions side count serv)
    (few : count ≤ 5) (peer : Told zlib dh sessions (!side) count' output') (few' : count' ≤ 5)
    (sent : output'.sent = serv.heard ++ more ++ rest) :
    Follows zlib (keyIn dh sessions side) (parseLink zlib dh (sessions side)) serv more ∧
      (∃ count, count ≤ 5 ∧ Heard zlib dh sessions side count (handle (parseLink zlib dh (sessions side)) serv more)) ∧
      (handle (parseLink zlib dh (sessions side)) serv more).heard = serv.heard ++ more ∧
      serv.output.sender.sendQ <+: (handle (parseLink zlib dh (sessions side)) serv more).output.sender.sendQ := by
  induction more generalizing serv count with
  | nil => exact ⟨trivial, ⟨count, few, heard⟩, (List.append_nil _).symm, List.prefix_rfl⟩
  | cons line more ih =>
    have told : dkeys output'.sent = dkeys serv.heard ++ (dkeys [line] ++ dkeys (more ++ rest)) := by
      rw [sent, ← dkeys_append, ← dkeys_append]
      simp
    rw [peer.told, heard.heard] at told
    -- How the rest goes on behind one line.
    have behind (serv' : Serv S D) (count : Nat) (few : count ≤ 5) (heard' : Heard zlib dh sessions side count serv')
        (stepped : (parseLink zlib dh (sessions side) serv line).1 = serv') (all : serv'.heard = serv.heard ++ [line])
        (grows : serv.output.sender.sendQ <+: serv'.output.sender.sendQ)
        (answer : (parseLink zlib dh (sessions side) serv line).2 = (hand zlib (keyIn dh sessions side) [] line).2) :
        Follows zlib (keyIn dh sessions side) (parseLink zlib dh (sessions side)) serv (line :: more) ∧
          (∃ count, count ≤ 5 ∧
            Heard zlib dh sessions side count (handle (parseLink zlib dh (sessions side)) serv (line :: more))) ∧
          (handle (parseLink zlib dh (sessions side)) serv (line :: more)).heard = serv.heard ++ line :: more ∧
          serv.output.sender.sendQ <+:
            (handle (parseLink zlib dh (sessions side)) serv (line :: more)).output.sender.sendQ := by
      obtain ⟨follows, sound, all', grows'⟩ := ih heard' few (by rw [sent, all]; simp)
      rw [← stepped] at follows sound all' grows'
      refine ⟨⟨answer, follows⟩, sound, ?_, (stepped ▸ grows).trans grows'⟩
      rw [handle, List.foldl_cons, ← handle, all', stepped, all]
      simp
    have member : line ∈ output'.sent := by
      rw [sent]
      simp
    rcases peer.quiet line member with dkey | rfl | quiet
    · rw [dkeys_dkey dkey] at told
      obtain ⟨next, rfl⟩ := lines_next told.symm
      obtain ⟨answer, heard', all, grows⟩ := heard.hear lawful dlawful (Nat.lt_of_lt_of_le next few')
      exact behind _ (count + 1) (Nat.le_trans next few') heard' rfl all grows answer
    · have all := peer.zips serv.heard (more ++ rest) (by rw [sent]; simp)
      rw [heard.heard] at all
      obtain rfl : count = 5 := by simpa [lines] using congrArg List.length all
      have estab : serv.dkey.estab = true := by rw [heard.dkey]; rfl
      have zip : isZip svinfoZip = true := by decide +kernel
      have step : parseLink zlib dh (sessions side) serv svinfoZip =
          ({ serv with heard := serv.heard ++ [svinfoZip] }, .zipNextBuffer zlib.inflateInit) := by
        simp only [parseLink, dkey_svinfoZip, estab, zip]
        rfl
      refine behind _ 5 few (heard.other dkey_svinfoZip) (by rw [step]) rfl List.prefix_rfl ?_
      rw [step, hand, if_neg (by decide), if_pos rfl]
    · have step : parseLink zlib dh (sessions side) serv line = ({ serv with heard := serv.heard ++ [line] }, .other) := by
        simp only [parseLink, quiet.dkey, quiet.zip, Bool.and_false]
        rfl
      refine behind _ count few (heard.other quiet.dkey) (by rw [step]) rfl List.prefix_rfl ?_
      have done : line ≠ dkeyDone := by
        rintro rfl
        have dkey := quiet.dkey
        rw [dkey_dkeyDone] at dkey
        cases dkey
      have zip : line ≠ svinfoZip := by
        rintro rfl
        exact absurd quiet.zip (by decide +kernel)
      rw [step, hand, if_neg done, if_neg zip]

end

end SolidIrcd.Transport
