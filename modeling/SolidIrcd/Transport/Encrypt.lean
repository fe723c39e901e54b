import SolidIrcd.Transport.Follow

/-! Which bytes of a link are encrypted: those behind the line DKEY DONE, at either end. -/

namespace SolidIrcd.Transport

variable {D I : Type} {zlib : Zlib D I} {key : Bytes} {receiver receiver' : Receiver I}

/-- The stream up to the end of the first DKEY DONE, and all of that line's stage: nothing else is encrypted. -/
def UpToDone (zlib : Zlib D I) (key : Bytes) (front : Bytes) : Prop :=
  ∃ before, scan (hand zlib key) [] [] front = (before ++ [dkeyDone], [], .rc4 (rc4Initstate key) [])

/-- A link deciphers the bytes of a stream behind the first part of it, and no others. -/
def Deciphers (key front stream : Bytes) (receiver : Receiver I) : Prop :=
  ∃ behind, stream = front ++ behind ∧ receiver.rc4In = some (rc4ProcessStream (rc4Initstate key) behind).1

/-- Each stage begins once, encryption before compression. -/
structure Staged (lines : List Bytes) : Prop where
  once : ∀ before behind, lines = before ++ dkeyDone :: behind → dkeyDone ∉ before ++ behind
  first : ∀ before behind, lines = before ++ svinfoZip :: behind → dkeyDone ∈ before

theorem Staged.of_append (staged : Staged (lines ++ more)) : Staged lines where
  once before behind same := by
    have absent := staged.once before (behind ++ more) (by rw [same, List.append_assoc, List.cons_append])
    exact fun inside => absent ((List.append_assoc before behind more) ▸ List.mem_append_left _ inside)
  first before behind same := staged.first before (behind ++ more) (by rw [same, List.append_assoc, List.cons_append])

theorem Staged.once_of_mem (staged : Staged (lines ++ more)) (inside : dkeyDone ∈ lines) : dkeyDone ∉ more := by
  obtain ⟨before, behind, rfl⟩ := List.append_of_mem inside
  have absent := staged.once before (behind ++ more) (by simp)
  exact fun again => absent (List.mem_append_right _ (List.mem_append_right _ again))

/-- What a link has made of the stream that it has read. -/
structure Reads (zlib : Zlib D I) (key stream : Bytes) (receiver : Receiver I) (handed : List Bytes) : Prop where
  clear : dkeyDone ∉ handed →
    receiver.rc4In = none ∧ receiver.zipIn = none ∧ scan (hand zlib key) [] [] stream = (handed, receiver.buffer, .done)
  ciphered : dkeyDone ∈ handed → ∃ front, UpToDone zlib key front ∧ Deciphers key front stream receiver

theorem Reads.start : Reads zlib key [] .fresh [] where
  clear _ := ⟨rfl, rfl, rfl⟩
  ciphered inside := absurd inside List.not_mem_nil

theorem Reads.dopacket (reads : Reads zlib key stream receiver handed)
    (result : dopacket zlib (hand zlib key) calls receiver handed chunk = some (.kept receiver' handed'))
    (staged : Staged handed') : Reads zlib key (stream ++ chunk) receiver' handed' := by
  obtain ⟨lines, rfl, rc4In, -⟩ := dopacket_hand (hand zlib key) result
  by_cases ciphered : dkeyDone ∈ handed
  · obtain ⟨front, upTo, behind, split, deciphers⟩ := reads.ciphered ciphered
    refine ⟨fun absent => absurd (List.mem_append_left _ ciphered) absent, fun _ => ⟨front, upTo, behind ++ chunk, ?_, ?_⟩⟩
    · rw [split, List.append_assoc]
    · rw [rc4In (staged.once_of_mem ciphered), deciphers, crypt, rc4_append]
  · obtain ⟨plain, unzipped, scanned⟩ := reads.clear ciphered
    have onward : scan (hand zlib key) [] [] (stream ++ chunk) = _ := scan_append stream chunk
    rw [scanned] at onward
    cases calls with
    | zero => cases result
    | succ calls =>
      rw [Transport.dopacket, plain] at result
      simp only [crypt, zcontinue, unzipped] at result
      cases calls with
      | zero => cases result
      | succ calls =>
        rcases stopped : scan (hand zlib key) handed receiver.buffer chunk with ⟨handed', buffer, stop⟩
        obtain ⟨first, rfl, stops, -⟩ := scan_hand (τ := Unit) stopped
        simp only [stopped] at onward
        simp only [process, stopped] at result
        cases stop with
        | flushed => exact stops.elim
        | done =>
          obtain ⟨rfl, same⟩ := Outcome.kept.inj (Option.some.inj result)
          rw [← same]
          refine ⟨fun _ => ⟨rfl, rfl, onward⟩, fun inside => ?_⟩
          exact ((List.mem_append.mp inside).elim ciphered stops).elim
        | zip session rest =>
          obtain ⟨more, same⟩ : ∃ more, handed ++ lines = handed ++ first ++ more := by
            dsimp only at result
            split at result
            · obtain ⟨more, same, -⟩ := (process_hand (hand zlib key) _).1 _ _ _ _ _ _ result
              exact ⟨more, same⟩
            · split at result
              · cases result
              · obtain ⟨more, same, -⟩ := (process_hand (hand zlib key) _).1 _ _ _ _ _ _ result
                exact ⟨more, same⟩
          rw [same] at staged
          obtain ⟨before, behind, split⟩ := List.append_of_mem (List.mem_append_right handed stops.2)
          exact absurd (staged.of_append.first before behind split)
            fun inside => ((List.mem_append.mp (split ▸ List.mem_append_left _ inside)).elim ciphered stops.1)
        | rc4 cipher rest =>
          obtain ⟨rfl, ⟨before, last⟩, front, rfl, ends⟩ := stops
          obtain ⟨more, same, keeps, -⟩ := (process_hand (hand zlib key) _).1 _ _ _ _ _ _ result
          rw [same] at staged ⊢
          have inside : dkeyDone ∈ handed ++ first := by
            rw [last]
            simp
          refine ⟨fun absent => absurd (List.mem_append_left _ inside) absent,
            fun _ => ⟨stream ++ front, ⟨handed ++ before, ?_⟩, rest, (List.append_assoc ..).symm, ?_⟩⟩
          · rw [scan_append, scanned]
            simp only [ends, last, List.append_assoc]
          · rw [keeps (staged.once_of_mem inside)]

/-- Only one first part of a stream ends with the line. -/
theorem UpToDone.unique (first : UpToDone zlib key front) (second : UpToDone zlib key front')
    (same : front ++ behind = front' ++ behind') : front = front' := by
  have longer (front more : Bytes) (first : UpToDone zlib key front) (second : UpToDone zlib key (front ++ more)) :
      more = [] := by
    obtain ⟨before, scanned⟩ := first
    obtain ⟨before', scanned'⟩ := second
    rw [scan_append, scanned] at scanned'
    simpa using congrArg (fun result => result.2.2) scanned'
  rcases List.append_eq_append_iff.mp same with ⟨more, rfl, -⟩ | ⟨more, rfl, -⟩
  · rw [longer _ _ first second, List.append_nil]
  · rw [longer _ _ second first, List.append_nil]

/-- A link encrypts what it sends behind the first part of its stream, and nothing else. -/
def Enciphers (key front : Bytes) (sender : Sender D) : Prop :=
  ∃ behind, sender.sendQ = front ++ (rc4ProcessStream (rc4Initstate key) behind).2 ∧
    sender.rc4Out = some (rc4ProcessStream (rc4Initstate key) behind).1

/-- What a link has sent, in clear or not. -/
structure Writes (zlib : Zlib D I) (key : Bytes) (output : Output D) : Prop where
  clear : output.sender.rc4Out = none → output.sender.zipOut = none →
    scan (hand zlib key) [] [] output.sender.sendQ = (output.sent, [], .done)
  ciphered : output.sender.rc4Out ≠ none → ∃ front, UpToDone zlib key front ∧ Enciphers key front output.sender

theorem Writes.start : Writes zlib key (.fresh : Output D) where
  clear _ _ := rfl
  ciphered ciphered := absurd rfl ciphered

theorem Enciphers.put (enciphers : Enciphers key front sender) (msg : Bytes) :
    Enciphers key front (Sender.put (D := D) sender msg) := by
  obtain ⟨behind, sendQ, rc4Out⟩ := enciphers
  refine ⟨behind ++ msg, ?_, ?_⟩
  · rw [Sender.put, rc4Out, crypt, sendQ, rc4_append, List.append_assoc]
  · rw [Sender.put, rc4Out, crypt, rc4_append]

theorem Sender.put_rc4Out (sender : Sender D) (msg : Bytes) : (sender.put msg).rc4Out ≠ none ↔ sender.rc4Out ≠ none := by
  cases rc4 : sender.rc4Out <;> simp [Sender.put, crypt, rc4]

/-- A block of a link that deflates. -/
theorem Writes.block {output : Output D} (writes : Writes zlib key output) (zipOut : Option (D × Bytes))
    (zipped : zipOut ≠ none) (msg : Bytes) (sent : List Bytes) :
    Writes zlib key ⟨{ output.sender with zipOut := zipOut }.put msg, sent⟩ where
  clear _ unzipped := absurd unzipped zipped
  ciphered ciphered := by
    obtain ⟨front, upTo, enciphers⟩ := writes.ciphered ((Sender.put_rc4Out _ msg).mp ciphered)
    exact ⟨front, upTo, Enciphers.put enciphers msg⟩

/-- A line that begins no stage. -/
theorem Writes.line {output : Output D} (writes : Writes zlib key output) (unzipped : output.sender.zipOut = none)
    (ended : Bytes) (line : Bytes)
    (scanned : ∀ handed, scan (hand zlib key) handed [] ended = (handed ++ [line], [], .done)) :
    Writes zlib key ⟨output.sender.put ended, output.sent ++ [line]⟩ where
  clear plain _ := by
    have before : output.sender.rc4Out = none := by
      by_contra ciphered
      exact (Sender.put_rc4Out _ ended).mpr ciphered plain
    rw [Sender.put, before, crypt, scan_append, writes.clear before unzipped]
    exact scanned _
  ciphered ciphered := by
    obtain ⟨front, upTo, enciphers⟩ := writes.ciphered ((Sender.put_rc4Out _ ended).mp ciphered)
    exact ⟨front, upTo, enciphers.put ended⟩

theorem Writes.perform {output : Output D} (writes : Writes zlib key output) (event : Event)
    (possible : output.possible event) : Writes zlib key (output.perform zlib key event) := by
  cases event with
  | sendMessage msg sbuf =>
    rw [Output.perform]
    cases zipOut : output.sender.zipOut with
    | none =>
      obtain ⟨ended, put, scanned⟩ := sendMessage_unzipped zlib key sbuf zipOut possible
      rw [put]
      exact writes.line zipOut ended _ scanned
    | some session =>
      rw [sendMessage_zipped msg sbuf zipOut]
      exact writes.block _ (Option.some_ne_none _) _ _
  | sendQueued =>
    rw [Output.perform, sendQueued]
    split
    · exact writes
    · split
      · exact writes
      · exact writes.block _ (Option.some_ne_none _) _ _
  | dkeyDone =>
    obtain ⟨plain, unzipped⟩ := possible
    rw [Output.perform, sendMessage_stage dkeyDone unzipped (by decide)]
    constructor
    · intro plain'
      cases plain'
    · intro ciphered
      refine ⟨output.sender.sendQ ++ (dkeyDone ++ [10]), ⟨output.sent, ?_⟩, [], ?_, rfl⟩
      · rw [scan_append, writes.clear plain unzipped]
        dsimp only
        rw [scan_line dkeyDone (eol_of_all rfl) (Nat.le_of_ble_eq_true rfl), List.nil_append, scan, if_pos (by decide),
          if_neg (by decide), hand, if_pos rfl]
      · rw [Sender.put, plain]
        exact (List.append_nil _).symm
  | svinfoZip =>
    rw [Output.perform, sendMessage_stage svinfoZip possible (by decide)]
    constructor
    · intro plain zipped
      cases zipped
    · intro ciphered
      obtain ⟨front, upTo, enciphers⟩ := writes.ciphered ((Sender.put_rc4Out _ (svinfoZip ++ [10])).mp ciphered)
      exact ⟨front, upTo, enciphers.put (svinfoZip ++ [10])⟩

end SolidIrcd.Transport
