import SolidIrcd.Recv.ClientQueue

/-! Whether a client's lines reach `parse` one by one, whole and terminated,
however the stream was cut into reads and whenever the queue was looked at. -/

namespace SolidIrcd.Recv

open Scan Lines

/-- The string a line should become: up to its first NUL, and at most `BUFSIZE - 1` bytes. -/
def lineText (line : Text) : Text := (line.takeWhile (· != nul)).take (bufSize - 1)

/-- What was handed to `parse` and what still waits in the queue are the lines
received, in order, and every buffer handed over was terminated. -/
structure Client.Faithful (client : Client) : Prop where
  inOrder : client.handed.map (textAt · 0) ++ (lines isEol client.recvQ.bytes).map lineText =
    (lines isEol client.received).map lineText
  terminated : ∀ buffer ∈ client.handed, Terminated bufSize buffer

/-- What every turn of the loop keeps, the loop keeps. -/
private theorem doClientQueue_keeps {server : Server} {P : Client → Prop} (penalty : Nat → Nat)
    (handing : ∀ client line recvQ, P client →
      getmsg client.recvQ.bytes server.rcvbufmax = (some line, recvQ.bytes) →
      P (clientDopacket penalty { client with recvQ := recvQ } line))
    (waiting : ∀ client recvQ, P client →
      getmsg client.recvQ.bytes server.rcvbufmax = (none, recvQ.bytes) →
      P { client with recvQ := recvQ, nonl := true })
    (clearing : ∀ client recvQ, P client →
      getmsg client.recvQ.bytes server.rcvbufmax = (none, recvQ.bytes) → 510 ≤ recvQ.bytes.length →
      P { client with recvQ := sbufDelete recvQ recvQ.length })
    (now : Nat) (client : Client) (holds : P client) : P (doClientQueue server now penalty client) := by
  fun_induction doClientQueue server now penalty client with
  | case1 client guard recvQ read few =>
    have spec := sbufGetmsg_eq client.recvQ server.rcvbufmax
    rw [read] at spec
    exact waiting client recvQ holds (Prod.ext spec.1.symm spec.2.symm)
  | case2 client guard recvQ read many =>
    have spec := sbufGetmsg_eq client.recvQ server.rcvbufmax
    rw [read] at spec
    exact clearing client recvQ holds (Prod.ext spec.1.symm spec.2.symm) (Nat.le_of_not_lt many)
  | case3 client guard line recvQ read ih =>
    have spec := sbufGetmsg_eq client.recvQ server.rcvbufmax
    rw [read] at spec
    exact ih (handing client line recvQ holds (Prod.ext spec.1.symm spec.2.symm))
  | case4 client guard => exact holds

private theorem received_doClientQueue (server : Server) (now : Nat) (penalty : Nat → Nat)
    (client : Client) : (doClientQueue server now penalty client).received = client.received :=
  doClientQueue_keeps (P := fun next => next.received = client.received) penalty
    (fun _ _ _ same _ => same) (fun _ _ same _ => same) (fun _ _ same _ _ => same) now client rfl

private theorem bytes_cleared (recvQ : SBuf) : (sbufDelete recvQ recvQ.length).bytes = [] := by
  rw [bytes_sbufDelete]
  exact List.drop_length

/-- The invariant of a stream of short lines. Once an unfinished line has been
thrown away, no end of a line can follow, and none is in the queue. -/
structure Client.Kept (client : Client) : Prop where
  inOrder : ∃ done, lines isEol client.received = done ++ lines isEol client.recvQ.bytes ∧
    client.handed.map (textAt · 0) = done.map lineText
  unfinished : pending isEol client.recvQ.bytes = pending isEol client.received ∨
    (510 ≤ (pending isEol client.received).length ∧ Endless isEol client.recvQ.bytes)
  terminated : ∀ buffer ∈ client.handed, Terminated bufSize buffer
  sized : client.buffer.length = bufSize

private def Short (stream : Text) : Prop := ∀ line ∈ lines isEol stream, line.length ≤ 509

private theorem textAt_buffer {buffer line : Text} (short : line.length ≤ 509) :
    textAt (strncpy buffer (line.takeWhile (· != nul)) bufSize) 0 = lineText line := by
  have cut := (List.takeWhile_sublist (l := line) (· != nul)).length_le
  have clean : nul ∉ line.takeWhile (· != nul) := fun member => by
    simpa using List.mem_takeWhile_imp member
  rw [textAt_strncpy clean (by simp only [bufSize]; omega), lineText,
    List.take_of_length_le (by simp only [bufSize]; omega)]

private theorem Client.Kept.handing {client : Client} {recvQ : SBuf} (kept : client.Kept)
    (short : Short client.received) (penalty : Nat → Nat)
    (taken : getmsg client.recvQ.bytes n = (some line, recvQ.bytes)) :
    (clientDopacket penalty { client with recvQ := recvQ } line).Kept := by
  obtain ⟨done, split, same⟩ := kept.inOrder
  obtain ⟨-, -, queued, left⟩ := getmsg_some taken
  have few : line.length ≤ 509 := short line (by rw [split, queued]; simp)
  have fits : (line.takeWhile (· != nul)).length < bufSize := by
    have := (List.takeWhile_sublist (l := line) (· != nul)).length_le
    simp only [bufSize]
    omega
  have stored := strncpy_terminated kept.sized fits
  refine ⟨⟨done ++ [line], ?_, ?_⟩, ?_, ?_, stored.1⟩
  · simpa [clientDopacket, queued] using split
  · simp [clientDopacket, same, textAt_buffer few]
  · rcases kept.unfinished with unlost | ⟨long, endless⟩
    · exact .inl (left.symm.trans unlost)
    · have nothing := linesFrom_endless endless []
      rw [lines, nothing] at queued
      cases queued
  · intro buffer member
    rcases List.mem_append.mp member with early | last
    · exact kept.terminated buffer early
    · rw [List.mem_singleton.mp last]
      exact stored

private theorem Client.Kept.waiting {client : Client} {recvQ : SBuf} (kept : client.Kept)
    (nothing : getmsg client.recvQ.bytes n = (none, recvQ.bytes)) (nonl : Bool) :
    { client with recvQ := recvQ, nonl := nonl }.Kept := by
  obtain ⟨done, split, same⟩ := kept.inOrder
  obtain ⟨suffix, queued, left, -⟩ := getmsg_none nothing
  refine ⟨⟨done, split.trans (by rw [queued]), same⟩, ?_, kept.terminated, kept.sized⟩
  rcases kept.unfinished with unlost | ⟨long, endless⟩
  · exact .inl (left.trans unlost)
  · exact .inr ⟨long, fun byte member => endless byte (suffix.mem member)⟩

/-- A queue is only thrown away when it is one long unfinished line. -/
private theorem Client.Kept.clearing {client : Client} {recvQ : SBuf} (kept : client.Kept)
    (short : Short client.received) (far : 509 < n)
    (nothing : getmsg client.recvQ.bytes n = (none, recvQ.bytes)) (long : 510 ≤ recvQ.bytes.length) :
    { client with recvQ := sbufDelete recvQ recvQ.length }.Kept := by
  obtain ⟨done, split, same⟩ := kept.inOrder
  obtain ⟨-, queued, left, ended⟩ := getmsg_none nothing
  have endless : Endless isEol recvQ.bytes := by
    rcases ended with endless | ⟨line, member, wide⟩
    · exact endless
    · have few := short line (by rw [split, ← queued]; exact List.mem_append_right _ member)
      omega
  have none : lines isEol client.recvQ.bytes = [] := queued ▸ linesFrom_endless endless []
  refine ⟨⟨done, ?_, same⟩, .inr ⟨?_, ?_⟩, kept.terminated, kept.sized⟩
  · simp only [bytes_cleared]
    rw [split, none]
    rfl
  · rcases kept.unfinished with unlost | ⟨already, -⟩
    · rw [← unlost, ← left, pending, pendingFrom_endless endless]
      simpa using long
    · exact already
  · simp [bytes_cleared, Endless]

private theorem Client.Kept.reading {client : Client} (kept : client.Kept) (bytes : Text)
    (short : Short (client.received ++ bytes)) (now : Nat) : (client.fed now bytes).Kept := by
  obtain ⟨done, split, same⟩ := kept.inOrder
  have grown : lines isEol (client.received ++ bytes) =
      lines isEol client.received ++ linesFrom isEol (pending isEol client.received) bytes :=
    linesFrom_append [] client.received bytes
  have waiting : pending isEol (client.received ++ bytes) =
      pendingFrom isEol (pending isEol client.received) bytes :=
    pendingFrom_append [] client.received bytes
  rcases kept.unfinished with unlost | ⟨long, endless⟩
  · refine ⟨⟨done, ?_, same⟩, .inl ?_, kept.terminated, kept.sized⟩
    · rw [client.received_fed, grown, split, client.bytes_fed, lines, lines, linesFrom_append, ← unlost]
      simp [pending]
    · rw [client.received_fed, waiting, client.bytes_fed, pending, pendingFrom_append, ← unlost]
      rfl
  · have quiet : Endless isEol bytes := by
      by_contra ended
      have filled : pending isEol client.received ≠ [] := by
        intro empty
        simp [empty] at long
      obtain ⟨line, member, wide⟩ := exists_long_line filled ended
      have few := short line (by rw [grown]; exact List.mem_append_right _ member)
      omega
    have both : Endless isEol (client.recvQ.bytes ++ bytes) := by
      intro byte member
      rcases List.mem_append.mp member with early | late
      · exact endless byte early
      · exact quiet byte late
    refine ⟨⟨done, ?_, same⟩, .inr ⟨?_, by rwa [client.bytes_fed]⟩, kept.terminated, kept.sized⟩
    · rw [client.received_fed, grown, split, client.bytes_fed, linesFrom_endless quiet, lines,
        linesFrom_endless endless, lines, linesFrom_endless both]
      simp
    · rw [client.received_fed, waiting, pendingFrom_endless quiet, List.length_append]
      omega

private theorem Short.of_append (short : Short (stream ++ more)) : Short stream := by
  intro line member
  refine short line ?_
  rw [lines, linesFrom_append]
  exact List.mem_append_left _ member

private theorem Client.Kept.queue {server : Server} {client : Client} (kept : client.Kept)
    (short : Short client.received) (now : Nat) (penalty : Nat → Nat) :
    (doClientQueue server now penalty client).Kept := by
  have large := server.large
  simp only [maxClientRecvq] at large
  refine (doClientQueue_keeps (P := fun next => next.Kept ∧ next.received = client.received) penalty
    ?_ ?_ ?_ now client ⟨kept, rfl⟩).1
  · rintro next line recvQ ⟨nextKept, same⟩ taken
    exact ⟨nextKept.handing (same ▸ short) penalty taken, same⟩
  · rintro next recvQ ⟨nextKept, same⟩ nothing
    exact ⟨nextKept.waiting nothing true, same⟩
  · rintro next recvQ ⟨nextKept, same⟩ nothing long
    exact ⟨nextKept.clearing (same ▸ short) (by omega) nothing long, same⟩

private theorem kept_of_reachable {server : Server} {client : Client}
    (reached : Reachable server client) (short : Short client.received) : client.Kept := by
  induction reached with
  | start since =>
    exact ⟨⟨[], rfl, rfl⟩, .inl rfl, by simp [Client.start], List.length_replicate⟩
  | read now bytes isPerson isAnOper penalty before filled sized result ih =>
    rename_i client next
    rcases readPacket_cases result with rfl | rfl
    · rw [received_doClientQueue] at short
      exact (ih short).queue short now penalty
    · rw [received_doClientQueue] at short
      have kept : client.Kept := ih short.of_append
      exact (kept.reading bytes short now).queue short now penalty
  | tick now penalty before ih =>
    rename_i client
    unfold doRecvqs at short ⊢
    split
    · rename_i waiting
      rw [if_pos waiting, received_doClientQueue] at short
      exact (ih short).queue short now penalty
    · rename_i idle
      rw [if_neg idle] at short
      exact ih short

private theorem Client.Kept.faithful {client : Client} (kept : client.Kept) : client.Faithful := by
  obtain ⟨done, split, same⟩ := kept.inOrder
  exact ⟨by rw [same, split, List.map_append], kept.terminated⟩

/-- Lines only ever get lost: what was handed over and what waits is never more
than `base` and the lines of the stream read since then. -/
private def Client.Counted (base : Nat) (stream : Text) (client : Client) : Prop :=
  client.handed.length + (lines isEol client.recvQ.bytes).length ≤
      base + (lines isEol stream).length ∧
    (pending isEol client.recvQ.bytes ≠ [] → pending isEol stream ≠ [])

private theorem Client.Counted.queue {server : Server} {client : Client}
    (counted : client.Counted base stream) (now : Nat) (penalty : Nat → Nat) :
    (doClientQueue server now penalty client).Counted base stream := by
  refine doClientQueue_keeps penalty ?_ ?_ ?_ now client counted
  · rintro next line recvQ ⟨few, unfinished⟩ taken
    obtain ⟨-, -, queued, left⟩ := getmsg_some taken
    rw [queued, List.length_cons] at few
    rw [left] at unfinished
    refine ⟨?_, unfinished⟩
    simp only [clientDopacket, List.length_append, List.length_singleton]
    omega
  · rintro next recvQ ⟨few, unfinished⟩ nothing
    obtain ⟨-, queued, left, -⟩ := getmsg_none nothing
    exact ⟨by rwa [← queued] at few, by rwa [← left] at unfinished⟩
  · rintro next recvQ ⟨few, unfinished⟩ nothing long
    simp only [Counted, bytes_cleared]
    refine ⟨?_, fun some_ => absurd rfl some_⟩
    simp only [lines_nil, List.length_nil]
    omega

private theorem Client.Counted.reading {client : Client} (counted : client.Counted base stream)
    (now : Nat) (bytes : Text) : (client.fed now bytes).Counted base (stream ++ bytes) := by
  obtain ⟨few, unfinished⟩ := counted
  have more : (linesFrom isEol (pending isEol client.recvQ.bytes) bytes).length ≤
      (linesFrom isEol (pending isEol stream) bytes).length := length_linesFrom_le unfinished bytes
  unfold Counted lines pending at *
  rw [client.bytes_fed, linesFrom_append, linesFrom_append, pendingFrom_append, pendingFrom_append]
  refine ⟨?_, pendingFrom_filled unfinished bytes⟩
  simp only [List.length_append, client.handed_fed]
  omega

/-- Reads of a client that is not registered and never kept waiting. -/
private def feed (server : Server) (client : Client) (pieces : List Text) : Client :=
  pieces.foldl (fun client piece => doClientQueue server 0 (fun _ => 0) (client.fed 0 piece)) client

private theorem readPacket_unregistered (server : Server) (client : Client) (piece : Text) :
    readPacket server 0 piece false false (fun _ => 0) client =
      some (doClientQueue server 0 (fun _ => 0) (client.fed 0 piece)) := by
  simp [readPacket]

private theorem reachable_feed {server : Server} {client : Client} (reached : Reachable server client)
    (pieces : List Text) (sized : ∀ piece ∈ pieces, piece ≠ [] ∧ piece.length ≤ maxClientRecvq) :
    Reachable server (feed server client pieces) := by
  induction pieces generalizing client with
  | nil => exact reached
  | cons piece rest ih =>
    obtain ⟨filled, short⟩ := sized piece List.mem_cons_self
    exact ih (.read 0 piece false false _ reached filled (short.trans server.large)
      (readPacket_unregistered server client piece))
      fun other member => sized other (List.mem_cons_of_mem _ member)

private theorem received_feed (server : Server) (client : Client) (pieces : List Text) :
    (feed server client pieces).received = client.received ++ pieces.flatten := by
  induction pieces generalizing client with
  | nil => simp [feed]
  | cons piece rest ih =>
    rw [feed, List.foldl_cons, ← feed, ih, received_doClientQueue]
    simp

private theorem counted_feed (server : Server) {client : Client} (counted : client.Counted base stream)
    (pieces : List Text) : (feed server client pieces).Counted base (stream ++ pieces.flatten) := by
  induction pieces generalizing client stream with
  | nil => simpa [feed] using counted
  | cons piece rest ih =>
    rw [feed, List.foldl_cons, ← feed, List.flatten_cons, ← List.append_assoc]
    exact ih ((counted.reading 0 piece).queue 0 _)

/-- A client in time has no complete line left in its queue. -/
private structure Client.Drained (client : Client) : Prop where
  inTime : client.since = 0
  endless : Endless isEol client.recvQ.bytes

private theorem drained_doClientQueue {server : Server} {client : Client} (inTime : client.since = 0)
    (ready : client.nonl = false) : (doClientQueue server 0 (fun _ => 0) client).Drained := by
  have large := server.large
  simp only [maxClientRecvq] at large
  fun_induction doClientQueue server 0 (fun _ => 0) client with
  | case1 client guard recvQ read few =>
    have spec := sbufGetmsg_eq client.recvQ server.rcvbufmax
    rw [read] at spec
    obtain ⟨-, -, -, ended⟩ := getmsg_none (Prod.ext spec.1.symm spec.2.symm)
    refine ⟨inTime, ?_⟩
    rcases ended with endless | ⟨line, member, wide⟩
    · exact endless
    · have inside : line.length ≤ recvQ.bytes.length := length_le_of_mem_lines member
      simp only [SBuf.length] at few
      omega
  | case2 client guard recvQ read many => exact ⟨inTime, by simp [bytes_cleared, Endless]⟩
  | case3 client guard line recvQ read ih =>
    exact ih (by simp [clientDopacket, inTime]) (by simpa [clientDopacket] using ready)
  | case4 client guard =>
    have empty : client.recvQ.bytes = [] := by
      by_contra some_
      exact guard ⟨by simpa [SBuf.length] using some_, ready, by omega⟩
    exact ⟨inTime, by simp [empty, Endless]⟩

private theorem drained_feed (server : Server) {client : Client} (drained : client.Drained)
    (pieces : List Text) : (feed server client pieces).Drained := by
  induction pieces generalizing client with
  | nil => exact drained
  | cons piece rest ih =>
    have inTime : (client.fed 0 piece).since = 0 := by simp [Client.fed, drained.inTime]
    exact ih (drained_doClientQueue inTime rfl)

/-- A long piece without a line end vanishes from an empty queue. -/
private theorem bytes_feed_long {server : Server} {client : Client} (inTime : client.since = 0)
    (empty : client.recvQ.bytes = []) (endless : Endless isEol piece) (long : 510 ≤ piece.length) :
    (doClientQueue server 0 (fun _ => 0) (client.fed 0 piece)).recvQ.bytes = [] := by
  have queued : (client.fed 0 piece).recvQ.bytes = piece := by rw [client.bytes_fed, empty, List.nil_append]
  have guard : (client.fed 0 piece).recvQ.length ≠ 0 ∧ (client.fed 0 piece).nonl = false ∧
      (client.fed 0 piece).since < 0 + 10 := by
    refine ⟨?_, rfl, by simp [Client.fed, inTime]⟩
    rw [SBuf.length, queued]
    omega
  have spec := sbufGetmsg_eq (client.fed 0 piece).recvQ server.rcvbufmax
  rw [queued, getmsg_endless endless] at spec
  rw [doClientQueue, if_pos guard]
  split
  · rename_i recvQ read
    have left : recvQ.bytes = piece := by rw [read] at spec; exact spec.2
    rw [if_neg (by rw [SBuf.length, left]; omega)]
    exact bytes_cleared recvQ
  · rename_i line recvQ read
    rw [read] at spec
    cases spec.1

private theorem feed_long (server : Server) {client : Client} (drained : client.Drained)
    (empty : client.recvQ.bytes = []) (pieces : List Text)
    (long : ∀ piece ∈ pieces, Endless isEol piece ∧ 510 ≤ piece.length) :
    (feed server client pieces).recvQ.bytes = [] := by
  induction pieces generalizing client with
  | nil => exact empty
  | cons piece rest ih =>
    obtain ⟨endless, wide⟩ := long piece List.mem_cons_self
    have next : (doClientQueue server 0 (fun _ => 0) (client.fed 0 piece)).Drained :=
      drained_doClientQueue (by simp [Client.fed, drained.inTime]) rfl
    exact ih next (bytes_feed_long drained.inTime empty endless wide)
      fun other member => long other (List.mem_cons_of_mem _ member)

/-- An over-long text can be cut into pieces that are all long enough to be thrown away. -/
private theorem exists_long_pieces (text : Text) (long : 510 ≤ text.length) :
    ∃ pieces : List Text, pieces.flatten = text ∧
      ∀ piece ∈ pieces, 510 ≤ piece.length ∧ piece.length ≤ 1019 := by
  induction size : text.length using Nat.strongRecOn generalizing text with
  | _ size ih =>
    by_cases last : text.length ≤ 1019
    · exact ⟨[text], by simp, by simpa using ⟨long, last⟩⟩
    · have front : (text.take 510).length = 510 := by
        rw [List.length_take]
        omega
      obtain ⟨pieces, joined, sized⟩ := ih (text.length - 510) (by omega) (text.drop 510)
        (by rw [List.length_drop]; omega) (by simp)
      refine ⟨text.take 510 :: pieces, by rw [List.flatten_cons, joined, List.take_append_drop], ?_⟩
      intro piece member
      rcases List.mem_cons.mp member with rfl | inside
      · omega
      · exact sized piece inside

private def bytewise (text : Text) : List Text := text.map fun byte => [byte]

private theorem flatten_bytewise (text : Text) : (bytewise text).flatten = text := by
  induction text with
  | nil => rfl
  | cons byte rest ih => simpa [bytewise] using ih

private theorem sized_bytewise (text : Text) :
    ∀ piece ∈ bytewise text, piece ≠ [] ∧ piece.length ≤ maxClientRecvq := by
  intro piece member
  obtain ⟨byte, -, rfl⟩ := List.mem_map.mp member
  simp [maxClientRecvq]

private theorem drained_start : (Client.start 0).Drained := ⟨rfl, by simp [Client.start, Endless]⟩

private theorem counted_start : (Client.start 0).Counted 0 [] := by
  simp [Client.Counted, Client.start]

/-- A stream with a complete line of 510 bytes or more can be cut so that the line is lost. -/
private theorem exists_unfaithful (server : Server) {stream line : Text}
    (member : line ∈ lines isEol stream) (long : 510 ≤ line.length) :
    ∃ client, Reachable server client ∧ client.received = stream ∧ ¬ client.Faithful := by
  obtain ⟨before, item, rest, split, endless, stop, finished⟩ := exists_split member
  obtain ⟨pieces, joined, sized⟩ := exists_long_pieces line long
  have filled : [] ++ line ≠ [] := by
    rintro empty
    rw [List.nil_append] at empty
    simp [empty] at long
  have total : (lines isEol stream).length =
      (lines isEol before).length + 1 + (lines isEol rest).length := by
    rw [split, List.append_assoc, lines, linesFrom_append, ← pending, finished,
      linesFrom_line endless stop _ _ filled]
    simp only [lines, List.length_append, List.length_cons]
    omega
  have pieceSized : ∀ piece ∈ pieces, piece ≠ [] ∧ piece.length ≤ maxClientRecvq := fun piece inside => by
    have bounds := sized piece inside
    refine ⟨by rintro rfl; simp at bounds, bounds.2.trans (by decide)⟩
  have pieceEndless : ∀ piece ∈ pieces, Endless isEol piece ∧ 510 ≤ piece.length := fun piece inside =>
    ⟨fun byte within => endless byte (joined ▸ List.mem_flatten.mpr ⟨piece, inside, within⟩),
      (sized piece inside).1⟩
  -- everything before the line leaves the queue empty, and so does the line
  have upTo := counted_feed server counted_start (bytewise before)
  have drained := drained_feed server drained_start (bytewise before)
  have reached : Reachable server (feed server (Client.start 0) (bytewise before)) :=
    reachable_feed (.start 0) (bytewise before) (sized_bytewise before)
  have received := received_feed server (Client.start 0) (bytewise before)
  rw [flatten_bytewise, List.nil_append] at upTo
  rw [flatten_bytewise] at received
  generalize feed server (Client.start 0) (bytewise before) = first at *
  have empty : first.recvQ.bytes = [] := by
    by_contra some_
    have whole : pending isEol first.recvQ.bytes = first.recvQ.bytes := by
      rw [pending, pendingFrom_endless drained.endless, List.nil_append]
    exact upTo.2 (by rwa [whole]) finished
  have lostEmpty := feed_long server drained empty pieces pieceEndless
  have lostCount := counted_feed server upTo pieces
  have reached := reachable_feed reached pieces pieceSized
  have received := (received_feed server first pieces).trans (by rw [received, joined])
  generalize feed server first pieces = second at *
  have few : second.handed.length ≤ (lines isEol before).length := by
    have bound := lostCount.1
    rw [joined, lines, lines, linesFrom_append, linesFrom_endless endless, List.append_nil] at bound
    simp only [lines]
    omega
  -- the rest of the stream cannot make up for it
  have fresh : second.Counted second.handed.length [] := by simp [Client.Counted, lostEmpty]
  have restCount := counted_feed server fresh (bytewise (item :: rest))
  rw [flatten_bytewise, List.nil_append] at restCount
  refine ⟨feed server second (bytewise (item :: rest)),
    reachable_feed reached _ (sized_bytewise _), ?_, fun faithful => ?_⟩
  · rw [received_feed, received, flatten_bytewise, split]
    simp [Client.start]
  · have counts := congrArg List.length faithful.inOrder
    have received' : (feed server second (bytewise (item :: rest))).received = stream := by
      rw [received_feed, received, flatten_bytewise, split]
      simp [Client.start]
    rw [received'] at counts
    simp only [List.length_append, List.length_map, total] at counts
    have skipped : lines isEol (item :: rest) = lines isEol rest := by simp [lines, linesFrom, stop]
    have bound := restCount.1
    rw [skipped] at bound
    omega

/-- Every cut of a stream, with any schedule of the queue, brings its lines to
`parse` in order, whole and terminated, exactly when no complete line has 510
bytes or more. -/
theorem faithful_iff_short (server : Server) (stream : Text) :
    (∀ client, Reachable server client → client.received = stream → client.Faithful) ↔
      ∀ line ∈ lines isEol stream, line.length ≤ 509 := by
  constructor
  · intro always line member
    by_contra long
    obtain ⟨client, reached, received, broken⟩ := exists_unfaithful server member (by omega)
    exact broken (always client reached received)
  · rintro short client reached rfl
    exact (kept_of_reachable reached short).faithful

/-- A line of 511 bytes that arrives as 510 and the rest: the end of it becomes a
line of its own, and the line itself never arrives. -/
theorem suffix_handed :
    ∃ client, Reachable ⟨8192, Nat.le_refl _⟩ client ∧
      client.received = List.replicate 511 'a' ++ ['\n'] ∧
      client.handed.map (textAt · 0) = [['a']] ∧ ¬ client.Faithful := by
  let server : Server := ⟨8192, Nat.le_refl _⟩
  let first := doClientQueue server 0 (fun _ => 0) ((Client.start 0).fed 0 (List.replicate 510 'a'))
  let second := doClientQueue server 0 (fun _ => 0) (first.fed 0 ['a', '\n'])
  have handed : second.handed.map (textAt · 0) = [['a']] := by decide +kernel
  have received : second.received = List.replicate 511 'a' ++ ['\n'] := by decide +kernel
  have reached : Reachable server second := by
    have begun : Reachable server first :=
      .read 0 (List.replicate 510 'a') false false (fun _ => 0) (.start 0)
        (List.cons_ne_nil 'a' (List.replicate 509 'a'))
        (by rw [List.length_replicate]; decide) (readPacket_unregistered _ _ _)
    exact .read 0 ['a', '\n'] false false (fun _ => 0) begun (by simp) (by decide)
      (readPacket_unregistered _ _ _)
  refine ⟨second, reached, received, handed, fun faithful => ?_⟩
  have inOrder := faithful.inOrder
  rw [handed, received] at inOrder
  exact absurd (congrArg (fun texts : List Text => texts.map List.length) inOrder) (by decide +kernel)

end SolidIrcd.Recv
