import SolidIrcd.Lib.CString
import SolidIrcd.Lib.Lines
import SolidIrcd.Recv.SBuf

/-! How the bytes of a client become lines for `parse`: `read_packet`,
`do_client_queue`, `client_dopacket` and the timer that comes back to a queue. -/

namespace SolidIrcd.Recv

open Scan Lines

/-- `CLIENT_FLOOD`. -/
def clientFlood : Nat := 1560

/-- `MAX_CLIENT_RECVQ`, and the size of a person's reads. -/
def maxClientRecvq : Nat := 8192

/-- The size of `readbuf`, which the socket buffer of the system decides. -/
structure Server where
  rcvbufmax : Nat
  large : maxClientRecvq ≤ rcvbufmax

/-- A client connection. `handed` and `received` only record: the contents of
`buffer` each time `parse` was called, and every byte that was read. -/
structure Client where
  recvQ : SBuf
  nonl : Bool
  since : Nat
  buffer : Text
  handed : List Text
  received : Text

def Client.start (since : Nat) : Client :=
  { recvQ := []
    nonl := false
    since := since
    buffer := List.replicate bufSize nul
    handed := []
    received := [] }

/-- `client_dopacket`: the line goes to `buffer` up to its first NUL; `parse`
then adds to `since` what it likes. -/
def clientDopacket (penalty : Nat → Nat) (client : Client) (line : Text) : Client :=
  let buffer := strncpy client.buffer (line.takeWhile (· != nul)) bufSize
  { client with
    buffer := buffer
    handed := client.handed ++ [buffer]
    since := client.since + penalty client.handed.length }

private theorem lineWithin_endless {bytes : Text} (endless : Endless isEol bytes) (n : Nat) :
    lineWithin bytes n = none := by
  have whole : bytes.takeWhile (!isEol ·) = bytes :=
    List.takeWhile_eq_self_iff.mpr fun byte member => by simp [endless byte member]
  simp [lineWithin, whole]

theorem getmsg_endless {bytes : Text} (endless : Endless isEol bytes) (n : Nat) :
    getmsg bytes n = (none, bytes) := by
  have whole : bytes.dropWhile isEol = bytes := by
    cases bytes with
    | nil => rfl
    | cons byte rest => simp [endless byte List.mem_cons_self]
  simp only [getmsg, whole, lineWithin_endless endless]

private theorem lineWithin_line {line rest : Text} (endless : Endless isEol line)
    (stop : isEol item = true) (n : Nat) :
    lineWithin (line ++ item :: rest) n = if line.length < n then some line else none := by
  have front : (line ++ item :: rest).takeWhile (!isEol ·) = line := by
    rw [List.takeWhile_append_of_pos fun byte member => by simp [endless byte member]]
    simp [stop]
  simp [lineWithin, front]

/-- Past the leading line ends, a queue has no end of a line in it or starts with one. -/
private theorem getmsg_cases (bytes : Text) (n : Nat) :
    (Endless isEol (bytes.dropWhile isEol) ∧ getmsg bytes n = (none, bytes.dropWhile isEol)) ∨
    ∃ line stop rest, bytes.dropWhile isEol = line ++ stop :: rest ∧ line ≠ [] ∧
      Endless isEol line ∧ isEol stop = true ∧
      getmsg bytes n = if line.length < n then (some line, rest.dropWhile isEol)
        else (none, bytes.dropWhile isEol) := by
  have first := List.head?_dropWhile_not isEol bytes
  unfold getmsg
  simp only
  generalize bytes.dropWhile isEol = flushed at *
  by_cases endless : Endless isEol flushed
  · exact .inl ⟨endless, by rw [lineWithin_endless endless]⟩
  · obtain ⟨stop, rest, isStop, split⟩ := split_first endless
    have clean : Endless isEol (flushed.takeWhile (!isEol ·)) := endless_takeWhile flushed
    generalize flushed.takeWhile (!isEol ·) = line at *
    subst split
    refine .inr ⟨line, stop, rest, rfl, ?_, clean, isStop, ?_⟩
    · rintro rfl
      simp [isStop] at first
    · rw [lineWithin_line clean isStop]
      by_cases near : line.length < n <;> simp [near, isStop]

/-- What a line taken from the queue leaves there. -/
theorem getmsg_some {bytes line rest : Text} (taken : getmsg bytes n = (some line, rest)) :
    line.length < n ∧ rest.length < bytes.length ∧
      lines isEol bytes = line :: lines isEol rest ∧ pending isEol bytes = pending isEol rest := by
  have shorter := (List.dropWhile_suffix (l := bytes) isEol).length_le
  rw [← lines_dropWhile, ← pending_dropWhile]
  rcases getmsg_cases bytes n with ⟨-, none⟩ | ⟨found, stop, behind, split, filled, endless, isStop, result⟩
  · simp [none] at taken
  · rw [result] at taken
    split at taken
    · rename_i near
      cases taken
      have left := (List.dropWhile_suffix (l := behind) isEol).length_le
      rw [split] at shorter ⊢
      simp only [List.length_append, List.length_cons] at shorter
      refine ⟨near, by omega, ?_, ?_⟩
      · rw [lines, linesFrom_line endless isStop _ _ (by simpa using filled), lines_dropWhile]
        rfl
      · rw [pending, pendingFrom_line _ isStop, pending_dropWhile]
    · cases taken

theorem getmsg_none {bytes rest : Text} (nothing : getmsg bytes n = (none, rest)) :
    rest <:+ bytes ∧ lines isEol rest = lines isEol bytes ∧ pending isEol rest = pending isEol bytes ∧
      (Endless isEol rest ∨ ∃ line ∈ lines isEol rest, n ≤ line.length) := by
  have suffix := List.dropWhile_suffix (l := bytes) isEol
  rw [← lines_dropWhile bytes, ← pending_dropWhile bytes]
  rcases getmsg_cases bytes n with ⟨endless, none⟩ | ⟨found, stop, behind, split, filled, endless, isStop, result⟩
  · rw [none] at nothing
    cases nothing
    exact ⟨suffix, rfl, rfl, .inl endless⟩
  · rw [result] at nothing
    split at nothing
    · cases nothing
    · rename_i far
      cases nothing
      refine ⟨suffix, rfl, rfl, .inr ⟨found, ?_, Nat.le_of_not_lt far⟩⟩
      rw [split, lines, linesFrom_line endless isStop _ _ (by simpa using filled)]
      simp

/-- The loop of `do_client_queue` for a client that is no server. -/
def doClientQueue (server : Server) (now : Nat) (penalty : Nat → Nat) (client : Client) : Client :=
  if client.recvQ.length ≠ 0 ∧ client.nonl = false ∧ client.since < now + 10 then
    match _read : sbufGetmsg client.recvQ server.rcvbufmax with
    | (none, recvQ) =>
      if recvQ.length < 510 then { client with recvQ := recvQ, nonl := true }
      else { client with recvQ := sbufDelete recvQ recvQ.length }
    | (some line, recvQ) =>
      doClientQueue server now penalty (clientDopacket penalty { client with recvQ := recvQ } line)
  else client
termination_by client.recvQ.length
decreasing_by
  have spec := sbufGetmsg_eq client.recvQ server.rcvbufmax
  rw [_read] at spec
  exact (getmsg_some (Prod.ext spec.1.symm spec.2.symm)).2.1

/-- What a successful `recv` changes: the bytes go to the end of the queue. -/
def Client.fed (client : Client) (now : Nat) (bytes : Text) : Client :=
  { client with
    since := max client.since now
    nonl := false
    recvQ := sbufPut client.recvQ bytes
    received := client.received ++ bytes }

@[simp] theorem Client.received_fed (client : Client) (now : Nat) (bytes : Text) :
    (client.fed now bytes).received = client.received ++ bytes := rfl

@[simp] theorem Client.handed_fed (client : Client) (now : Nat) (bytes : Text) :
    (client.fed now bytes).handed = client.handed := rfl

@[simp] theorem Client.bytes_fed (client : Client) (now : Nat) (bytes : Text) :
    (client.fed now bytes).recvQ.bytes = client.recvQ.bytes ++ bytes :=
  bytes_sbufPut client.recvQ bytes

/-- `read_packet`, for a client that is no server; `none` is the exit for excess
flood. A person with too much queued is not read from. -/
def readPacket (server : Server) (now : Nat) (bytes : Text) (isPerson isAnOper : Bool)
    (penalty : Nat → Nat) (client : Client) : Option Client :=
  let client :=
    if isPerson ∧ maxClientRecvq < client.recvQ.length then client else client.fed now bytes
  if isPerson ∧ !isAnOper ∧ clientFlood < client.recvQ.length then none
  else some (doClientQueue server now penalty client)

/-- A client that is not closed had its queue processed, with the bytes or without. -/
theorem readPacket_cases {client next : Client}
    (result : readPacket server now bytes isPerson isAnOper penalty client = some next) :
    next = doClientQueue server now penalty client ∨
      next = doClientQueue server now penalty (client.fed now bytes) := by
  simp only [readPacket] at result
  by_cases full : isPerson ∧ maxClientRecvq < client.recvQ.length
  · rw [if_pos full] at result
    split at result
    · cases result
    · exact .inl (Option.some.inj result).symm
  · rw [if_neg full] at result
    split at result
    · cases result
    · exact .inr (Option.some.inj result).symm

/-- `do_recvqs` for this client. -/
def doRecvqs (server : Server) (now : Nat) (penalty : Nat → Nat) (client : Client) : Client :=
  if client.recvQ.length ≠ 0 ∧ client.nonl = false then doClientQueue server now penalty client
  else client

/-- The states of a client that has not been closed: reads of any size that the
buffer of the read allows, and turns of the timer, in any order. -/
inductive Reachable (server : Server) : Client → Prop where
  | start (since : Nat) : Reachable server (Client.start since)
  | read (now : Nat) (bytes : Text) (isPerson isAnOper : Bool) (penalty : Nat → Nat)
      {client next : Client} : Reachable server client → bytes ≠ [] →
      bytes.length ≤ (if isPerson then maxClientRecvq else server.rcvbufmax) →
      readPacket server now bytes isPerson isAnOper penalty client = some next →
      Reachable server next
  | tick (now : Nat) (penalty : Nat → Nat) {client : Client} : Reachable server client →
      Reachable server (doRecvqs server now penalty client)

end SolidIrcd.Recv
