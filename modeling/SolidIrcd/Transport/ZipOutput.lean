import SolidIrcd.Lib.Machine
import SolidIrcd.Transport.SendMessage

/-! `zip_output` over the calls of a link: what it holds back for the compressor, and when. -/

namespace SolidIrcd.Transport.Zlink

variable {D : Type} (deflate : D → Bytes → Option (D × Bytes))

structure Call where
  buffer : Option Bytes
  forceflush : Bool
  largedata : Int

/-- The output of a link, with all messages, all that the compressor took, and whether the link is dead. -/
structure Link (D : Type) where
  z : ZippedLinkOut D
  messages : Bytes
  taken : Bytes
  dead : Bool

def Call.total (link : Link D) (call : Call) : Bytes := link.z.buf ++ call.buffer.getD []

def Link.perform (link : Link D) (call : Call) : Link D :=
  let messages := link.messages ++ call.buffer.getD []
  match zipOutput deflate link.z call.buffer call.forceflush (some call.largedata) with
  | (z, .held) => { link with z := z, messages := messages }
  | (z, .block _) => { link with z := z, messages := messages, taken := link.taken ++ call.total link }
  | (z, .error) => { link with z := z, messages := messages, dead := true }

/-- A dead link is given nothing. -/
def Link.possible (link : Link D) (call : Call) : Prop :=
  link.dead = false ∧ (call.buffer.getD []).length ≤ 512

def calls : Machine (Link D) Call := ⟨Link.perform deflate, Link.possible⟩

def Link.start (stream : D) : Link D := ⟨⟨stream, []⟩, [], [], false⟩

/-- The pending buffer holds, in order, what the compressor has not taken; while the link lives there is room for a
message. -/
structure Link.Good (link : Link D) : Prop where
  order : link.taken ++ link.z.buf = link.messages
  capacity : link.z.buf.length ≤ zipMaxBlock
  room : link.dead = false → link.z.buf.length < zipMaxBlock - 512

section

variable {deflate}

/-- A call holds all back, hands all over, or ends the link. -/
theorem perform_cases (deflate : D → Bytes → Option (D × Bytes)) (link : Link D) (call : Call) :
    (call.forceflush = false ∧ (call.total link).length < zipMaxBlock - 512 ∧ link.perform deflate call =
        ⟨⟨link.z.stream, call.total link⟩, link.messages ++ call.buffer.getD [], link.taken, link.dead⟩) ∨
      ((call.forceflush = true ∨ (call.total link).length < zipMinBlock ∨ zipMaxBlock - 512 ≤ (call.total link).length) ∧
        ∃ stream, link.perform deflate call =
          ⟨⟨stream, []⟩, link.messages ++ call.buffer.getD [], link.taken ++ call.total link, link.dead⟩) ∨
      link.perform deflate call =
        ⟨⟨link.z.stream, call.total link⟩, link.messages ++ call.buffer.getD [], link.taken, true⟩ := by
  have thresholds : zipMinBlock ≤ zipMaxBlock - 512 := by decide
  unfold Link.perform zipOutput
  by_cases waits : (!call.forceflush && ((call.total link).length < zipMinBlock ||
      (some call.largedata).isSome && (call.total link).length < zipMaxBlock - 512)) = true
  · rw [Call.total] at waits
    simp only [if_pos waits]
    simp only [Option.isSome_some, Bool.true_and, Bool.and_eq_true, Bool.not_eq_true', Bool.or_eq_true,
      decide_eq_true_eq] at waits
    exact .inl ⟨waits.1, by rw [Call.total]; omega, rfl⟩
  · rw [Call.total] at waits
    simp only [if_neg waits]
    right
    cases deflated : deflate link.z.stream (link.z.buf ++ call.buffer.getD []) with
    | none => exact .inr rfl
    | some result =>
      refine .inl ⟨?_, result.1, rfl⟩
      simp only [Option.isSome_some, Bool.true_and, Bool.and_eq_true, Bool.not_eq_true', Bool.or_eq_true,
        decide_eq_true_eq, not_and, not_or, Nat.not_lt] at waits
      cases forced : call.forceflush with
      | true => exact .inl rfl
      | false => exact .inr (.inr (waits forced).2)

theorem perform_good (good : before.Good) (call : Call) (possible : before.possible call) :
    (Link.perform deflate before call).Good := by
  obtain ⟨alive, short⟩ := possible
  have room := good.room alive
  have order : before.taken ++ call.total before = before.messages ++ call.buffer.getD [] := by
    rw [Call.total, ← List.append_assoc, good.order]
  have capacity : (call.total before).length ≤ zipMaxBlock := by
    rw [Call.total, List.length_append]
    have : zipMaxBlock = 8192 := rfl
    omega
  rcases perform_cases deflate before call with ⟨_, few, held⟩ | ⟨_, stream, block⟩ | error
  · rw [held]
    exact ⟨order, capacity, fun _ => few⟩
  · rw [block]
    exact ⟨by rw [List.append_nil]; exact order, Nat.zero_le _, fun _ => (by decide : 0 < zipMaxBlock - 512)⟩
  · rw [error]
    exact ⟨order, capacity, fun dead => nomatch dead⟩

theorem run_good (run : (calls deflate).Run Machine.Any (Link.start stream) final) : final.Good :=
  run.invariant Link.Good (fun _ call possible _ good => perform_good good call possible)
    ⟨rfl, Nat.zero_le _, fun _ => (by decide : 0 < zipMaxBlock - 512)⟩

/-- Nothing is lost, and the buffer never overflows; but outside bursts a call that the compressor does not refuse
leaves less than a block only if it is forced, or there is less than a block, or almost a full buffer. -/
theorem zip_output_flushes (run : (calls deflate).Run Machine.Any (Link.start stream) final) :
    final.taken ++ final.z.buf = final.messages ∧ final.z.buf.length ≤ zipMaxBlock ∧
      ∀ call, final.possible call → (final.perform deflate call).dead = false →
        ((call.largedata = 0 → (final.perform deflate call).z.buf.length < zipMinBlock) ↔
          (call.largedata = 0 → call.forceflush = true ∨ (call.total final).length < zipMinBlock ∨
            zipMaxBlock - 512 ≤ (call.total final).length)) := by
  have good := run_good run
  refine ⟨good.order, good.capacity, fun call possible alive => imp_congr_right fun _ => ?_⟩
  rcases perform_cases deflate final call with ⟨unforced, few, held⟩ | ⟨leaves, stream, block⟩ | error
  · rw [held]
    constructor
    · exact fun less => .inr (.inl less)
    · rintro (forced | less | much)
      · exact absurd forced (by rw [unforced]; decide)
      · exact less
      · exact absurd few (Nat.not_lt.mpr much)
  · rw [block]
    exact ⟨fun _ => leaves, fun _ => (by decide : 0 < zipMinBlock)⟩
  · rw [error] at alive
    cases alive

end

private def message (line : Bytes) : Call := ⟨some line, false, 0⟩

private def stored : Unit → Bytes → Option (Unit × Bytes) := fun _ block => some ((), block)

private def line : Bytes := List.replicate 512 65

private theorem length_line : line.length = 512 := List.length_replicate

private theorem message_possible (line : Bytes) (short : line.length ≤ 512) (link : Link Unit)
    (alive : link.dead = false) : link.possible (message line) :=
  ⟨alive, short⟩

private theorem run_message (line : Bytes) (short : line.length ≤ 512) :
    (calls stored).Run Machine.Any (Link.start ()) (Link.perform stored (Link.start ()) (message line)) :=
  .tail (.refl _) (message_possible line short _ rfl) trivial

private theorem message_waits (line : Bytes) (link : Link Unit) (few : link.z.buf.length + line.length < zipMaxBlock - 512) :
    link.perform stored (message line) =
      ⟨⟨(), link.z.buf ++ line⟩, link.messages ++ line, link.taken, link.dead⟩ := by
  simp [Link.perform, zipOutput, message, few]

/-- Two messages outside a burst are a block, and wait. -/
theorem zip_output_waits :
    ¬ ∀ (D : Type) (deflate : D → Bytes → Option (D × Bytes)) (stream : D) (final : Link D),
      (calls deflate).Run Machine.Any (Link.start stream) final → ∀ call, final.possible call →
        (final.perform deflate call).dead = false → call.largedata = 0 →
          (final.perform deflate call).z.buf.length < zipMinBlock := by
  intro claim
  have first : Link.perform stored (Link.start ()) (message line) = ⟨⟨(), line⟩, line, [], false⟩ :=
    message_waits line (Link.start ()) (by rw [length_line]; decide)
  have second : Link.perform stored ⟨⟨(), line⟩, line, [], false⟩ (message line) =
      ⟨⟨(), line ++ line⟩, line ++ line, [], false⟩ := message_waits line _ (by rw [length_line]; decide)
  have few := claim Unit stored () _ (run_message line (Nat.le_of_eq length_line)) (message line)
  rw [first] at few
  have less := few (message_possible line (Nat.le_of_eq length_line) _ rfl) (congrArg Link.dead second) rfl
  rw [second] at less
  have total : (line ++ line).length = 1024 := by rw [List.length_append, length_line]
  exact absurd (total ▸ less) (by decide)

theorem zip_output_flushes_first :
    let first := (Link.start ()).perform stored (message [80, 73, 78, 71, 10])
    first.taken ++ first.z.buf = first.messages ∧ first.z.buf.length ≤ zipMaxBlock ∧
      ∀ call, first.possible call → (first.perform stored call).dead = false →
        ((call.largedata = 0 → (first.perform stored call).z.buf.length < zipMinBlock) ↔
          (call.largedata = 0 → call.forceflush = true ∨ (call.total first).length < zipMinBlock ∨
            zipMaxBlock - 512 ≤ (call.total first).length)) :=
  zip_output_flushes (run_message [80, 73, 78, 71, 10] (by decide))

end SolidIrcd.Transport.Zlink
