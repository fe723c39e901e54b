import SolidIrcd.Common
import SolidIrcd.Lib.Decimal
import SolidIrcd.Lib.Link
import SolidIrcd.Lib.Machine

/-! The topic of a channel on two linked servers: `m_topic` of their own users, and of the
messages between them. -/

namespace SolidIrcd.Topics

open Scan (Text)
open Link (Wire drain)
open Decimal (atoi print)

/-- TOPICLEN. -/
def topicLen : Nat := 307

/-- `topic`, `topic_nick` and `topic_time`. -/
structure Topic where
  text : Text
  nick : Text
  time : Int
  deriving DecidableEq, Repr

/-- A server; `uline` says that the users of the other one are U-lined here. -/
structure Side where
  uline : Bool
  topic : Topic
  deriving DecidableEq, Repr

/-- The parameters of a TOPIC message: the nickname, the time as it is printed, the text. -/
structure Message where
  tnick : Text
  ts : Text
  topic : Text
  deriving DecidableEq, Repr

/-- `m_topic` does not ignore the topic of another server. -/
def Side.takes (side : Side) (ts : Int) : Bool :=
  side.uline || side.topic.text.isEmpty || decide (side.topic.time < ts)

/-- `m_topic` of a user of the other server. -/
def Side.receive (side : Side) (message : Message) : Side × List Message :=
  let ts := atoi message.ts
  if side.takes ts then
    ({ side with topic := ⟨message.topic.take topicLen, message.tnick, ts⟩ }, [])
  else (side, [])

/-- `m_topic` of a user of this server who may set the topic. -/
def Side.set (side : Side) (nick text : Text) (timeofday : Nat) : Side :=
  { side with topic := ⟨text.take topicLen, nick, timeofday⟩ }

/-- What `m_topic` then sends to the other server. -/
def Side.relay (side : Side) : Message := ⟨side.topic.nick, print side.topic.time, side.topic.text⟩

inductive Action where
  | setLeft (nick text : Text) (timeofday : Nat)
  | setRight (nick text : Text) (timeofday : Nat)
  | deliverLeft
  | deliverRight
  deriving DecidableEq, Repr

abbrev Net := Wire Side Message

def Net.perform (net : Net) : Action → Net
  | .setLeft nick text timeofday =>
    { net with
      left := net.left.set nick text timeofday
      toRight := net.toRight ++ [(net.left.set nick text timeofday).relay] }
  | .setRight nick text timeofday =>
    { net with
      right := net.right.set nick text timeofday
      toLeft := net.toLeft ++ [(net.right.set nick text timeofday).relay] }
  | .deliverLeft =>
    match net.toLeft with
    | [] => net
    | message :: rest => { net with left := (net.left.receive message).1, toLeft := rest }
  | .deliverRight =>
    match net.toRight with
    | [] => net
    | message :: rest => { net with right := (net.right.receive message).1, toRight := rest }

def machine : Machine Net Action := ⟨Net.perform, Machine.Any⟩

/-- A topic may be set at `own`, with `inbox` on its way there, when `other` is what the other
server will be then. If that takes the topic, nothing in the inbox displaces it; if not, the
inbox displaces it, and would have displaced the old one. -/
def Side.Fits (own : Side) (inbox : List Message) (other : Side) (nick text : Text) (timeofday : Nat) : Prop :=
  (timeofday : Int) ≤ Decimal.intMax ∧
    if other.takes timeofday then ∀ message ∈ inbox, (own.set nick text timeofday).takes (atoi message.ts) = false
    else (∃ message ∈ inbox, own.takes (atoi message.ts) = true) ∧
      ∃ message ∈ inbox, (own.set nick text timeofday).takes (atoi message.ts) = true

def Net.Fits (net : Net) : Action → Prop
  | .setLeft nick text timeofday =>
    net.left.Fits net.toLeft (drain Side.receive net.right net.toRight) nick text timeofday
  | .setRight nick text timeofday =>
    net.right.Fits net.toRight (drain Side.receive net.left net.toLeft) nick text timeofday
  | _ => True

/-- When everything is delivered, both servers hold the same topic. -/
def Net.Agree (net : Net) : Prop :=
  (drain Side.receive net.left net.toLeft).topic = (drain Side.receive net.right net.toRight).topic

variable {side own other : Side}

theorem drain_cons (side : Side) (message : Message) (inbox : List Message) :
    drain Side.receive side (message :: inbox) = drain Side.receive (side.receive message).1 inbox := rfl

theorem drain_append (side : Side) (inbox : List Message) (message : Message) :
    drain Side.receive side (inbox ++ [message]) = ((drain Side.receive side inbox).receive message).1 := by
  simp [drain]

theorem receive_taken (taken : side.takes (atoi message.ts) = true) : (side.receive message).1 =
    { side with topic := ⟨message.topic.take topicLen, message.tnick, atoi message.ts⟩ } := by
  simp [Side.receive, taken]

theorem receive_ignored (ignored : side.takes (atoi message.ts) = false) : (side.receive message).1 = side := by
  simp [Side.receive, ignored]

@[simp] theorem uline_receive : (side.receive message).1.uline = side.uline := by
  unfold Side.receive
  dsimp only
  split <;> rfl

theorem drain_ignored (ignored : ∀ message ∈ inbox, side.takes (atoi message.ts) = false) :
    drain Side.receive side inbox = side := by
  induction inbox with
  | nil => rfl
  | cons message inbox ih =>
    rw [drain_cons, receive_ignored (ignored message List.mem_cons_self)]
    exact ih fun other member => ignored other (List.mem_cons_of_mem _ member)

/-- Who takes a topic after one that a second server ignored, takes it where the second does. -/
theorem takes_of_ignored (taken : side.takes (atoi message.ts) = true) (ignored : other.takes (atoi message.ts) = false)
    (later : other.takes ts = true) : (side.receive message).1.takes ts = true := by
  rw [receive_taken taken]
  simp only [Side.takes, Bool.or_eq_false_iff, decide_eq_false_iff_not, Int.not_lt, Bool.or_eq_true,
    decide_eq_true_eq] at ignored later ⊢
  right
  rcases later with (trusted | empty) | newer
  · simp [trusted] at ignored
  · simp [empty] at ignored
  · omega

/-- Two servers that both take something of one inbox end with the same topic. -/
theorem drain_coincide (same : side.uline = other.uline)
    (first : ∃ message ∈ inbox, side.takes (atoi message.ts) = true)
    (second : ∃ message ∈ inbox, other.takes (atoi message.ts) = true) :
    drain Side.receive side inbox = drain Side.receive other inbox := by
  induction inbox generalizing side other with
  | nil => simp at first
  | cons message inbox ih =>
    simp only [List.mem_cons, exists_eq_or_imp] at first second
    rw [drain_cons, drain_cons]
    cases taken : side.takes (atoi message.ts) with
    | true =>
      cases taken' : other.takes (atoi message.ts) with
      | true => rw [receive_taken taken, receive_taken taken', same]
      | false =>
        obtain ⟨later, member, takes⟩ := second.resolve_left (by simp [taken'])
        rw [receive_ignored taken']
        exact ih (by simpa using same) ⟨later, member, takes_of_ignored taken taken' takes⟩ ⟨later, member, takes⟩
    | false =>
      cases taken' : other.takes (atoi message.ts) with
      | true =>
        obtain ⟨later, member, takes⟩ := first.resolve_left (by simp [taken])
        rw [receive_ignored taken]
        exact ih (by simpa using same) ⟨later, member, takes⟩ ⟨later, member, takes_of_ignored taken' taken takes⟩
      | false =>
        rw [receive_ignored taken, receive_ignored taken']
        exact ih same (first.resolve_left (by simp [taken])) (second.resolve_left (by simp [taken']))

/-- A topic that fits leaves the two servers with one topic. -/
theorem set_agrees (agree : (drain Side.receive own inbox).topic = other.topic)
    (fits : own.Fits inbox other nick text timeofday) :
    (drain Side.receive (own.set nick text timeofday) inbox).topic =
      (other.receive (own.set nick text timeofday).relay).1.topic := by
  obtain ⟨int, crossing⟩ := fits
  have sent : atoi (own.set nick text timeofday).relay.ts = timeofday := by
    show atoi (print timeofday) = timeofday
    exact Decimal.atoi_print (Int.natCast_nonneg timeofday) int
  have uline : (own.set nick text timeofday).uline = own.uline := rfl
  split at crossing
  next taken =>
    rw [← sent] at taken
    rw [drain_ignored crossing, receive_taken taken, sent]
    simp [Side.set, Side.relay, List.take_take]
  next ignored =>
    obtain ⟨before, after⟩ := crossing
    rw [← sent, Bool.not_eq_true] at ignored
    rw [receive_ignored ignored, drain_coincide uline after before]
    exact agree

variable {net : Net}

theorem Agree.perform (agree : net.Agree) (fits : net.Fits action) : (net.perform action).Agree := by
  obtain ⟨left, right, toLeft, toRight⟩ := net
  cases action with
  | setLeft nick text timeofday =>
    simp only [Net.Agree, Net.perform, drain_append]
    exact set_agrees agree fits
  | setRight nick text timeofday =>
    simp only [Net.Agree, Net.perform, drain_append]
    exact (set_agrees agree.symm fits).symm
  | deliverLeft =>
    cases toLeft with
    | nil => exact agree
    | cons message rest => exact agree
  | deliverRight =>
    cases toRight with
    | nil => exact agree
    | cons message rest => exact agree

/-- Two servers with one topic and nothing on its way. -/
def joined (topic : Topic) (left right : Bool) : Net := ⟨⟨left, topic⟩, ⟨right, topic⟩, [], []⟩

theorem topics_converge (run : machine.Run Net.Fits (joined topic left right) final) :
    final.Agree ∧ (final.Quiet → final.left.topic = final.right.topic) := by
  have agree : final.Agree :=
    run.invariant Net.Agree (fun _ _ _ fits agree => Agree.perform agree fits) rfl
  refine ⟨agree, fun quiet => ?_⟩
  unfold Net.Agree at agree
  rwa [quiet.1, quiet.2] at agree

def noTopic : Topic := ⟨[], [], 0⟩

/-- A topic is set at each end before either has heard of the other's. -/
def crossing (timeofday : Nat) : Net :=
  machine.perform (machine.perform (joined noTopic false false) (.setLeft "ann".toList "a".toList 100))
    (.setRight "bob".toList "b".toList timeofday)

def delivered (timeofday : Nat) : Net := machine.perform (machine.perform (crossing timeofday) .deliverLeft) .deliverRight

theorem laterTopic_converges : (delivered 101).left.topic = ⟨"b".toList, "bob".toList, 101⟩ ∧
    (delivered 101).right.topic = ⟨"b".toList, "bob".toList, 101⟩ ∧ (delivered 101).Agree := by
  have first : machine.Run Net.Fits (joined noTopic false false)
      (machine.perform (joined noTopic false false) (.setLeft "ann".toList "a".toList 100)) :=
    .tail (.refl _) trivial ⟨by decide, by decide⟩
  have second : machine.Run Net.Fits (joined noTopic false false) (crossing 101) :=
    .tail first trivial ⟨by decide, by decide +kernel⟩
  have third : machine.Run Net.Fits (joined noTopic false false) (machine.perform (crossing 101) .deliverLeft) :=
    .tail second trivial trivial
  have final : machine.Run Net.Fits (joined noTopic false false) (delivered 101) := .tail third trivial trivial
  exact ⟨by decide +kernel, by decide +kernel, (topics_converge final).1⟩

/-- Two topics of one second: each server keeps its own. -/
theorem sameSecond_diverges : ∃ final, machine.Run Machine.Any (joined noTopic false false) final ∧ final.Quiet ∧
    final.left.topic = ⟨"a".toList, "ann".toList, 100⟩ ∧ final.right.topic = ⟨"b".toList, "bob".toList, 100⟩ := by
  have first : machine.Run Machine.Any (joined noTopic false false)
      (machine.perform (joined noTopic false false) (.setLeft "ann".toList "a".toList 100)) :=
    .tail (.refl _) trivial trivial
  have second : machine.Run Machine.Any (joined noTopic false false) (crossing 100) := .tail first trivial trivial
  have third : machine.Run Machine.Any (joined noTopic false false) (machine.perform (crossing 100) .deliverLeft) :=
    .tail second trivial trivial
  have final : machine.Run Machine.Any (joined noTopic false false) (delivered 100) := .tail third trivial trivial
  refine ⟨_, final, ⟨?_, ?_⟩, ?_, ?_⟩ <;> decide +kernel

end SolidIrcd.Topics
