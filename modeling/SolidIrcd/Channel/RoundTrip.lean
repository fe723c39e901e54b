import SolidIrcd.Channel.Absorb
import Mathlib.Data.Finset.Max
import Mathlib.Data.List.Nodup
import Mathlib.Data.List.Pairwise

/-! The burst of a channel to a server that does not have it: what arrives is the
channel itself, as long as the encoding can carry it. -/

namespace SolidIrcd.Channel

open Scan (Text)

/-! Masks. -/

/-- A mask of a server goes in front of a list that does not have it. -/
def insertMask (masks : List Text) (mask : Text) : List Text :=
  if masks.any (mycmp · mask) then masks else mask :: masks

theorem masks_addEntry (chptr : Chan) (changed list : MaskList) (mask : Text) :
    (addEntry chptr (changed, mask)).masks list =
      if list = changed then insertMask (chptr.masks list) (Mask.canonical mask) else chptr.masks list := by
  simp only [addEntry, addId, refusal_server, insertMask]
  by_cases same : list = changed
  · subst same
    cases (chptr.masks list).any (mycmp · (Mask.canonical mask)) <;> simp
  · cases (chptr.masks changed).any (mycmp · (Mask.canonical mask)) <;> simp [same, masks_setMasks_ne same]

theorem masks_foldl_addEntry (chptr : Chan) (changed list : MaskList) (masks : List Text) :
    ((masks.map (changed, ·)).foldl addEntry chptr).masks list =
      if list = changed then (masks.map Mask.canonical).foldl insertMask (chptr.masks list)
      else chptr.masks list := by
  induction masks generalizing chptr with
  | nil => simp
  | cons mask masks ih =>
    rw [List.map_cons, List.foldl_cons, ih, masks_addEntry]
    by_cases same : list = changed
    · simp [same]
    · simp [same]

/-- The masks a burst adds to a list. -/
theorem masks_entries (chptr theirs : Chan) (list : MaskList) :
    (theirs.entries.foldl addEntry chptr).masks list =
      ((theirs.masks list).map Mask.canonical).foldl insertMask (chptr.masks list) := by
  simp only [Chan.entries, List.foldl_append, masks_foldl_addEntry]
  cases list <;> simp [Chan.masks]

theorem mem_insertMask (member : x ∈ insertMask masks mask) : x ∈ masks ∨ x = mask := by
  unfold insertMask at member
  split at member
  · exact .inl member
  · exact (List.mem_cons.mp member).symm

theorem mem_foldl_insertMask {new masks : List Text} (member : x ∈ new.foldl insertMask masks) : x ∈ masks ∨ x ∈ new := by
  induction new generalizing masks with
  | nil => exact .inl member
  | cons mask new ih =>
    obtain before | after := ih member
    · obtain old | rfl := mem_insertMask before
      · exact .inl old
      · exact .inr (List.mem_cons_self ..)
    · exact .inr (List.mem_cons_of_mem _ after)

theorem subset_foldl_insertMask (member : x ∈ masks) (new : List Text) : x ∈ new.foldl insertMask masks := by
  induction new generalizing masks with
  | nil => exact member
  | cons mask new ih =>
    apply ih
    unfold insertMask
    split
    · exact member
    · exact List.mem_cons_of_mem _ member

/-- A mask that nothing else is taken for gets into the list. -/
theorem mem_foldl_insertMask_of_mem {new masks : List Text} (member : x ∈ new)
    (alone : ∀ other, other ∈ masks ∨ other ∈ new → mycmp other x = true → other = x) :
    x ∈ new.foldl insertMask masks := by
  induction new generalizing masks with
  | nil => exact absurd member (by simp)
  | cons mask new ih =>
    rw [List.foldl_cons]
    obtain rfl | later := List.mem_cons.mp member
    · apply subset_foldl_insertMask
      unfold insertMask
      split
      next present =>
        obtain ⟨other, inside, equal⟩ := List.any_eq_true.mp present
        exact alone other (.inl inside) equal ▸ inside
      next => exact List.mem_cons_self ..
    · apply ih later
      intro other place
      apply alone
      obtain before | after := place
      · obtain old | rfl := mem_insertMask before
        · exact .inl old
        · exact .inr (List.mem_cons_self ..)
      · exact .inr (List.mem_cons_of_mem _ after)

/-! The channel at the other end. -/

/-- What the servers of a network have to agree on about a member. -/
def Member.status (l : Member) : Text × Bool × Bool × Bool := (l.name, l.chanop, l.halfop, l.voice)

/-- Two servers hold the same channel. -/
structure Chan.Same (mine yours : Chan) : Prop where
  channelts : mine.channelts = yours.channelts
  mode : mine.mode = yours.mode
  members : (mine.members.map Member.status).Perm (yours.members.map Member.status)
  masks : ∀ list mask, mask ∈ mine.masks list ↔ mask ∈ yours.masks list

/-- A member's three signs are too many. -/
def Member.Plain (l : Member) : Prop := ¬ (l.chanop = true ∧ l.halfop = true ∧ l.voice = true)

/-- A mask that `collapse` is done with. -/
def Stable (mask : Text) : Prop := Mask.collapse mask = mask

theorem sent_status_iff (l : Member) : l.sent.status = l.status ↔ l.Plain := by
  obtain ⟨name, chanop, halfop, voice, deopped⟩ := l
  cases chanop <;> cases halfop <;> cases voice <;> simp [Member.sent, Member.status, Member.Plain]

theorem mode_clear_valid (build : Build) : Mode.clear.Valid build := by
  constructor <;> simp [Mode.clear, Decimal.intMax, keyLen]

theorem clear_mergeModes (valid : Mode.Valid build mode) : mergeModes .clear mode = mode := by
  have low : ¬ 0 > mode.limit := Int.not_lt.mpr valid.limitLow
  cases mode
  simp only [mergeModes, Mode.clear, mergeKey, low, ne_eq, not_true_eq_false, false_and, Bool.or_false,
    Bool.false_and, Bool.false_eq_true, if_false]

/-- The channel a server builds from nothing, before the masks come. -/
def Chan.opened (build : Build) (theirs : Chan) (timeofday : Int) : Chan :=
  { Chan.create theirs.chname timeofday with
    channelts := theirs.channelts
    mode := theirs.mode.sent build
    members := ((burstOrder theirs.members).map Member.sent).reverse }

theorem absorb_create (valid : Chan.Valid build theirs) (timeofday : Int) :
    (Chan.create theirs.chname timeofday).absorb build theirs true =
      theirs.entries.foldl addEntry (theirs.opened build timeofday) := by
  have joined : (Chan.create theirs.chname timeofday).joined build theirs true = theirs.opened build timeofday := by
    simp [Chan.joined, Chan.merge, tsOrder, mergeTs, keepsNew, Chan.addMembers, Chan.create, Chan.opened,
      clear_mergeModes (sent_valid valid.mode), Member.arrives]
  have level : ¬ (theirs.channelts ≠ 0 ∧ theirs.channelts > (theirs.opened build timeofday).channelts) := by
    simp [Chan.opened]
  simp only [Chan.absorb, joined, if_neg level]

/-- The members arrive as they are when none has three signs. -/
theorem members_same_iff (valid : Chan.Valid build theirs) :
    ((((burstOrder theirs.members).map Member.sent).reverse.map Member.status).Perm
        (theirs.members.map Member.status)) ↔ ∀ l ∈ theirs.members, l.Plain := by
  have order : (((burstOrder theirs.members).map Member.sent).reverse.map Member.status).Perm
      (theirs.members.map fun l => l.sent.status) := by
    rw [List.map_reverse, List.map_map]
    exact (List.reverse_perm _).trans ((burstOrder_perm theirs.members).map _)
  constructor
  · intro same l member
    have there : l.status ∈ theirs.members.map fun l => l.sent.status :=
      (order.symm.trans same).mem_iff.mpr (List.mem_map.mpr ⟨l, member, rfl⟩)
    obtain ⟨other, inside, equal⟩ := List.mem_map.mp there
    have name : other.name = l.name := congrArg Prod.fst equal
    have one : other = l := List.inj_on_of_nodup_map valid.distinct inside member name
    subst one
    exact (sent_status_iff other).mp equal
  · intro plain
    have statuses : (theirs.members.map fun l => l.sent.status) = theirs.members.map Member.status :=
      List.map_congr_left fun l member => (sent_status_iff l).mpr (plain l member)
    rwa [statuses] at order

theorem canonical_stored (stored : Stored mask) : Mask.canonical mask = Mask.collapse mask := by
  rw [Mask.canonical, stored.pretty]

theorem eq_of_mycmp {masks : List Text} (apart : masks.Pairwise fun first second => mycmp first second = false)
    (first : x ∈ masks) (second : y ∈ masks) (equal : mycmp x y = true) : x = y := by
  have symmetric : Std.Symm fun first second => mycmp first second = false :=
    ⟨fun first second other => mycmp_comm first second ▸ other⟩
  by_contra different
  exact absurd (apart.forall first second different) (by simp [equal])

/-- The longest of the masks that change cannot come out of any other. -/
theorem exists_lost {masks : List Text} (moves : ∃ mask ∈ masks, ¬ Stable mask) :
    ∃ lost ∈ masks, ∀ mask ∈ masks, Mask.collapse mask ≠ lost := by
  obtain ⟨first, firstIn, firstMoves⟩ := moves
  have some : (masks.toFinset.filter fun mask => Mask.collapse mask ≠ mask).Nonempty :=
    ⟨first, by simpa [firstIn, Stable] using firstMoves⟩
  obtain ⟨lost, lostIn, longest⟩ := Finset.exists_max_image _ List.length some
  simp only [Finset.mem_filter, List.mem_toFinset] at lostIn longest
  refine ⟨lost, lostIn.1, ?_⟩
  intro mask inside became
  obtain stays | shorter := Mask.collapse_eq_or_shorter mask
  · have same : mask = lost := stays.symm.trans became
    exact lostIn.2 (same ▸ stays)
  · have moved : Mask.collapse mask ≠ mask := fun same => absurd shorter (by simp [same])
    have bound := longest mask ⟨inside, moved⟩
    rw [← became] at bound
    omega

/-- The masks arrive as they are when `collapse` is done with them. -/
theorem masks_same_iff {masks : List Text} (stored : ∀ mask ∈ masks, Stored mask)
    (apart : masks.Pairwise fun first second => mycmp first second = false) :
    (∀ mask, mask ∈ (masks.map Mask.canonical).foldl insertMask [] ↔ mask ∈ masks) ↔
      ∀ mask ∈ masks, Stable mask := by
  constructor
  · intro same
    by_contra unstable
    simp only [not_forall] at unstable
    obtain ⟨first, firstIn, moves⟩ := unstable
    obtain ⟨lost, lostIn, never⟩ := exists_lost ⟨first, firstIn, moves⟩
    obtain nothing | arrived := mem_foldl_insertMask ((same lost).mpr lostIn)
    · exact absurd nothing (by simp)
    · obtain ⟨mask, inside, became⟩ := List.mem_map.mp arrived
      rw [canonical_stored (stored mask inside)] at became
      exact never mask inside became
  · intro stable mask
    have fixed : masks.map Mask.canonical = masks.map id :=
      List.map_congr_left fun mask member => (canonical_stored (stored mask member)).trans (stable mask member)
    rw [fixed, List.map_id]
    constructor
    · intro member
      exact (mem_foldl_insertMask member).resolve_left (by simp)
    · intro member
      apply mem_foldl_insertMask_of_mem member
      intro other place equal
      exact eq_of_mycmp apart (place.resolve_left (by simp)) member equal

/-- A server that does not have a channel builds the same channel from its burst
exactly when the burst can carry it: no `+L` in a build that leaves it out, nobody
with all three of op, half-op and voice, and no mask that `collapse` has more
to do with. -/
theorem roundTrip_iff (node : Node) (names : LineNames node.peer.name chptr.chname)
    (valid : chptr.Valid node.build) (some : chptr.members ≠ []) (known : node.world.Knows chptr.members) :
    (∃ received, (sendChannelModes node.build node.peer.name chptr).foldl node.receive none = Option.some received ∧
        received.Same chptr) ↔
      (chptr.mode.flags .listed = true → node.build.chanmodeL = true) ∧ (∀ l ∈ chptr.members, l.Plain) ∧
        ∀ list, ∀ mask ∈ chptr.masks list, Stable mask := by
  have arriving : Arriving node.world (node.getChannel none chptr.chname) chptr.members :=
    ⟨valid.nicks, known, valid.distinct, by simp [Node.getChannel, Chan.create]⟩
  have burst := receive_burst node names valid some none (mode_clear_valid node.build) valid.short arriving
  rw [Option.isNone_none, Node.getChannel, Option.getD_none, absorb_create valid] at burst
  obtain ⟨-, channelts, mode, members⟩ :=
    foldl_addEntry_frame (chptr.opened node.build node.timeofday) chptr.entries
  have masks (list : MaskList) : (chptr.entries.foldl addEntry (chptr.opened node.build node.timeofday)).masks list =
      ((chptr.masks list).map Mask.canonical).foldl insertMask [] := by
    rw [masks_entries]
    cases list <;> rfl
  rw [← sent_eq_iff valid.mode, ← members_same_iff valid]
  constructor
  · rintro ⟨received, arrived, same⟩
    rw [burst, Option.some.injEq] at arrived
    subst arrived
    refine ⟨mode.symm.trans same.mode, ?_, fun list => ?_⟩
    · have perm := same.members
      rwa [members] at perm
    · apply (masks_same_iff (valid.stored list) (valid.apart list)).mp
      intro mask
      rw [← masks]
      exact same.masks list mask
  · rintro ⟨modes, statuses, stable⟩
    refine ⟨_, burst, channelts, mode.trans modes, ?_, fun list => ?_⟩
    · rw [members]
      exact statuses
    · rw [masks]
      exact (masks_same_iff (valid.stored list) (valid.apart list)).mpr (stable list)

/-- A server whose peer is `a.net`, with two clients behind the link. -/
def farNode : Node where
  build := ⟨false, true, false⟩
  world := ⟨[⟨"ann".toList, true⟩, ⟨"bob".toList, true⟩], fun _ => none⟩
  timeofday := 500
  peer := ⟨"a.net".toList, false⟩

def threeSigns : Chan :=
  { Chan.create "#c".toList 100 with members := [⟨"ann".toList, true, true, true, false⟩] }

def lockedChan : Chan where
  chname := "#c".toList
  channelts := 100
  mode := { Mode.clear.set .inviteOnly true with limit := 7, key := "sesame".toList }
  members := [⟨"ann".toList, false, false, true, false⟩, ⟨"bob".toList, true, true, false, false⟩]
  banlist := ["*!*@x".toList]
  banexemptList := []
  inviteList := []
  invites := []

theorem word_small {text : Text} (solid : text ≠ [] ∧ ' ' ∉ text ∧ text.head? ≠ some ':') : Parse.Word text :=
  ⟨solid.1, solid.2.1, solid.2.2⟩

theorem farNode_names : LineNames farNode.peer.name "#c".toList where
  meSolid := by decide
  meShort := by decide
  chan := word_small (by decide)
  chanHash := by decide
  chanShort := by decide

theorem lockedChan_valid : lockedChan.Valid farNode.build where
  word := word_small (by decide)
  hash := by decide
  short := by decide
  tsLow := by decide
  tsHigh := by decide
  mode := by constructor <;> decide
  nicks := by
    intro l member
    simp only [lockedChan, List.mem_cons, List.not_mem_nil, or_false] at member
    obtain rfl | rfl := member <;> exact ⟨by decide, by decide, by decide, by simp [isStatus]⟩
  distinct := by decide
  stored := by
    intro list mask member
    cases list with
    | ban =>
      obtain rfl := List.mem_singleton.mp member
      exact ⟨word_small (by decide), by decide⟩
    | exempt => exact absurd member List.not_mem_nil
    | invite => exact absurd member List.not_mem_nil
  apart := by
    intro list
    cases list <;> decide

theorem lockedChan_carried :
    ∃ received, (sendChannelModes farNode.build farNode.peer.name lockedChan).foldl farNode.receive none =
      some received ∧ received.Same lockedChan := by
  refine (roundTrip_iff farNode farNode_names lockedChan_valid (by decide) ?_).mpr ⟨by decide, ?_, ?_⟩
  · unfold World.Knows
    decide
  · unfold Member.Plain
    decide
  · intro list mask member
    cases list with
    | ban =>
      obtain rfl := List.mem_singleton.mp member
      simp [Stable, Mask.collapse, Mask.squeeze]
    | exempt => exact absurd member List.not_mem_nil
    | invite => exact absurd member List.not_mem_nil

theorem threeSigns_valid : threeSigns.Valid farNode.build where
  word := word_small (by decide)
  hash := by decide
  short := by decide
  tsLow := by decide
  tsHigh := by decide
  mode := mode_clear_valid _
  nicks := by
    intro l member
    obtain rfl := List.mem_singleton.mp member
    exact ⟨by decide, by decide, by decide, by simp [isStatus]⟩
  distinct := by decide
  stored := by
    intro list mask member
    cases list <;> exact absurd member List.not_mem_nil
  apart := by
    intro list
    cases list <;> exact List.Pairwise.nil

/-- Somebody with op, half-op and voice arrives without the voice. -/
theorem threeSigns_not_carried : threeSigns.Valid farNode.build ∧
    ¬ ∃ received, (sendChannelModes farNode.build farNode.peer.name threeSigns).foldl farNode.receive none =
      some received ∧ received.Same threeSigns := by
  refine ⟨threeSigns_valid, ?_⟩
  rintro ⟨received, arrived, same⟩
  have members : received.members = [⟨"ann".toList, true, true, false, false⟩] := by
    have lines := congrArg (Option.map Chan.members) arrived
    have read : ((sendChannelModes farNode.build farNode.peer.name threeSigns).foldl farNode.receive none).map
        Chan.members = some [⟨"ann".toList, true, true, false, false⟩] := by decide
    exact Option.some.inj (lines.symm.trans read)
  have perm := same.members
  rw [members] at perm
  exact absurd perm (by decide)

end SolidIrcd.Channel
