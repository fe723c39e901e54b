import SolidIrcd.Channel.RoundTrip
import SolidIrcd.Lib.Link
import Mathlib.Data.Char

/-! Two servers that both have a channel link and send each other its burst: each
merges what it gets into what it had, and both should end with the same channel. -/

namespace SolidIrcd.Channel

open Scan (Text)

/-! The merge of modes does not ask which side is ours. -/

theorem strcmpAbove_swap (different : first ≠ second) : strcmpAbove first second = !strcmpAbove second first := by
  induction first generalizing second with
  | nil =>
    cases second with
    | nil => exact absurd rfl different
    | cons b second => rfl
  | cons a first ih =>
    cases second with
    | nil => rfl
    | cons b second =>
      by_cases same : a = b
      · subst same
        simpa [strcmpAbove] using ih fun equal => different (by rw [equal])
      · have other : ¬ b = a := Ne.symm same
        obtain below | above := lt_or_gt_of_ne same
        · simp [strcmpAbove, same, other, below, not_lt_of_gt below]
        · simp [strcmpAbove, same, other, above, not_lt_of_gt above]

theorem mergeKey_comm (first second : Text) : mergeKey first second = mergeKey second first := by
  by_cases same : first = second
  · rw [same]
  · have swap := strcmpAbove_swap same
    unfold mergeKey
    cases first <;> cases second <;> cases above : strcmpAbove _ _ <;> simp_all

theorem mergeLimit_comm (first second : Int) :
    (if first > second then first else second) = if second > first then second else first := by
  split <;> split <;> omega

theorem keepsJoinRate_iff (oldmode mode : Mode) :
    keepsJoinRate oldmode mode = true ↔
      (mode.flags .joinRate = true ∧ mode.joinNum = 0) ∨
        (oldmode.joinNum ≠ 0 ∧ mode.joinNum > oldmode.joinNum) ∨
        (mode.joinNum = oldmode.joinNum ∧ mode.joinTime < oldmode.joinTime) := by
  simp [keepsJoinRate, or_assoc]

/-- Of two join rates the same one wins at both ends. -/
theorem mergeModes_rate_comm (one : Mode.Valid build first) (two : Mode.Valid build second) :
    (mergeModes first second).joinNum = (mergeModes second first).joinNum ∧
      (mergeModes first second).joinTime = (mergeModes second first).joinTime := by
  have oneNum := one.numLow
  have twoNum := two.numLow
  have oneRate := one.rate
  have twoRate := two.rate
  have oneUnset := one.rateUnset
  have twoUnset := two.rateUnset
  simp only [mergeModes, Bool.and_eq_true, Bool.not_eq_true', ← Bool.not_eq_true, keepsJoinRate_iff]
  generalize first.flags .joinRate = setOne at *
  generalize second.flags .joinRate = setTwo at *
  cases setOne <;> cases setTwo <;> grind

theorem mergeModes_comm (one : Mode.Valid build first) (two : Mode.Valid build second) :
    mergeModes first second = mergeModes second first := by
  obtain ⟨num, time⟩ := mergeModes_rate_comm one two
  have flags : (mergeModes first second).flags = (mergeModes second first).flags := by
    funext flag
    exact Bool.or_comm ..
  have limit : (mergeModes first second).limit = (mergeModes second first).limit := mergeLimit_comm ..
  have key : (mergeModes first second).key = (mergeModes second first).key := mergeKey_comm ..
  cases left : mergeModes first second
  cases right : mergeModes second first
  simp_all

theorem unset_of_missing (valid : Mode.Valid build mode) (missing : carried build flag = false) :
    flag = .listed ∧ build.chanmodeL = false ∨ mode.flags flag = false := by
  obtain ⟨rfl, off⟩ | ⟨rfl, off⟩ | listed := carried_eq_false missing
  · exact .inr (Bool.eq_false_iff.mpr fun set => absurd (valid.ssl set) (by simp [off]))
  · exact .inr (Bool.eq_false_iff.mpr fun set => absurd (valid.rsl set) (by simp [off]))
  · exact .inl listed

theorem mergeModes_sent (first second : Mode) :
    mergeModes first (second.sent build) =
      { mergeModes first second with
        flags := fun flag => second.flags flag && carried build flag || first.flags flag } := by
  have keeps : keepsJoinRate first (second.sent build) = keepsJoinRate first second := by
    have rate : (second.sent build).flags .joinRate = second.flags .joinRate := by simp [Mode.sent, carried]
    simp only [keepsJoinRate, rate]
    rfl
  simp only [mergeModes, keeps]
  rfl

/-- What is lost on the way is lost in both directions. -/
theorem mergeModes_sent_comm (one : Mode.Valid build first) (two : Mode.Valid build second)
    (listed : build.chanmodeL = true ∨ first.flags .listed = second.flags .listed) :
    mergeModes first (second.sent build) = mergeModes second (first.sent build) := by
  rw [mergeModes_sent, mergeModes_sent, mergeModes_comm one two]
  simp only [Mode.mk.injEq, and_true]
  funext flag
  cases missing : carried build flag with
  | true => simp [Bool.or_comm]
  | false =>
    obtain ⟨rfl, off⟩ | unset := unset_of_missing one missing
    · simpa using listed.resolve_left (by simp [off])
    · obtain ⟨rfl, off⟩ | unset' := unset_of_missing two missing
      · simpa using listed.resolve_left (by simp [off])
      · simp [unset, unset']

/-! What a burst leaves, part by part. -/

section

variable (build : Build) (ours theirs : Chan)

theorem absorb_channelts :
    (ours.absorb build theirs false).channelts = mergeTs false theirs.channelts ours.channelts := by
  simp only [Chan.absorb]
  split
  · simp [Chan.joined, Chan.addMembers]
  · rw [(foldl_addEntry_frame _ _).2.1]
    simp [Chan.joined, Chan.addMembers]

theorem absorb_mode :
    (ours.absorb build theirs false).mode = (ours.merge false theirs.channelts (theirs.mode.sent build)).mode := by
  simp only [Chan.absorb]
  split
  · rfl
  · rw [(foldl_addEntry_frame _ _).2.2.1]
    rfl

theorem absorb_members :
    (ours.absorb build theirs false).members =
      ((burstOrder theirs.members).map
        (Member.arrives (keepsNew false theirs.channelts ours.channelts))).reverse ++
        (ours.merge false theirs.channelts (theirs.mode.sent build)).members := by
  simp only [Chan.absorb]
  split
  · rfl
  · rw [(foldl_addEntry_frame _ _).2.2.2]
    rfl

theorem absorb_masks (list : MaskList) :
    (ours.absorb build theirs false).masks list =
      if theirs.channelts ≠ 0 ∧ theirs.channelts > mergeTs false theirs.channelts ours.channelts then
        (ours.merge false theirs.channelts (theirs.mode.sent build)).masks list
      else ((theirs.masks list).map Mask.canonical).foldl insertMask
        ((ours.merge false theirs.channelts (theirs.mode.sent build)).masks list) := by
  have joined : (ours.joined build theirs false).masks list =
      (ours.merge false theirs.channelts (theirs.mode.sent build)).masks list := by
    cases list <;> rfl
  have channelts : (ours.joined build theirs false).channelts =
      mergeTs false theirs.channelts ours.channelts := by
    simp [Chan.joined, Chan.addMembers]
  simp only [Chan.absorb, channelts]
  split
  · exact joined
  · rw [masks_entries, joined]

end

/-! When the two ends agree. -/

/-- Whether the other end lets the modes of a channel in. -/
def Chan.Counts (mine yours : Chan) : Prop := keepsNew false mine.channelts yours.channelts = true

/-- Two lists that both ends merge: a mask that only one of them has stays as it is,
and `mycmp` tells all masks that come up apart. -/
structure Mergeable (first second : List Text) : Prop where
  stable : ∀ mask, mask ∈ first ∨ mask ∈ second → (mask ∈ first ∧ mask ∈ second) ∨ Stable mask
  apart : ∀ x y, x ∈ first ++ second ++ (first ++ second).map Mask.collapse →
    y ∈ first ++ second ++ (first ++ second).map Mask.collapse → mycmp x y = true → x = y

/-- A list that has all masks of another. -/
structure Covers (first second : List Text) : Prop where
  subset : ∀ mask ∈ second, mask ∈ first
  stable : ∀ mask ∈ first, Stable mask

/-- What the TS of the two ends ask of one of the lists. -/
structure MasksMeet (ts ts' : Int) (first second : List Text) : Prop where
  level : ts = ts' → Mergeable first second
  zeroFirst : ts = 0 → ts' ≠ 0 → Covers first second
  zeroSecond : ts' = 0 → ts ≠ 0 → Covers second first
  olderFirst : ts < ts' → ts ≠ 0 → ∀ mask ∈ first, Stable mask
  olderSecond : ts' < ts → ts' ≠ 0 → ∀ mask ∈ second, Stable mask

/-- Two channels whose bursts carry what counts of them. -/
structure Chan.Meets (build : Build) (first second : Chan) : Prop where
  plainFirst : first.Counts second → ∀ l ∈ first.members, l.Plain
  plainSecond : second.Counts first → ∀ l ∈ second.members, l.Plain
  listed : build.chanmodeL = true ∨
    (first.Counts second ∧ second.Counts first ∧ first.mode.flags .listed = second.mode.flags .listed) ∨
    (¬ first.Counts second ∧ second.mode.flags .listed = false) ∨
    (¬ second.Counts first ∧ first.mode.flags .listed = false)
  masks : ∀ list, MasksMeet first.channelts second.channelts (first.masks list) (second.masks list)

theorem Mergeable.symm (merge : Mergeable first second) : Mergeable second first where
  stable mask place := (merge.stable mask place.symm).imp_left And.symm
  apart x y left right := by
    have swap (x : Text) : x ∈ second ++ first ++ (second ++ first).map Mask.collapse →
        x ∈ first ++ second ++ (first ++ second).map Mask.collapse := by
      simp only [List.map_append, List.mem_append]
      tauto
    exact merge.apart x y (swap x left) (swap y right)

theorem MasksMeet.symm (meet : MasksMeet ts ts' first second) : MasksMeet ts' ts second first where
  level same := (meet.level same.symm).symm
  zeroFirst := meet.zeroSecond
  zeroSecond := meet.zeroFirst
  olderFirst := meet.olderSecond
  olderSecond := meet.olderFirst

theorem Chan.Meets.symm (meets : Chan.Meets build first second) : second.Meets build first where
  plainFirst := meets.plainSecond
  plainSecond := meets.plainFirst
  listed := by
    obtain sent | ⟨one, two, alike⟩ | only | only := meets.listed
    · exact .inl sent
    · exact .inr (.inl ⟨two, one, alike.symm⟩)
    · exact .inr (.inr (.inr only))
    · exact .inr (.inr (.inl only))
  masks list := (meets.masks list).symm

theorem Chan.Same.symm (same : Chan.Same mine yours) : yours.Same mine where
  channelts := same.channelts.symm
  mode := same.mode.symm
  members := same.members.symm
  masks list mask := (same.masks list mask).symm

/-- How the TS of the two ends stand to each other, seen from both. -/
theorem tsOrder_cases (ts ts' : Int) :
    (tsOrder false ts ts' = .keepBoth ∧ tsOrder false ts' ts = .keepBoth ∧ (ts = ts' ∨ ts = 0 ∨ ts' = 0)) ∨
      (tsOrder false ts ts' = .keepNew ∧ tsOrder false ts' ts = .keepOurs ∧ ts < ts' ∧ ts ≠ 0 ∧ ts' ≠ 0) ∨
      (tsOrder false ts ts' = .keepOurs ∧ tsOrder false ts' ts = .keepNew ∧ ts' < ts ∧ ts ≠ 0 ∧ ts' ≠ 0) := by
  simp only [tsOrder]
  grind

theorem tsOrder_older (older : ts < ts') (some : ts ≠ 0) (positive : 0 ≤ ts) :
    tsOrder false ts ts' = .keepNew ∧ tsOrder false ts' ts = .keepOurs := by
  simp only [tsOrder]
  grind

theorem mergeTs_comm (ts ts' : Int) : mergeTs false ts ts' = mergeTs false ts' ts := by
  simp only [mergeTs]
  grind

theorem masks_merge_kept {ours : Chan} (order : tsOrder false newts ours.channelts ≠ .keepNew) (mode : Mode)
    (list : MaskList) : (ours.merge false newts mode).masks list = ours.masks list := by
  simp only [Chan.merge]
  split
  · cases list <;> rfl
  · cases list <;> rfl
  next new => exact absurd new order

theorem masks_merge_wiped {ours : Chan} (order : tsOrder false newts ours.channelts = .keepNew) (mode : Mode)
    (list : MaskList) : (ours.merge false newts mode).masks list = [] := by
  simp only [Chan.merge, order]
  cases list <;> rfl

theorem members_arrive (keep : Bool) (members : List Member) :
    (((burstOrder members).map (Member.arrives keep)).reverse.map Member.status).Perm
      (members.map fun l => (l.arrives keep).status) := by
  rw [List.map_reverse, List.map_map]
  exact (List.reverse_perm _).trans ((burstOrder_perm members).map _)

theorem status_plain {members : List Member} (plain : ∀ l ∈ members, Member.Plain l) :
    (members.map fun l => (l.arrives true).status) = members.map Member.status :=
  List.map_congr_left fun l member => (sent_status_iff l).mpr (plain l member)

/-- Both ends keep their modes. -/
theorem members_both (first second : Chan) (order : tsOrder false second.channelts first.channelts = .keepBoth)
    (plain : ∀ l ∈ second.members, l.Plain) :
    ((first.absorb build second false).members.map Member.status).Perm
      (second.members.map Member.status ++ first.members.map Member.status) := by
  have arrive := members_arrive true second.members
  rw [status_plain plain] at arrive
  rw [absorb_members, List.map_append]
  simp only [keepsNew, Chan.merge, order, ne_eq, reduceCtorEq, not_false_eq_true, decide_true]
  exact arrive.append_right _

/-- The end with the younger channel gives up its modes. -/
theorem members_new (first second : Chan) (order : tsOrder false second.channelts first.channelts = .keepNew)
    (plain : ∀ l ∈ second.members, l.Plain) :
    ((first.absorb build second false).members.map Member.status).Perm
      (second.members.map Member.status ++ first.members.map fun l => l.dropped.status) := by
  have arrive := members_arrive true second.members
  rw [status_plain plain] at arrive
  rw [absorb_members, List.map_append]
  simp only [keepsNew, Chan.merge, order, Chan.wipe, ne_eq, reduceCtorEq, not_false_eq_true, decide_true,
    List.map_map]
  exact arrive.append_right _

/-- The end with the older channel only takes the members. -/
theorem members_ours (first second : Chan) (order : tsOrder false first.channelts second.channelts = .keepOurs) :
    ((second.absorb build first false).members.map Member.status).Perm
      ((first.members.map fun l => l.dropped.status) ++ second.members.map Member.status) := by
  rw [absorb_members, List.map_append]
  simp only [keepsNew, Chan.merge, order, ne_eq, not_true_eq_false, decide_false]
  exact (members_arrive false first.members).append_right _

/-- Masks that both ends merge. -/
theorem masks_merged {first second : List Text} (merge : Mergeable first second)
    (stored : ∀ mask ∈ second, Stored mask) :
    mask ∈ (second.map Mask.canonical).foldl insertMask first ↔
      mask ∈ first ∨ mask ∈ second.map Mask.collapse := by
  have collapsed : second.map Mask.canonical = second.map Mask.collapse :=
    List.map_congr_left fun mask member => canonical_stored (stored mask member)
  rw [collapsed]
  constructor
  · exact mem_foldl_insertMask
  · intro place
    obtain old | new := place
    · exact subset_foldl_insertMask old _
    · apply mem_foldl_insertMask_of_mem new
      intro other there
      apply merge.apart
      · simp only [List.map_append, List.mem_append]
        tauto
      · simp only [List.map_append, List.mem_append]
        tauto

theorem masks_level {first second : List Text} (merge : Mergeable first second)
    (place : mask ∈ first ∨ mask ∈ second.map Mask.collapse) :
    mask ∈ second ∨ mask ∈ first.map Mask.collapse := by
  obtain old | new := place
  · obtain ⟨-, both⟩ | stable := merge.stable mask (.inl old)
    · exact .inl both
    · exact .inr (List.mem_map.mpr ⟨mask, old, stable⟩)
  · obtain ⟨origin, inside, became⟩ := List.mem_map.mp new
    obtain ⟨both, -⟩ | stable := merge.stable origin (.inr inside)
    · exact .inr (List.mem_map.mpr ⟨origin, both, became⟩)
    · exact .inl (became ▸ stable.symm ▸ inside)

theorem Covers.mergeable {first second : List Text} (covers : Covers first second)
    (apart : first.Pairwise fun x y => mycmp x y = false) : Mergeable first second where
  stable mask place := .inr (covers.stable mask (place.elim id (covers.subset mask)))
  apart x y left right := by
    have inside (x : Text) (place : x ∈ first ++ second ++ (first ++ second).map Mask.collapse) : x ∈ first := by
      simp only [List.map_append, List.mem_append, List.mem_map] at place
      obtain (old | old) | ⟨origin, old, became⟩ | ⟨origin, old, became⟩ := place
      · exact old
      · exact covers.subset x old
      · exact became ▸ (covers.stable origin old).symm ▸ old
      · exact became ▸ (covers.stable origin (covers.subset origin old)).symm ▸ covers.subset origin old
    exact eq_of_mycmp apart (inside x left) (inside y right)

/-- Lists of channels with different TS. -/
theorem masks_same_older {first second : Chan} (two : second.Valid build)
    (older : second.channelts < first.channelts) (some : second.channelts ≠ 0)
    (list : MaskList) (stable : ∀ mask ∈ second.masks list, Stable mask) (mask : Text) :
    mask ∈ (first.absorb build second false).masks list ↔ mask ∈ (second.absorb build first false).masks list := by
  obtain ⟨order, order'⟩ := tsOrder_older older some two.tsLow
  have positive := two.tsLow
  have notYounger : ¬ (second.channelts ≠ 0 ∧ second.channelts > mergeTs false second.channelts first.channelts) := by
    simp only [mergeTs]
    grind
  have younger : first.channelts ≠ 0 ∧ first.channelts > mergeTs false first.channelts second.channelts := by
    simp only [mergeTs]
    grind
  rw [absorb_masks, absorb_masks, if_neg notYounger, if_pos younger, masks_merge_wiped order,
    masks_merge_kept (by simp [order'])]
  exact (masks_same_iff (two.stored list) (two.apart list)).mpr stable mask

section

variable {first second : Chan} (one : first.Valid build) (two : second.Valid build)

include one two

/-- Lists of channels with the same TS. -/
theorem masks_same_level (level : first.channelts = second.channelts) (list : MaskList)
    (merge : Mergeable (first.masks list) (second.masks list)) (mask : Text) :
    mask ∈ (first.absorb build second false).masks list ↔ mask ∈ (second.absorb build first false).masks list := by
  have order : tsOrder false second.channelts first.channelts = .keepBoth := by simp [tsOrder, level]
  have order' : tsOrder false first.channelts second.channelts = .keepBoth := by simp [tsOrder, level]
  have notYounger : ¬ (second.channelts ≠ 0 ∧ second.channelts > mergeTs false second.channelts first.channelts) := by
    simp only [mergeTs]
    grind
  have notYounger' : ¬ (first.channelts ≠ 0 ∧ first.channelts > mergeTs false first.channelts second.channelts) := by
    simp only [mergeTs]
    grind
  rw [absorb_masks, absorb_masks, if_neg notYounger, if_neg notYounger', masks_merge_kept (by simp [order]),
    masks_merge_kept (by simp [order']), masks_merged merge (two.stored list),
    masks_merged merge.symm (one.stored list)]
  exact ⟨masks_level merge, masks_level merge.symm⟩

/-- Lists of a channel with TS zero and one with another TS. -/
theorem masks_same_zero (zero : first.channelts = 0) (some : second.channelts ≠ 0) (list : MaskList)
    (covers : Covers (first.masks list) (second.masks list)) (mask : Text) :
    mask ∈ (first.absorb build second false).masks list ↔ mask ∈ (second.absorb build first false).masks list := by
  have order : tsOrder false second.channelts first.channelts = .keepBoth := by simp [tsOrder, zero]
  have order' : tsOrder false first.channelts second.channelts = .keepBoth := by simp [tsOrder, zero]
  have positive := two.tsLow
  have younger : second.channelts ≠ 0 ∧ second.channelts > mergeTs false second.channelts first.channelts := by
    simp only [mergeTs, zero]
    grind
  have merge := covers.mergeable (one.apart list)
  rw [absorb_masks, absorb_masks, if_pos younger, if_neg (by simp [zero]), masks_merge_kept (by simp [order]),
    masks_merge_kept (by simp [order']), masks_merged merge.symm (one.stored list)]
  constructor
  · intro inside
    exact .inr (List.mem_map.mpr ⟨mask, inside, covers.stable mask inside⟩)
  · intro place
    obtain inside | image := place
    · exact covers.subset mask inside
    · obtain ⟨origin, inside, became⟩ := List.mem_map.mp image
      exact became ▸ (covers.stable origin inside).symm ▸ inside

/-- Channels of which both sides count. -/
theorem same_both (order : tsOrder false first.channelts second.channelts = .keepBoth)
    (order' : tsOrder false second.channelts first.channelts = .keepBoth)
    (meets : first.Meets build second)
    (masks : ∀ list mask, mask ∈ (first.absorb build second false).masks list ↔
      mask ∈ (second.absorb build first false).masks list) :
    (first.absorb build second false).Same (second.absorb build first false) := by
  have counts : first.Counts second := by simp [Chan.Counts, keepsNew, order]
  have counts' : second.Counts first := by simp [Chan.Counts, keepsNew, order']
  refine ⟨?_, ?_, ?_, masks⟩
  · rw [absorb_channelts, absorb_channelts, mergeTs_comm]
  · have listed : build.chanmodeL = true ∨ first.mode.flags .listed = second.mode.flags .listed := by
      obtain sent | ⟨-, -, alike⟩ | ⟨not, -⟩ | ⟨not, -⟩ := meets.listed
      · exact .inl sent
      · exact .inr alike
      · exact absurd counts not
      · exact absurd counts' not
    rw [absorb_mode, absorb_mode]
    simp only [Chan.merge, order, order']
    exact mergeModes_sent_comm one.mode two.mode listed
  · exact (members_both first second order' (meets.plainSecond counts')).trans
      (List.perm_append_comm.trans (members_both second first order (meets.plainFirst counts)).symm)

end

/-- Channels of which only the older one counts. -/
theorem same_older {first second : Chan} (two : second.Valid build)
    (older : second.channelts < first.channelts) (some : second.channelts ≠ 0)
    (meets : first.Meets build second) :
    (first.absorb build second false).Same (second.absorb build first false) := by
  obtain ⟨order, order'⟩ := tsOrder_older older some two.tsLow
  have counts : second.Counts first := by simp [Chan.Counts, keepsNew, order]
  have lost : ¬ first.Counts second := by simp [Chan.Counts, keepsNew, order']
  refine ⟨?_, ?_, ?_, ?_⟩
  · rw [absorb_channelts, absorb_channelts, mergeTs_comm]
  · rw [absorb_mode, absorb_mode]
    simp only [Chan.merge, order, order']
    apply (sent_eq_iff two.mode).mpr
    intro listed
    obtain sent | ⟨not, -, -⟩ | ⟨-, unlisted⟩ | ⟨not, -⟩ := meets.listed
    · exact sent
    · exact absurd not lost
    · exact absurd listed (by simp [unlisted])
    · exact absurd counts not
  · exact (members_new first second order (meets.plainSecond counts)).trans
      (List.perm_append_comm.trans (members_ours first second order').symm)
  · intro list
    exact masks_same_older two older some list ((meets.masks list).olderSecond older some)

/-- The merge at one end and the merge at the other come to the same channel. -/
theorem absorb_same {first second : Chan} (one : first.Valid build) (two : second.Valid build)
    (meets : first.Meets build second) :
    (first.absorb build second false).Same (second.absorb build first false) := by
  obtain ⟨order, order', level⟩ | ⟨-, -, older, some, -⟩ | ⟨-, -, older, -, some⟩ :=
    tsOrder_cases first.channelts second.channelts
  · apply same_both one two order order' meets
    intro list
    by_cases same : first.channelts = second.channelts
    · exact masks_same_level one two same list ((meets.masks list).level same)
    · obtain equal | zero | zero := level
      · exact absurd equal same
      · have some : second.channelts ≠ 0 := fun other => same (zero.trans other.symm)
        exact masks_same_zero one two zero some list ((meets.masks list).zeroFirst zero some)
      · have some : first.channelts ≠ 0 := fun other => same (other.trans zero.symm)
        intro mask
        exact (masks_same_zero two one zero some list ((meets.masks list).zeroSecond zero some) mask).symm
  · exact (same_older one older some meets.symm).symm
  · exact same_older two older some meets

/-! The link. -/

/-- One end of a link, with what it has of the channel. -/
structure Side where
  node : Node
  channel : Option Chan

/-- A line of the burst at one end. Nothing goes back over the link. -/
def Side.receive (side : Side) (line : Text) : Side × List Text :=
  ({ side with channel := side.node.receive side.channel line }, [])

/-- Two servers with their channels, when both have queued their bursts. -/
def linked (left right : Node) (ours theirs : Chan) : Link.Wire Side Text where
  left := ⟨left, some ours⟩
  right := ⟨right, some theirs⟩
  toLeft := sendChannelModes right.build left.peer.name theirs
  toRight := sendChannelModes left.build right.peer.name ours

/-- What one end has made sure of when the burst of the other comes. -/
structure Prepared (node : Node) (ours theirs : Chan) : Prop where
  names : LineNames node.peer.name theirs.chname
  valid : theirs.Valid node.build
  some : theirs.members ≠ []
  known : node.world.Knows theirs.members
  fresh : ∀ l ∈ theirs.members, l.name ∉ ours.members.map Member.name

theorem drain_receive (node : Node) (channel : Option Chan) (lines : List Text) :
    Link.drain Side.receive ⟨node, channel⟩ lines = ⟨node, lines.foldl node.receive channel⟩ := by
  induction lines generalizing channel with
  | nil => rfl
  | cons line lines ih => exact ih (node.receive channel line)

theorem drain_burst (prepared : Prepared node ours theirs) (valid : Chan.Valid node.build ours) :
    Link.drain Side.receive ⟨node, some ours⟩ (sendChannelModes node.build node.peer.name theirs) =
      ⟨node, some (ours.absorb node.build theirs false)⟩ := by
  have arriving : Arriving node.world (node.getChannel (some ours) theirs.chname) theirs.members :=
    ⟨prepared.valid.nicks, prepared.known, prepared.valid.distinct, prepared.fresh⟩
  rw [drain_receive, receive_burst node prepared.names prepared.valid prepared.some (some ours) valid.mode valid.short
    arriving]
  rfl

/-- The bursts can be taken to their end. -/
theorem exists_drained (start : Link.Wire Side Text) :
    ∃ final, Link.Run Side.receive start final ∧ final.Quiet := by
  apply Link.exists_quiet fun _ => 1
  intro side line
  exact Nat.one_pos

/-- Whatever the order in which the lines of the two bursts are taken, both servers
end with the same channel, as long as the bursts carry what counts. -/
theorem linked_converge (left right : Node) (prepared : Prepared left ours theirs)
    (prepared' : Prepared right theirs ours) (build : left.build = right.build)
    (meets : ours.Meets left.build theirs) :
    (∃ final, Link.Run Side.receive (linked left right ours theirs) final ∧ final.Quiet) ∧
      ∀ final, Link.Run Side.receive (linked left right ours theirs) final → final.Quiet →
        ∃ mine yours, final.left.channel = some mine ∧ final.right.channel = some yours ∧ mine.Same yours := by
  refine ⟨exists_drained _, ?_⟩
  intro final run quiet
  have one : ours.Valid left.build := build ▸ prepared'.valid
  obtain ⟨atLeft, atRight⟩ := Link.Run.quiet_drained (fun _ _ => rfl) run quiet
  simp only [linked] at atLeft atRight
  rw [← build, drain_burst prepared one] at atLeft
  rw [build, drain_burst prepared' (build ▸ prepared.valid)] at atRight
  refine ⟨_, _, by rw [atLeft], by rw [atRight], ?_⟩
  rw [← build]
  exact absorb_same one prepared.valid meets

def leftNode : Node where
  build := ⟨false, true, false⟩
  world := ⟨[⟨"ann".toList, false⟩, ⟨"bob".toList, true⟩], fun _ => none⟩
  timeofday := 500
  peer := ⟨"b.net".toList, false⟩

def rightNode : Node where
  build := ⟨false, true, false⟩
  world := ⟨[⟨"ann".toList, true⟩, ⟨"bob".toList, false⟩], fun _ => none⟩
  timeofday := 500
  peer := ⟨"a.net".toList, false⟩

/-- The channel of `ann`, an operator. -/
def annChan (channelts : Int) : Chan :=
  { Chan.create "#c".toList channelts with members := [⟨"ann".toList, true, false, false, false⟩] }

/-- The channel of `bob`, who has banned a host. -/
def bobChan (channelts : Int) : Chan :=
  { Chan.create "#c".toList channelts with
    members := [⟨"bob".toList, true, false, false, false⟩]
    banlist := ["*!*@x".toList] }

theorem annChan_valid (lower : 0 ≤ channelts) (upper : channelts ≤ Decimal.longMax) (build : Build) :
    (annChan channelts).Valid build where
  word := farNode_names.chan
  hash := rfl
  short := farNode_names.chanShort
  tsLow := lower
  tsHigh := upper
  mode := mode_clear_valid build
  nicks := by
    intro l member
    obtain rfl := List.mem_singleton.mp member
    exact ⟨by decide, by decide, by decide, by simp [isStatus]⟩
  distinct := List.nodup_singleton _
  stored := by
    intro list mask member
    cases list <;> exact absurd member List.not_mem_nil
  apart := by
    intro list
    cases list <;> exact List.Pairwise.nil

theorem bobChan_valid (lower : 0 ≤ channelts) (upper : channelts ≤ Decimal.longMax) (build : Build) :
    (bobChan channelts).Valid build where
  word := farNode_names.chan
  hash := rfl
  short := farNode_names.chanShort
  tsLow := lower
  tsHigh := upper
  mode := mode_clear_valid build
  nicks := by
    intro l member
    obtain rfl := List.mem_singleton.mp member
    exact ⟨by decide, by decide, by decide, by simp [isStatus]⟩
  distinct := List.nodup_singleton _
  stored := by
    intro list mask member
    cases list with
    | ban =>
      obtain rfl := List.mem_singleton.mp member
      exact ⟨word_small (by decide), by decide⟩
    | exempt => exact absurd member List.not_mem_nil
    | invite => exact absurd member List.not_mem_nil
  apart := by
    intro list
    cases list <;> simp [Chan.masks, bobChan, Chan.create]

theorem left_prepared (lower : 0 ≤ channelts) (upper : channelts ≤ Decimal.longMax) (other : Int) :
    Prepared leftNode (annChan other) (bobChan channelts) where
  names := ⟨by decide, by decide, farNode_names.chan, rfl, farNode_names.chanShort⟩
  valid := bobChan_valid lower upper _
  some := by simp [bobChan]
  known := by
    intro l member
    obtain rfl := List.mem_singleton.mp member
    decide
  fresh := by
    intro l member
    obtain rfl := List.mem_singleton.mp member
    simp [annChan]

theorem right_prepared (lower : 0 ≤ channelts) (upper : channelts ≤ Decimal.longMax) (other : Int) :
    Prepared rightNode (bobChan other) (annChan channelts) where
  names := ⟨by decide, by decide, farNode_names.chan, rfl, farNode_names.chanShort⟩
  valid := annChan_valid lower upper _
  some := by simp [annChan]
  known := by
    intro l member
    obtain rfl := List.mem_singleton.mp member
    decide
  fresh := by
    intro l member
    obtain rfl := List.mem_singleton.mp member
    simp [bobChan]

theorem stable_bob : Stable "*!*@x".toList := by simp [Stable, Mask.collapse, Mask.squeeze]

/-- `bob`'s channel is older and wins. -/
theorem bobChan_wins :
    (∃ final, Link.Run Side.receive (linked leftNode rightNode (annChan 200) (bobChan 100)) final ∧ final.Quiet) ∧
      ∀ final, Link.Run Side.receive (linked leftNode rightNode (annChan 200) (bobChan 100)) final → final.Quiet →
        ∃ mine yours, final.left.channel = some mine ∧ final.right.channel = some yours ∧ mine.Same yours := by
  refine linked_converge leftNode rightNode (left_prepared (by decide) (by decide) 200)
    (right_prepared (by decide) (by decide) 100) rfl ⟨?_, ?_, .inl rfl, ?_⟩
  · intro counts
    exact absurd counts (by unfold Chan.Counts; decide)
  · intro _ l member
    obtain rfl := List.mem_singleton.mp member
    exact fun three => absurd three.2.1 (by decide)
  · intro list
    refine ⟨fun same => absurd same (by decide), fun zero => absurd zero (by decide), fun zero => absurd zero (by decide),
      fun older => absurd older (by decide), fun _ _ mask member => ?_⟩
    cases list with
    | ban => exact List.mem_singleton.mp member ▸ stable_bob
    | exempt => exact absurd member List.not_mem_nil
    | invite => exact absurd member List.not_mem_nil

/-- When one TS is zero, the server that has it drops the bans of the other, which
keeps them. -/
theorem zeroTs_diverges :
    Prepared leftNode (annChan 0) (bobChan 100) ∧ Prepared rightNode (bobChan 100) (annChan 0) ∧
      ∃ final, Link.Run Side.receive (linked leftNode rightNode (annChan 0) (bobChan 100)) final ∧ final.Quiet ∧
        ¬ ∃ mine yours, final.left.channel = some mine ∧ final.right.channel = some yours ∧ mine.Same yours := by
  refine ⟨left_prepared (by decide) (by decide) 0, right_prepared (by decide) (by decide) 100, ?_⟩
  obtain ⟨final, run, quiet⟩ := exists_drained (linked leftNode rightNode (annChan 0) (bobChan 100))
  refine ⟨final, run, quiet, ?_⟩
  rintro ⟨mine, yours, atLeft, atRight, same⟩
  obtain ⟨left, right⟩ := Link.Run.quiet_drained (fun _ _ => rfl) run quiet
  simp only [linked, drain_receive] at left right
  rw [left] at atLeft
  rw [right] at atRight
  have mineBans : mine.banlist = [] := by
    have read : ((sendChannelModes rightNode.build leftNode.peer.name (bobChan 100)).foldl leftNode.receive
        (some (annChan 0))).map Chan.banlist = some [] := by decide
    exact Option.some.inj ((congrArg (Option.map Chan.banlist) atLeft).symm.trans read)
  have yourBans : yours.banlist = ["*!*@x".toList] := by
    have read : ((sendChannelModes leftNode.build rightNode.peer.name (annChan 0)).foldl rightNode.receive
        (some (bobChan 100))).map Chan.banlist = some ["*!*@x".toList] := by decide
    exact Option.some.inj ((congrArg (Option.map Chan.banlist) atRight).symm.trans read)
  have banned : "*!*@x".toList ∈ yours.masks .ban := by simp [Chan.masks, yourBans]
  have lost := (same.masks .ban _).mpr banned
  simp [Chan.masks, mineBans] at lost

end SolidIrcd.Channel
