import SolidIrcd.Channel.SjoinLine

/-! What a server makes of the whole burst of a channel: the SJOIN lines work in
the TS and the modes once and then only bring members, the MODE lines bring masks. -/

namespace SolidIrcd.Channel

open Scan (Text)
open Parse (Word)
open Decimal (print)

/-! Modes. -/

theorem mergeKey_eq (oldkey key : Text) : mergeKey oldkey key = oldkey ∨ mergeKey oldkey key = key := by
  unfold mergeKey
  split
  · exact .inl rfl
  · split
    · exact .inl rfl
    · exact .inr rfl

/-- A join rate comes from one side as a whole. -/
theorem mergeModes_rate (oldmode mode : Mode) :
    ((mergeModes oldmode mode).joinNum = oldmode.joinNum ∧ (mergeModes oldmode mode).joinTime = oldmode.joinTime ∧
        oldmode.flags .joinRate = true) ∨
      ((mergeModes oldmode mode).joinNum = mode.joinNum ∧ (mergeModes oldmode mode).joinTime = mode.joinTime) := by
  simp only [mergeModes]
  cases ours : oldmode.flags .joinRate && !keepsJoinRate oldmode mode with
  | true => exact .inl ⟨rfl, rfl, (Bool.and_eq_true_iff.mp ours).1⟩
  | false => exact .inr ⟨rfl, rfl⟩

theorem sent_valid (valid : Mode.Valid build mode) : (mode.sent build).Valid build where
  limitLow := valid.limitLow
  limitHigh := valid.limitHigh
  keyShort := valid.keyShort
  keyOk := valid.keyOk
  numLow := valid.numLow
  numHigh := valid.numHigh
  timeLow := valid.timeLow
  timeHigh := valid.timeHigh
  rate := valid.rate
  rateUnset := by
    intro unset
    apply valid.rateUnset
    simpa [Mode.sent, carried] using unset
  ssl := fun set => valid.ssl (Bool.and_eq_true_iff.mp set).1
  rsl := fun set => valid.rsl (Bool.and_eq_true_iff.mp set).1

theorem mergeModes_valid (old : Mode.Valid build oldmode) (new : Mode.Valid build mode) :
    (mergeModes oldmode mode).Valid build := by
  have limit : (mergeModes oldmode mode).limit = oldmode.limit ∨ (mergeModes oldmode mode).limit = mode.limit := by
    simp only [mergeModes]
    split
    · exact .inl rfl
    · exact .inr rfl
  have key : (mergeModes oldmode mode).key = oldmode.key ∨ (mergeModes oldmode mode).key = mode.key :=
    mergeKey_eq oldmode.key mode.key
  have rates := mergeModes_rate oldmode mode
  constructor
  case limitLow => exact limit.elim (· ▸ old.limitLow) (· ▸ new.limitLow)
  case limitHigh => exact limit.elim (· ▸ old.limitHigh) (· ▸ new.limitHigh)
  case keyShort => exact key.elim (· ▸ old.keyShort) (· ▸ new.keyShort)
  case keyOk => exact key.elim (· ▸ old.keyOk) (· ▸ new.keyOk)
  case numLow => exact rates.elim (·.1 ▸ old.numLow) (·.1 ▸ new.numLow)
  case numHigh => exact rates.elim (·.1 ▸ old.numHigh) (·.1 ▸ new.numHigh)
  case timeLow => exact rates.elim (·.2.1 ▸ old.timeLow) (·.2 ▸ new.timeLow)
  case timeHigh => exact rates.elim (·.2.1 ▸ old.timeHigh) (·.2 ▸ new.timeHigh)
  case rate =>
    obtain ⟨num, time, -⟩ | ⟨num, time⟩ := rates
    · rw [num, time]
      exact old.rate
    · rw [num, time]
      exact new.rate
  case rateUnset =>
    intro unset
    obtain ⟨newUnset, oldUnset⟩ := Bool.or_eq_false_iff.mp unset
    obtain ⟨-, -, set⟩ | ⟨num, -⟩ := rates
    · exact absurd set (by simp [oldUnset])
    · rw [num]
      exact new.rateUnset newUnset
  case ssl => exact fun set => (Bool.or_eq_true_iff.mp set).elim new.ssl old.ssl
  case rsl => exact fun set => (Bool.or_eq_true_iff.mp set).elim new.rsl old.rsl

/-- A line without modes leaves the modes as they are. -/
theorem mergeModes_clear (valid : Mode.Valid build mode) : mergeModes mode .clear = mode := by
  have limit := valid.limitLow
  have num := valid.numLow
  have limits : (if mode.limit > 0 then mode.limit else 0) = mode.limit := by
    split <;> omega
  cases set : mode.flags .joinRate with
  | false =>
    have zero := valid.rateUnset set
    have none := valid.rate.mp zero
    cases mode
    simp_all [mergeModes, Mode.clear, mergeKey]
  | true =>
    have weak : keepsJoinRate mode .clear = false := by
      by_cases zero : mode.joinNum = 0
      · simp [keepsJoinRate, Mode.clear, zero, valid.rate.mp zero]
      · have other : ¬ 0 = mode.joinNum := Ne.symm zero
        simp [keepsJoinRate, Mode.clear, other, num]
    cases mode
    simp_all [mergeModes, Mode.clear, mergeKey]

/-! TS. -/

/-- The TS a line has left stands to the next line of the burst as it did before. -/
theorem keepsNew_mergeTs (created : Bool) (newts oldts : Int) :
    keepsNew false newts (mergeTs created newts oldts) = keepsNew created newts oldts := by
  simp only [keepsNew, tsOrder, mergeTs]
  grind

theorem mergeTs_mergeTs (created : Bool) (newts oldts : Int) :
    mergeTs false newts (mergeTs created newts oldts) = mergeTs created newts oldts := by
  simp only [mergeTs]
  grind

theorem tsOrder_mergeTs (created : Bool) (newts oldts : Int) :
    tsOrder false newts (mergeTs created newts oldts) ≠ .keepNew := by
  simp only [tsOrder, mergeTs]
  grind

@[simp] theorem merge_channelts (chptr : Chan) (created : Bool) (newts : Int) (mode : Mode) :
    (chptr.merge created newts mode).channelts = mergeTs created newts chptr.channelts := by
  simp only [Chan.merge]
  split <;> rfl

@[simp] theorem merge_chname (chptr : Chan) (created : Bool) (newts : Int) (mode : Mode) :
    (chptr.merge created newts mode).chname = chptr.chname := by
  simp only [Chan.merge]
  split <;> rfl

theorem merge_names (chptr : Chan) (created : Bool) (newts : Int) (mode : Mode) :
    (chptr.merge created newts mode).members.map Member.name = chptr.members.map Member.name := by
  simp only [Chan.merge]
  split <;> simp [Chan.wipe]

theorem merge_valid {chptr : Chan} (ours : Mode.Valid build chptr.mode) (theirs : Mode.Valid build mode) (created : Bool)
    (newts : Int) : (chptr.merge created newts mode).mode.Valid build := by
  simp only [Chan.merge]
  split
  · exact ours
  · exact mergeModes_valid ours theirs
  · exact theirs

/-- A channel that has had a line of the burst. -/
structure Chan.Settled (build : Build) (newts : Int) (chptr : Chan) : Prop where
  valid : Mode.Valid build chptr.mode
  same : mergeTs false newts chptr.channelts = chptr.channelts
  order : tsOrder false newts chptr.channelts ≠ .keepNew

theorem Chan.Settled.of_merge {chptr : Chan} {mode : Mode} (ours : Mode.Valid build chptr.mode)
    (theirs : Mode.Valid build mode) (created : Bool) (newts : Int) :
      (chptr.merge created newts mode).Settled build newts where
  valid := merge_valid ours theirs created newts
  same := by rw [merge_channelts, mergeTs_mergeTs]
  order := by
    rw [merge_channelts]
    exact tsOrder_mergeTs created newts chptr.channelts

/-- Such a channel keeps its TS and modes when the next line comes. -/
theorem Chan.Settled.merge (settled : Chan.Settled build newts chptr) : chptr.merge false newts .clear = chptr := by
  have same := settled.same
  simp only [Chan.merge]
  split
  · rw [same]
  · rw [same, mergeModes_clear settled.valid]
  next new => exact absurd new settled.order

/-! The lines. -/

theorem head_hash {chname : Text} (hash : chname.head? = some '#') : chname.head?.any isDigit = false := by
  rw [hash]
  decide

/-- The line a burst opens with. -/
theorem receive_opening (node : Node) (names : LineNames node.peer.name chname)
    (valid : Mode.Valid node.build mode) (lower : 0 ≤ newts) (upper : newts ≤ Decimal.longMax)
    (channel : Option Chan) (list : Text) :
    node.receive channel (sjoinOpening node.peer.name chname newts (channelModes node.build true mode).1
        (channelModes node.build true mode).2 ++ list) =
      sjoinChannel node.world channel.isNone (channel.getD (.create chname node.timeofday)) newts
        (mode.sent node.build) list := by
  have read : Decimal.atol (print newts) = newts := Decimal.atol_print (by unfold Decimal.longMax; omega) upper
  have named : ¬ chname.head? ≠ some '#' := not_not.mpr names.chanHash
  have modes := readModes_sent valid list
  obtain ⟨para, args, split⟩ : ∃ para args, mode.paras.map Prod.snd ++ [list] = para :: args :=
    List.exists_cons_of_ne_nil (by simp)
  rw [split] at modes
  simp only [Node.receive, words_opening names valid newts list, if_true, mSjoin, head_hash names.chanHash,
    Bool.false_eq_true, false_and, if_false, split, named, modes, read]

/-- Every other SJOIN line of it. -/
theorem receive_continuation (node : Node) (names : LineNames node.peer.name chname) (lower : 0 ≤ newts)
    (upper : newts ≤ Decimal.longMax) (chptr : Chan) (list : Text) :
    node.receive (some chptr) (sjoinContinuation node.peer.name chname newts ++ list) =
      sjoinChannel node.world false chptr newts .clear list := by
  have read : Decimal.atol (print newts) = newts := Decimal.atol_print (by unfold Decimal.longMax; omega) upper
  have named : ¬ chname.head? ≠ some '#' := not_not.mpr names.chanHash
  have modes : readModes node.build ['0'] .clear [list] = some (.clear, [list]) := by
    rw [readModes_skip (.inr rfl), readModes]
  simp only [Node.receive, words_continuation names newts list, if_true, mSjoin, head_hash names.chanHash,
    Bool.false_eq_true, false_and, if_false, named, modes, read, Option.isNone_some, Option.getD_some]

/-! The whole burst. -/

/-- Members that can join a channel from behind a link. -/
structure Arriving (world : World) (chptr : Chan) (new : List Member) : Prop where
  nicks : ∀ l ∈ new, NickName l.name
  known : World.Knows world new
  distinct : (new.map Member.name).Nodup
  fresh : ∀ l ∈ new, l.name ∉ chptr.members.map Member.name

theorem Arriving.perm (arriving : Arriving world chptr new) (perm : other.Perm new) : Arriving world chptr other where
  nicks l member := arriving.nicks l (perm.mem_iff.mp member)
  known l member := arriving.known l (perm.mem_iff.mp member)
  distinct := (perm.map Member.name).nodup_iff.mpr arriving.distinct
  fresh l member := arriving.fresh l (perm.mem_iff.mp member)

/-- Some of them join first. -/
theorem Arriving.split {first rest : List Member} (arriving : Arriving world chptr (first ++ rest)) (keep : Bool)
    (sameNames : after.members.map Member.name = chptr.members.map Member.name) :
    Arriving world chptr first ∧
      Arriving world (Chan.addMembers after (first.map (Member.arrives keep)).reverse) rest := by
  obtain ⟨nicks, known, distinct, fresh⟩ := arriving
  rw [List.map_append, List.nodup_append] at distinct
  obtain ⟨firstDistinct, restDistinct, apart⟩ := distinct
  constructor
  · exact ⟨fun l member => nicks l (List.mem_append_left _ member),
      fun l member => known l (List.mem_append_left _ member), firstDistinct,
      fun l member => fresh l (List.mem_append_left _ member)⟩
  · refine ⟨fun l member => nicks l (List.mem_append_right _ member),
      fun l member => known l (List.mem_append_right _ member), restDistinct, ?_⟩
    intro l member joined
    simp only [Chan.addMembers, List.map_append, List.map_reverse, List.map_map, List.mem_append,
      List.mem_reverse, List.mem_map, Function.comp_apply, arrives_name] at joined
    obtain ⟨other, inside, same⟩ | ⟨other, inside, same⟩ := joined
    · exact apart _ (List.mem_map.mpr ⟨other, inside, rfl⟩) _ (List.mem_map.mpr ⟨l, member, rfl⟩) same
    · have old : l.name ∈ chptr.members.map Member.name := by
        rw [← sameNames]
        exact List.mem_map.mpr ⟨other, inside, same⟩
      exact fresh l (List.mem_append_right _ member) old

theorem Chan.Settled.addMembers (settled : Chan.Settled build newts chptr) (new : List Member) :
    (chptr.addMembers new).Settled build newts :=
  ⟨settled.valid, settled.same, settled.order⟩

/-- The SJOIN lines behind the first. -/
theorem receive_continuations (node : Node) (names : LineNames node.peer.name chname) (lower : 0 ≤ newts)
    (upper : newts ≤ Decimal.longMax) (chunks : List (List Member))
    (settled : Chan.Settled node.build newts chptr) (arriving : Arriving node.world chptr chunks.flatten) :
    (chunks.map (sjoinContinuation node.peer.name chname newts ++ chunkText ·)).foldl node.receive (some chptr) =
      some (chptr.addMembers
        (chunks.flatten.map (Member.arrives (keepsNew false newts chptr.channelts))).reverse) := by
  induction chunks generalizing chptr with
  | nil => rfl
  | cons chunk chunks ih =>
    obtain ⟨now, later⟩ := arriving.split (keepsNew false newts chptr.channelts) rfl
    rw [List.map_cons, List.foldl_cons, receive_continuation node names lower upper,
      sjoinChannel_chunk now.nicks now.known now.distinct now.fresh (by simp), settled.merge,
      ih (settled.addMembers _) later]
    simp [Chan.addMembers]

/-- The channel a line of the burst works on. -/
def Node.getChannel (node : Node) (channel : Option Chan) (chname : Text) : Chan :=
  channel.getD (.create chname node.timeofday)

/-- A channel after the SJOIN lines for it. -/
def Chan.joined (build : Build) (ours theirs : Chan) (created : Bool) : Chan :=
  (ours.merge created theirs.channelts (theirs.mode.sent build)).addMembers
    ((burstOrder theirs.members).map
      (Member.arrives (keepsNew created theirs.channelts ours.channelts))).reverse

/-- A channel after the burst. -/
def Chan.absorb (build : Build) (ours theirs : Chan) (created : Bool) : Chan :=
  let joined := ours.joined build theirs created
  if theirs.channelts ≠ 0 ∧ theirs.channelts > joined.channelts then joined
  else theirs.entries.foldl addEntry joined

theorem burstOrder_perm (members : List Member) : (burstOrder members).Perm members := by
  unfold burstOrder
  split
  · exact .refl _
  next anop found => exact (List.perm_cons_erase (List.mem_of_find?_eq_some found)).symm

/-- A mask as a list keeps it. -/
structure Stored (mask : Text) : Prop where
  word : Word mask
  pretty : Mask.prettyMask mask = mask

/-- What the functions of `channel.c` make sure of in a channel. -/
structure Chan.Valid (build : Build) (chptr : Chan) : Prop where
  word : Word chptr.chname
  hash : chptr.chname.head? = some '#'
  short : chptr.chname.length ≤ channelLen
  tsLow : 0 ≤ chptr.channelts
  tsHigh : chptr.channelts ≤ Decimal.longMax
  mode : Mode.Valid build chptr.mode
  nicks : ∀ l ∈ chptr.members, NickName l.name
  distinct : (chptr.members.map Member.name).Nodup
  stored : ∀ list, ∀ mask ∈ chptr.masks list, Stored mask
  apart : ∀ list, (chptr.masks list).Pairwise fun first second => mycmp first second = false

theorem mem_entries : (list, mask) ∈ Chan.entries chptr ↔ mask ∈ chptr.masks list := by
  cases list <;> simp [Chan.entries, Chan.masks]

theorem foldl_addEntry_frame (chptr : Chan) (entries : List (MaskList × Text)) :
    (entries.foldl addEntry chptr).chname = chptr.chname ∧
      (entries.foldl addEntry chptr).channelts = chptr.channelts ∧
      (entries.foldl addEntry chptr).mode = chptr.mode ∧
      (entries.foldl addEntry chptr).members = chptr.members := by
  induction entries generalizing chptr with
  | nil => exact ⟨rfl, rfl, rfl, rfl⟩
  | cons entry entries ih =>
    obtain ⟨chname, channelts, mode, members⟩ := addEntry_frame chptr entry
    rw [List.foldl_cons, ← chname, ← channelts, ← mode, ← members]
    exact ih (addEntry chptr entry)

/-- The MODE lines of a burst. -/
theorem receive_listLines (node : Node) (names : LineNames node.peer.name chname)
    (short : chptr.chname.length ≤ channelLen) (lower : 0 ≤ newts) (upper : newts ≤ Decimal.longMax)
    (batches : List (List (MaskList × Text))) (good : ∀ one ∈ batches, Batch one)
    (stored : ∀ entry ∈ batches.flatten, Stored entry.2) :
    (batches.map fun one => modeLine node.peer.name chname newts (ListBuf.of one).modebuf
        (ListBuf.of one).parabuf).foldl node.receive (some chptr) =
      some (if newts ≠ 0 ∧ newts > chptr.channelts then chptr else batches.flatten.foldl addEntry chptr) := by
  induction batches generalizing chptr with
  | nil => simp
  | cons batch batches ih =>
    have goodNow := good batch (List.mem_cons_self ..)
    have goodLater := fun one member => good one (List.mem_cons_of_mem batch member)
    have storedNow : ∀ entry ∈ batch, Word entry.2 ∧ Mask.prettyMask entry.2 = entry.2 := by
      intro entry member
      obtain ⟨word, pretty⟩ := stored entry (by simp [member])
      exact ⟨word, pretty⟩
    have storedLater : ∀ entry ∈ batches.flatten, Stored entry.2 := by
      intro entry member
      apply stored
      rw [List.flatten_cons]
      exact List.mem_append_right _ member
    rw [List.map_cons, List.foldl_cons, receive_listLine node names short lower upper goodNow storedNow]
    by_cases younger : newts ≠ 0 ∧ newts > chptr.channelts
    · rw [if_pos younger, ih short goodLater storedLater, if_pos younger, if_pos younger]
    · obtain ⟨chname', channelts, -, -⟩ := foldl_addEntry_frame chptr batch
      rw [if_neg younger, ih (by rwa [chname']) goodLater storedLater, channelts, if_neg younger, if_neg younger,
        List.flatten_cons, List.foldl_append]

/-- All SJOIN lines of a burst. -/
theorem receive_sjoins (node : Node) (names : LineNames node.peer.name theirs.chname)
    (valid : theirs.Valid node.build) (some : theirs.members ≠ []) (channel : Option Chan)
    (mode : (node.getChannel channel theirs.chname).mode.Valid node.build)
    (arriving : Arriving node.world (node.getChannel channel theirs.chname) theirs.members) :
    (memberLines (sjoinContinuation node.peer.name theirs.chname theirs.channelts)
      (sjoinOpening node.peer.name theirs.chname theirs.channelts (channelModes node.build true theirs.mode).1
        (channelModes node.build true theirs.mode).2) 0 (burstOrder theirs.members)).foldl node.receive channel =
      Option.some ((node.getChannel channel theirs.chname).joined node.build theirs channel.isNone) := by
  obtain ⟨first, rest, members, firstSome, lines⟩ := memberLines_chunks
    (sjoinContinuation node.peer.name theirs.chname theirs.channelts)
    (sjoinOpening node.peer.name theirs.chname theirs.channelts (channelModes node.build true theirs.mode).1
      (channelModes node.build true theirs.mode).2) 0 (burstOrder theirs.members)
  have perm := burstOrder_perm theirs.members
  have nonempty : first ≠ [] := by
    intro none
    apply some
    rw [members, none, firstSome rfl none] at perm
    exact List.nil_perm.mp perm
  have all := arriving.perm perm
  rw [members] at all
  obtain ⟨now, later⟩ := all.split
    (keepsNew channel.isNone theirs.channelts (node.getChannel channel theirs.chname).channelts)
    (merge_names _ channel.isNone theirs.channelts (theirs.mode.sent node.build))
  have settled := Chan.Settled.of_merge mode (sent_valid valid.mode) channel.isNone theirs.channelts
  have opening := receive_opening node names valid.mode valid.tsLow valid.tsHigh channel (chunkText first)
  rw [← Node.getChannel, sjoinChannel_chunk now.nicks now.known now.distinct now.fresh (fun _ => nonempty)]
    at opening
  rw [lines, if_neg (fun empty => nonempty empty.2), List.singleton_append, List.foldl_cons, opening,
    receive_continuations node names valid.tsLow valid.tsHigh rest (settled.addMembers _) later, Chan.joined,
    members]
  simp only [Chan.addMembers, merge_channelts, keepsNew_mergeTs, List.map_append, List.reverse_append,
    List.append_assoc]

theorem Chan.Valid.fits (valid : Chan.Valid build chptr) :
    ∀ entry ∈ chptr.entries, entry.2 ≠ [] ∧ entry.2.length + 20 < modeBufLen := by
  intro entry member
  obtain ⟨word, pretty⟩ := valid.stored entry.1 entry.2 (mem_entries.mp member)
  have bound := Mask.length_prettyMask_le entry.2
  rw [pretty] at bound
  refine ⟨word.nonempty, ?_⟩
  simp only [nickLen, userLen, hostLen, modeBufLen] at bound ⊢
  omega

/-- All MODE lines of it. -/
theorem receive_lists {theirs : Chan} (node : Node) (names : LineNames node.peer.name theirs.chname)
    (valid : theirs.Valid node.build) (short : chptr.chname.length ≤ channelLen) :
    ((listLoop .empty theirs.entries).map fun buf =>
        modeLine node.peer.name theirs.chname theirs.channelts buf.modebuf buf.parabuf).foldl node.receive
        (some chptr) =
      some (if theirs.channelts ≠ 0 ∧ theirs.channelts > chptr.channelts then chptr
        else theirs.entries.foldl addEntry chptr) := by
  have none : ∀ entry ∈ ([] : List (MaskList × Text)), entry.2 ≠ [] := by simp
  obtain ⟨batches, entries, good, lists⟩ := listLoop_batches valid.fits none (by decide) (by decide)
  rw [List.nil_append] at entries
  have stored : ∀ entry ∈ batches.flatten, Stored entry.2 := by
    intro entry member
    rw [← entries] at member
    exact valid.stored entry.1 entry.2 (mem_entries.mp member)
  rw [← ListBuf.of_nil, lists, List.map_map]
  exact (receive_listLines node names short valid.tsLow valid.tsHigh batches good stored).trans
    (by rw [← entries])

/-- What is left of a channel when all lines of a burst about it have come. -/
theorem receive_burst (node : Node) (names : LineNames node.peer.name theirs.chname)
    (valid : theirs.Valid node.build) (some : theirs.members ≠ []) (channel : Option Chan)
    (mode : (node.getChannel channel theirs.chname).mode.Valid node.build)
    (short : (node.getChannel channel theirs.chname).chname.length ≤ channelLen)
    (arriving : Arriving node.world (node.getChannel channel theirs.chname) theirs.members) :
    (sendChannelModes node.build node.peer.name theirs).foldl node.receive channel =
      Option.some ((node.getChannel channel theirs.chname).absorb node.build theirs channel.isNone) := by
  have hash : ¬ theirs.chname.head? ≠ Option.some '#' := not_not.mpr valid.hash
  have joinedShort : ((node.getChannel channel theirs.chname).joined node.build theirs
      channel.isNone).chname.length ≤ channelLen := by
    simpa [Chan.joined, Chan.addMembers] using short
  simp only [sendChannelModes, hash, if_false]
  rw [List.foldl_append, receive_sjoins node names valid some channel mode arriving,
    receive_lists node names valid joinedShort]
  rfl

end SolidIrcd.Channel
