import SolidIrcd.Channel.BanCache
import SolidIrcd.Channel.Edit
import SolidIrcd.Lib.Batch

/-! The other two functions of `channel.c` that compare a client with the bans of a channel:
`nick_is_banned`, and `remove_matching_bans` with the MODE lines it sends. -/

namespace SolidIrcd.Channel.BanCache

open Scan (Text)

/-- `MTYP_FULL`, `MTYP_USERHOST` and `MTYP_HOST`. -/
inductive MaskType where
  | full | userHost | host
  deriving DecidableEq, Repr

/-- The type `add_banid` and `add_exempt_id` store with a mask. -/
def maskType : Text → MaskType
  | '*' :: '!' :: '*' :: '@' :: _ => .host
  | '*' :: '!' :: _ => .userHost
  | _ => .full

/-- One of the four texts of a client matches. -/
def Identity.hit (cptr : Identity) (mask : Text) : Bool := cptr.texts.any (Mask.matchMask mask)

/-- `nick_is_banned`. -/
def nickIsBanned (chptr : Chan) (nick : Text) (cptr : Identity) : Option Text :=
  let renamed := { cptr with name := nick }
  if cptr.person = false then none
  else if chptr.banexemptList.any fun exempt => maskType exempt = .full && renamed.hit exempt then none
  else chptr.banlist.find? fun ban => maskType ban = .full && renamed.hit ban

/-- A full ban matches the client, no full exempt does, but another exempt. -/
def Excused (chptr : Chan) (cptr : Identity) : Prop :=
  (∃ ban ∈ chptr.banlist, maskType ban = .full ∧ cptr.hit ban = true) ∧
    (∀ exempt ∈ chptr.banexemptList, maskType exempt = .full → cptr.hit exempt = false) ∧
      ∃ exempt ∈ chptr.banexemptList, maskType exempt ≠ .full ∧ cptr.hit exempt = true

theorem isBanned_iff (cptr : Identity) (chptr : Chan) :
    isBanned cptr chptr = true ↔ cptr.person = true ∧ (∀ exempt ∈ chptr.banexemptList, cptr.hit exempt = false) ∧
      ∃ ban ∈ chptr.banlist, cptr.hit ban = true := by
  change (_ && !chptr.banexemptList.any cptr.hit && chptr.banlist.any cptr.hit) = true ↔ _
  simp only [Bool.and_eq_true, Bool.not_eq_true', List.any_eq_false, List.any_eq_true, Bool.not_eq_true, and_assoc]

theorem nickIsBanned_isSome_iff (chptr : Chan) (nick : Text) (cptr : Identity) :
    (nickIsBanned chptr nick cptr).isSome = true ↔ cptr.person = true ∧
      (∀ exempt ∈ chptr.banexemptList, maskType exempt = .full → Identity.hit { cptr with name := nick } exempt = false) ∧
        ∃ ban ∈ chptr.banlist, maskType ban = .full ∧ Identity.hit { cptr with name := nick } ban = true := by
  unfold nickIsBanned
  by_cases person : cptr.person = false
  · simp [person]
  · rw [if_neg person]
    rw [Bool.not_eq_false] at person
    split
    next excused =>
      obtain ⟨exempt, member, both⟩ := List.any_eq_true.mp excused
      simp only [Bool.and_eq_true, decide_eq_true_eq] at both
      simp only [Option.isSome_none, Bool.false_eq_true, false_iff]
      rintro ⟨-, free, -⟩
      rw [free exempt member both.1] at both
      cases both.2
    next free =>
      have free' : ∀ exempt ∈ chptr.banexemptList, maskType exempt = .full →
          Identity.hit { cptr with name := nick } exempt = false := by
        intro exempt member full
        rw [← Bool.not_eq_true]
        intro hit
        apply free
        exact List.any_eq_true.mpr ⟨exempt, member, by simp [full, hit]⟩
      simp only [List.find?_isSome, Bool.and_eq_true, decide_eq_true_eq]
      constructor
      · exact fun banned => ⟨person, free', banned⟩
      · exact fun banned => banned.2.2

/-- `nick_is_banned` answers as `is_banned` does for the client under the new nickname, with
full bans alone, except where an exempt of another type is all that excuses the client. -/
theorem nickIsBanned_agrees (chptr : Chan) (nick : Text) (cptr : Identity) :
    (((nickIsBanned chptr nick cptr).isSome = true → isBanned { cptr with name := nick } chptr = true) ∧
      (isBanned { cptr with name := nick } chptr = true →
        (∃ ban ∈ chptr.banlist, maskType ban = .full ∧ Identity.hit { cptr with name := nick } ban = true) →
          (nickIsBanned chptr nick cptr).isSome = true)) ↔
      ¬(cptr.person = true ∧ Excused chptr { cptr with name := nick }) := by
  rw [nickIsBanned_isSome_iff, isBanned_iff]
  constructor
  · rintro ⟨only, -⟩ ⟨person, banned, free, exempt, member, -, hit⟩
    obtain ⟨-, none, -⟩ := only ⟨person, free, banned⟩
    rw [none exempt member] at hit
    cases hit
  · intro agreed
    refine ⟨?_, ?_⟩
    · rintro ⟨person, free, ban, listed, full, hit⟩
      refine ⟨person, ?_, ban, listed, hit⟩
      intro exempt member
      rw [← Bool.not_eq_true]
      intro excuses
      apply agreed
      refine ⟨person, ⟨ban, listed, full, hit⟩, free, exempt, member, ?_, excuses⟩
      intro full'
      rw [free exempt member full'] at excuses
      cases excuses
    · rintro ⟨person, none, -⟩ banned
      exact ⟨person, fun exempt member _ => none exempt member, banned⟩

theorem hit_of_host (text : Mask.makeNickUserHost (some cptr.name) (some cptr.username) (some cptr.host) = full)
    (found : Mask.matchMask mask full = true) : Identity.hit cptr mask = true := by
  apply List.any_eq_true.mpr
  exact ⟨full, text ▸ List.mem_cons_self .., found⟩

private def bad : Identity := { ann with name := "bad".toList }

/-- A ban on a nickname, and an exempt of everybody on a host. -/
private def excusing : Chan := ⟨["bad!a@h.net".toList], ["*!*@h.net".toList], 2, []⟩

/-- `ann` may not take the name, though nothing would ban her under it. -/
theorem exempt_host_refused :
    (nickIsBanned excusing "bad".toList ann).isSome = true ∧ isBanned { ann with name := "bad".toList } excusing = false := by
  have text : Mask.makeNickUserHost (some bad.name) (some bad.username) (some bad.host) = "bad!a@h.net".toList := by decide
  have banned : bad.hit "bad!a@h.net".toList = true :=
    hit_of_host text (Mask.matchMask_of_mycmp (mycmp_refl _) (by decide))
  have exempt : bad.hit "*!*@h.net".toList = true := by
    apply hit_of_host text
    simp [Mask.matchMask, Mask.matchCall_skip, Mask.matchLoop, Mask.skipCommon, Mask.splitFirst, Mask.maxCalls]
  refine ⟨(nickIsBanned_isSome_iff ..).mpr ⟨rfl, ?_, _, List.mem_cons_self .., by decide, banned⟩, ?_⟩
  · intro mask member full
    rw [List.mem_singleton.mp member] at full
    exact absurd full (by decide)
  · rw [← Bool.not_eq_true, isBanned_iff]
    rintro ⟨-, none, -⟩
    have free : bad.hit "*!*@h.net".toList = false := none _ (List.mem_cons_self ..)
    rw [free] at exempt
    cases exempt

def maxModeParams : Nat := maxPara - 4

/-- The two texts `remove_matching_bans` matches. -/
def Identity.targets (cptr : Identity) : List Text :=
  [cptr.host, cptr.hostip].map fun host => Mask.makeNickUserHost (some cptr.name) (some cptr.username) (some host)

def Identity.target (cptr : Identity) (mask : Text) : Bool := cptr.targets.any (Mask.matchMask mask)

/-- The buffers `remove_matching_bans` starts with. -/
def removalBuf : ListBuf := ⟨['-'], [], 0⟩

/-- What `remove_matching_bans` does with its buffers for one ban, and the buffers it sends. -/
def removalStep (buf : ListBuf) (banstr : Text) : Option ListBuf × ListBuf :=
  let fits := decide (buf.parabuf.length + banstr.length + 10 < modeBufLen)
  let added := if fits then ⟨buf.modebuf ++ ['b'], addPara buf.parabuf banstr, buf.count + 1⟩ else buf
  if (!fits && buf.parabuf ≠ []) || added.count = maxTsModeParams then
    (some added, if added.count ≠ maxTsModeParams then ⟨['-', 'b'], banstr, 1⟩ else removalBuf)
  else (none, added)

/-- What is sent behind the loop. -/
def removalClose (buf : ListBuf) : List ListBuf := if buf.parabuf ≠ [] then [buf] else []

/-- The loop of `remove_matching_bans` through the bans that are left, with the buffers it sends. -/
def removalLoop (cptr : Identity) : Chan → ListBuf → List Text → Chan × List ListBuf
  | chptr, buf, [] => (chptr, removalClose buf)
  | chptr, buf, ban :: bnext =>
    if cptr.target ban then
      let (after, lines) := removalLoop cptr (chptr.del .ban ban) (removalStep buf ban).2 bnext
      (after, (removalStep buf ban).1.toList ++ lines)
    else removalLoop cptr chptr buf bnext

def removeMatchingBans (chptr : Chan) (cptr : Identity) : Chan × List ListBuf :=
  if cptr.person = false then (chptr, []) else removalLoop cptr chptr removalBuf chptr.banlist

/-- The parameters of a MODE line. -/
def params (line : ListBuf) : List Text := line.parabuf.splitOn ' '

/-- What a call takes off the list is what its lines say, mask by mask. -/
structure Announced (before after : Chan) (lines : List ListBuf) : Prop where
  once : (lines.flatMap params ++ after.banlist).Perm before.banlist
  letters : ∀ line ∈ lines, line.modebuf = '-' :: List.replicate (params line).length 'b'
  few : ∀ line ∈ lines, (params line).length ≤ maxModeParams - 1
  fits : ∀ line ∈ lines, line.modebuf.length < realModeBufLen ∧ line.parabuf.length < realModeBufLen

/-- The buffers with these masks. -/
def removalOf (batch : List Text) : ListBuf :=
  ⟨'-' :: List.replicate batch.length 'b', batch.foldl addPara [], batch.length⟩

structure Pending (batch : List Text) : Prop where
  some : ∀ mask ∈ batch, mask ≠ []
  few : batch.length < maxTsModeParams
  short : (removalOf batch).parabuf.length < modeBufLen

structure Ready (batch : List Text) : Prop where
  nonempty : batch ≠ []
  few : batch.length ≤ maxTsModeParams
  short : (removalOf batch).parabuf.length < modeBufLen

theorem Pending.nil : Pending [] := ⟨by simp, by decide, by decide⟩

theorem Pending.ready (pending : Pending batch) (nonempty : batch ≠ []) : Ready batch :=
  ⟨nonempty, Nat.le_of_lt pending.few, pending.short⟩

theorem removalOf_concat (batch : List Text) (mask : Text) :
    removalOf (batch ++ [mask]) =
      ⟨(removalOf batch).modebuf ++ ['b'], addPara (removalOf batch).parabuf mask, (removalOf batch).count + 1⟩ := by
  simp [removalOf, List.replicate_succ']

theorem removal_parabuf_eq_nil (some : ∀ mask ∈ batch, mask ≠ []) : (removalOf batch).parabuf = [] ↔ batch = [] := by
  cases batch with
  | nil => simp [removalOf]
  | cons mask batch =>
    have first : addPara [] mask ≠ [] := by simpa [addPara] using some mask (List.mem_cons_self ..)
    simpa [removalOf] using foldl_addPara_ne_nil first batch

theorem removalStep_pushed (pending : Pending batch) (maskSome : mask ≠ []) (maskShort : mask.length + 10 < modeBufLen) :
    Batch.Pushed removalOf Pending Ready batch mask (removalStep (removalOf batch) mask) := by
  have some' : ∀ other ∈ batch ++ [mask], other ≠ [] := by
    intro other member
    rcases List.mem_append.mp member with old | new
    · exact pending.some other old
    · exact List.mem_singleton.mp new ▸ maskSome
  by_cases room : (removalOf batch).parabuf.length + mask.length + 10 < modeBufLen
  · have short : (removalOf (batch ++ [mask])).parabuf.length < modeBufLen := by
      rw [removalOf_concat]
      have longer := length_addPara_le (removalOf batch).parabuf mask
      simp only
      omega
    have count : (removalOf (batch ++ [mask])).count = batch.length + 1 := by simp [removalOf]
    have added : removalStep (removalOf batch) mask =
        if batch.length + 1 = maxTsModeParams then (some (removalOf (batch ++ [mask])), removalOf [])
        else (none, removalOf (batch ++ [mask])) := by
      simp only [removalStep, room, decide_true, if_true, Bool.not_true, Bool.false_and, Bool.false_or,
        decide_eq_true_eq, ← removalOf_concat, count]
      by_cases full : batch.length + 1 = maxTsModeParams
      · simp [full, removalBuf, removalOf]
      · simp [full]
    rw [added]
    split
    next full => exact .full ⟨by simp, by simp [full], short⟩ .nil
    next open' =>
      have few := pending.few
      refine .kept ⟨some', ?_, short⟩
      rw [List.length_append, List.length_singleton]
      omega
  · have parabuf : (removalOf batch).parabuf ≠ [] := by
      intro none
      simp only [none, List.length_nil] at room
      omega
    have nonempty : batch ≠ [] := (removal_parabuf_eq_nil pending.some).not.mp parabuf
    have count : (removalOf batch).count ≠ maxTsModeParams := Nat.ne_of_lt pending.few
    have fresh : removalOf [mask] = ⟨['-', 'b'], mask, 1⟩ := by simp [removalOf, addPara]
    have next : removalStep (removalOf batch) mask = (some (removalOf batch), removalOf [mask]) := by
      simp [removalStep, room, parabuf, count, fresh]
    have single : [mask].length < maxTsModeParams := by simp [maxTsModeParams, maxPara]
    rw [next]
    refine .overflow (pending.ready nonempty) ⟨by simpa using maskSome, single, ?_⟩
    simp only [fresh]
    omega

theorem removalClose_closed (pending : Pending batch) :
    Batch.Closed removalOf Ready batch (removalClose (removalOf batch)) := by
  unfold removalClose
  by_cases none : batch = []
  · subst none
    exact .nothing
  · rw [if_pos ((removal_parabuf_eq_nil pending.some).not.mpr none)]
    exact .rest (pending.ready none)

/-- The bans the loop takes. -/
theorem removalLoop_lines (chptr : Chan) (buf : ListBuf) (bans : List Text) :
    (removalLoop cptr chptr buf bans).2 =
      Batch.loop removalStep removalClose buf (bans.filter cptr.target) := by
  induction bans generalizing chptr buf with
  | nil => rfl
  | cons ban bnext ih =>
    rw [removalLoop]
    by_cases taken : cptr.target ban = true
    · rw [if_pos taken, List.filter_cons_of_pos taken, Batch.loop, ← ih]
    · rw [if_neg taken, List.filter_cons_of_neg taken, ih]

/-- An entry that compares equal would have been taken before. -/
theorem delId_target (kept : ∀ ban ∈ first, Identity.target cptr ban = false) (taken : cptr.target ban = true)
    (bans : List Text) : delId (first ++ ban :: bans) ban = first ++ bans := by
  unfold delId
  rw [List.eraseP_append_right, List.eraseP_cons_of_pos (mycmp_refl ban)]
  intro old member same
  have alike : cptr.target ban = cptr.target old :=
    congrArg (List.any cptr.targets) (funext fun text => Mask.matchMask_congr same text)
  rw [kept old member, taken] at alike
  cases alike

theorem removalLoop_banlist (kept : ∀ ban ∈ first, Identity.target cptr ban = false) (bans : List Text)
    (listed : chptr.banlist = first ++ bans) (buf : ListBuf) :
    (removalLoop cptr chptr buf bans).1.banlist = first ++ bans.filter fun ban => !cptr.target ban := by
  induction bans generalizing chptr buf first with
  | nil => simpa [removalLoop] using listed
  | cons ban bnext ih =>
    rw [removalLoop]
    by_cases taken : cptr.target ban = true
    · rw [if_pos taken, List.filter_cons_of_neg (by simp [taken])]
      have there : chptr.banlist.any (mycmp ban) = true := by
        rw [listed]
        exact List.any_eq_true.mpr ⟨ban, by simp, mycmp_refl ban⟩
      apply ih kept
      rw [Chan.del, if_pos there, listed]
      exact delId_target kept taken bnext
    · rw [if_neg taken, List.filter_cons_of_pos (by simp [taken])]
      have kept' : ∀ other ∈ first ++ [ban], cptr.target other = false := by
        intro other member
        rcases List.mem_append.mp member with old | new
        · exact kept other old
        · rw [List.mem_singleton.mp new]
          exact Bool.eq_false_iff.mpr taken
      rw [ih kept' (by simpa using listed)]
      simp

theorem removalLoop_left (chptr : Chan) (cptr : Identity) :
    (removalLoop cptr chptr removalBuf chptr.banlist).1.banlist = chptr.banlist.filter fun ban => !cptr.target ban := by
  have none : ∀ ban ∈ ([] : List Text), cptr.target ban = false := by simp
  exact removalLoop_banlist none chptr.banlist rfl removalBuf

theorem foldl_addPara_intercalate (some : ∀ mask ∈ para :: paras, mask ≠ []) :
    (para :: paras).foldl addPara [] = [' '].intercalate (para :: paras) := by
  have step : ∀ pbuf : Text, pbuf ≠ [] → paras.foldl addPara pbuf = [' '].intercalate (pbuf :: paras) := by
    have later := fun mask member => some mask (List.mem_cons_of_mem _ member)
    clear some
    induction paras with
    | nil => simp
    | cons next paras ih =>
      intro pbuf nonempty
      have joined : addPara pbuf next = pbuf ++ ' ' :: next := if_neg nonempty
      rw [List.foldl_cons, ih (fun mask member => later mask (List.mem_cons_of_mem _ member)) _ (by simp [joined]),
        joined, List.intercalate_cons_cons]
      cases paras <;> simp [List.intercalate_cons_cons]
  exact step para (some para (List.mem_cons_self ..))

theorem params_removalOf (ready : Ready batch) (words : ∀ mask ∈ batch, mask ≠ [] ∧ ' ' ∉ mask) :
    params (removalOf batch) = batch := by
  obtain ⟨mask, rest, rfl⟩ := List.exists_cons_of_ne_nil ready.nonempty
  rw [params, removalOf, foldl_addPara_intercalate fun mask member => (words mask member).1]
  exact List.splitOn_intercalate ' ' (fun mask member => (words mask member).2) (List.cons_ne_nil _ _)

/-- The lines of the loop for masks that MODE has put on the list. -/
theorem removalLoop_announced (chptr : Chan) (cptr : Identity)
    (stored : ∀ ban ∈ chptr.banlist, ∃ mask, ban = Mask.canonical mask) :
    Announced chptr (removalLoop cptr chptr removalBuf chptr.banlist).1
      (removalLoop cptr chptr removalBuf chptr.banlist).2 := by
  have mask_of : ∀ ban ∈ chptr.banlist.filter cptr.target, ban ≠ [] ∧ ' ' ∉ ban ∧ ban.length + 10 < modeBufLen := by
    intro ban member
    obtain ⟨mask, rfl⟩ := stored ban (List.mem_of_mem_filter member)
    have short : (Mask.canonical mask).length ≤ (Mask.prettyMask mask).length := Mask.length_collapse_le _
    have pretty := Mask.length_prettyMask_le mask
    refine ⟨canonical_ne_nil mask, ?_, ?_⟩
    · intro space
      exact Mask.prettyMask_solid mask (Mask.mem_of_mem_collapse space)
    · simp only [nickLen, userLen, hostLen] at pretty
      simp only [modeBufLen]
      omega
  have pushes : ∀ batch, Pending batch → ∀ ban ∈ chptr.banlist.filter cptr.target,
      Batch.Pushed removalOf Pending Ready batch ban (removalStep (removalOf batch) ban) :=
    fun batch pending ban member => removalStep_pushed pending (mask_of ban member).1 (mask_of ban member).2.2
  obtain ⟨batches, split, ready, lines⟩ := Batch.loop_batches removalStep removalClose _ pushes
    (fun _ => removalClose_closed) Pending.nil
  have sent : (removalLoop cptr chptr removalBuf chptr.banlist).2 = batches.map removalOf :=
    (removalLoop_lines chptr removalBuf chptr.banlist).trans lines
  have left := removalLoop_left chptr cptr
  have words : ∀ batch ∈ batches, params (removalOf batch) = batch := by
    intro batch member
    apply params_removalOf (ready batch member)
    intro mask inside
    have listed : mask ∈ chptr.banlist.filter cptr.target := by
      rw [← List.nil_append (chptr.banlist.filter _), ← split]
      exact List.mem_flatten_of_mem member inside
    exact ⟨(mask_of mask listed).1, (mask_of mask listed).2.1⟩
  rw [sent]
  refine ⟨?_, ?_, ?_, ?_⟩
  · have said : (batches.map removalOf).flatMap params = chptr.banlist.filter cptr.target := by
      rw [List.flatMap_map, ← List.nil_append (chptr.banlist.filter _), ← split, List.flatten_eq_flatMap]
      exact List.flatMap_congr words
    rw [said, left]
    exact List.filter_append_perm cptr.target chptr.banlist
  · intro line member
    obtain ⟨batch, inside, rfl⟩ := List.mem_map.mp member
    rw [words batch inside]
    rfl
  · intro line member
    obtain ⟨batch, inside, rfl⟩ := List.mem_map.mp member
    rw [words batch inside]
    exact (ready batch inside).few
  · intro line member
    obtain ⟨batch, inside, rfl⟩ := List.mem_map.mp member
    have few := (ready batch inside).few
    have short := (ready batch inside).short
    simp only [maxTsModeParams, maxPara, modeBufLen] at few short
    simp only [realModeBufLen]
    refine ⟨?_, by omega⟩
    simp only [removalOf, List.length_cons, List.length_replicate]
    omega

/-- A ban matches the client by its real host or its masked one, and by no text that
`remove_matching_bans` has. -/
def Overlooked (chptr : Chan) (cptr : Identity) : Prop :=
  ∃ ban ∈ chptr.banlist, cptr.hit ban = true ∧ cptr.target ban = false

/-- What `remove_matching_bans` takes off the list it says once, in lines that are in order;
and it leaves no ban of the client, unless one is overlooked. -/
theorem removeMatchingBans_complete (stored : ∀ ban ∈ chptr.banlist, ∃ mask, ban = Mask.canonical mask)
    (cptr : Identity) :
    (isBanned cptr { (removeMatchingBans chptr cptr).1 with banexemptList := [] } = false ∧
      Announced chptr (removeMatchingBans chptr cptr).1 (removeMatchingBans chptr cptr).2) ↔
        ¬(cptr.person = true ∧ Overlooked chptr cptr) := by
  have announced : Announced chptr (removeMatchingBans chptr cptr).1 (removeMatchingBans chptr cptr).2 := by
    unfold removeMatchingBans
    split
    · exact ⟨.refl _, by simp, by simp, by simp⟩
    · exact removalLoop_announced chptr cptr stored
  rw [and_iff_left announced, ← Bool.not_eq_true, isBanned_iff, not_iff_not]
  have unexempt : ∀ exempt ∈ ([] : List Text), cptr.hit exempt = false := by simp
  constructor
  · rintro ⟨person, -, ban, member, hit⟩
    refine ⟨person, ?_⟩
    have list : (removeMatchingBans chptr cptr).1.banlist = chptr.banlist.filter fun ban => !cptr.target ban := by
      rw [removeMatchingBans, if_neg (by simp [person]), removalLoop_left]
    rw [list] at member
    obtain ⟨listed, missed⟩ := List.mem_filter.mp member
    exact ⟨ban, listed, hit, by simpa using missed⟩
  · rintro ⟨person, ban, listed, hit, missed⟩
    refine ⟨person, unexempt, ban, ?_, hit⟩
    rw [removeMatchingBans, if_neg (by simp [person]), removalLoop_left]
    exact List.mem_filter.mpr ⟨listed, by simp [missed]⟩

/-- `ann` behind the masked host she shows. -/
private def masked : Identity := { ann with host := "x.users".toList, maskhost := "x.users".toList }

private def banning : Chan := ⟨["ann!a@h.net".toList], [], 1, []⟩

private theorem banning_stored : ∀ ban ∈ banning.banlist, ∃ mask, ban = Mask.canonical mask := by
  intro ban member
  rw [List.mem_singleton.mp member]
  exact ⟨"ann!a@h.net".toList, by decide +kernel⟩

theorem removeMatchingBans_complete_banned :
    (isBanned ann { (removeMatchingBans banning ann).1 with banexemptList := [] } = false ∧
      Announced banning (removeMatchingBans banning ann).1 (removeMatchingBans banning ann).2) ↔
        ¬(ann.person = true ∧ Overlooked banning ann) := removeMatchingBans_complete banning_stored ann

/-- A ban of her real host stays. -/
theorem real_host_overlooked : (∀ ban ∈ banning.banlist, ∃ mask, ban = Mask.canonical mask) ∧
    isBanned masked { (removeMatchingBans banning masked).1 with banexemptList := [] } = true := by
  refine ⟨banning_stored, ?_⟩
  have real : Mask.makeNickUserHost (some masked.name) (some masked.username) (some masked.realhost) =
      "ann!a@h.net".toList := by decide
  have shown : Mask.makeNickUserHost (some masked.name) (some masked.username) (some masked.host) =
      "ann!a@x.users".toList := by decide
  have address : Mask.makeNickUserHost (some masked.name) (some masked.username) (some masked.hostip) =
      "ann!a@10.0.0.1".toList := by decide
  have missed : masked.target "ann!a@h.net".toList = false := by
    simp only [Identity.target, Identity.targets, List.map_cons, List.map_nil, List.any_cons, List.any_nil, shown, address]
    simp [Mask.matchMask, Mask.matchCall_skip, Mask.matchLoop, Mask.skipCommon, Mask.maxCalls, toUpper]
  have hit : masked.hit "ann!a@h.net".toList = true := by
    apply List.any_eq_true.mpr
    refine ⟨"ann!a@h.net".toList, ?_, Mask.matchMask_of_mycmp (mycmp_refl _) (by decide)⟩
    rw [← real]
    simp [Identity.texts]
  rw [isBanned_iff]
  refine ⟨rfl, by simp, "ann!a@h.net".toList, ?_, hit⟩
  rw [removeMatchingBans, if_neg (by decide), removalLoop_left]
  exact List.mem_filter.mpr ⟨List.mem_singleton.mpr rfl, by rw [missed]; rfl⟩

end SolidIrcd.Channel.BanCache
