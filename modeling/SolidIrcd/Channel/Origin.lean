import SolidIrcd.Channel.Edit
import SolidIrcd.Channel.Absorb

/-! The server of the client: every letter of a MODE of its own either changes
nothing the network shares, or makes one edit that others may make too. -/

namespace SolidIrcd.Channel

open Scan (Text)
open Decimal (atoi print)

/-- A call for a client of this server, who is never U:lined. -/
structure Call.Local (call : Call) : Prop where
  person : call.sptr.isServer = false
  plain : call.sptr.uline = false
  mine : call.sptr.myClient = true

/-- What a pass over a line of the client can count on. -/
structure Pass.Fine (pass : Pass) : Prop where
  keyValid : pass.chptr.mode.key = [] ∨ keyOk pass.chptr.mode.key = true
  masks : ∀ list, ∀ old ∈ pass.chptr.masks list, old.length ≤ Mask.maxCalls

/-- A letter that leaves what the network shares and the two buffers alone. -/
structure Idle (before after : Pass) : Prop where
  core : after.chptr.core = before.chptr.core
  change : after.change = before.change
  mbuf : after.mbuf = before.mbuf
  pbuf : after.pbuf = before.pbuf
  nparams : before.nparams ≤ after.nparams
  nmodes : after.nmodes = before.nmodes

/-- A letter that makes an edit. -/
structure Makes (call : Call) (edit : Edit) (before after : Pass) : Prop extends Wrote edit before after where
  allowed : edit.Allowed call before.chptr before.change
  room : edit.loose = false →
    call.prelen before.chptr + before.mbuf.length + before.pbuf.length + edit.need ≤ realModeBufLen
  few : edit.paras ≠ [] → before.nparams < maxModeParamsUser
  nparams : after.nparams = before.nparams + edit.paras.length
  nmodes : after.nmodes = before.nmodes + 1

/-- What a letter other than a sign comes to. -/
def Goes (call : Call) (letter : Char) (before after : Pass) : Prop :=
  Idle before after ∨ ∃ edit : Edit, edit.letter = letter ∧ Makes call edit before after

section

variable {call : Call} {pass : Pass}

/-- Something is told to the client. -/
theorem Goes.told (call : Call) (letter : Char) (pass : Pass) (errors : List SmErr) (anylistsent : Bool)
    (replies : List Reply) :
    Goes call letter pass { pass with errors := errors, anylistsent := anylistsent, replies := replies } :=
  .inl ⟨rfl, rfl, rfl, rfl, Nat.le_refl _, rfl⟩

/-- A letter is remembered, and nothing more. -/
theorem Goes.saw (call : Call) (letter : Char) (pass : Pass) (seenalready : List Char) (replies : List Reply) :
    Goes call letter pass { pass with seenalready := seenalready, replies := replies } :=
  .inl ⟨rfl, rfl, rfl, rfl, Nat.le_refl _, rfl⟩

/-- A parameter is taken, and perhaps nothing more. -/
theorem Goes.took (call : Call) (letter : Char) (pass : Pass) (rest : List Text) (errors : List SmErr)
    (seenalready : List Char) (replies : List Reply) :
    Goes call letter pass
      { pass.next rest with errors := errors, replies := replies, seenalready := seenalready } :=
  .inl ⟨rfl, rfl, rfl, rfl, Nat.le_succ _, rfl⟩

theorem Call.Local.level (client : call.Local) (passes : ¬ call.checkLevel rlevel = true) : rlevel ≤ call.level := by
  simpa [Call.checkLevel, client.person] using passes

theorem origin_ssl (client : call.Local) (label : caseOf call.build 'S' = .ssl) :
    Goes call 'S' pass (sslMode call pass) := by
  unfold sslMode
  split
  · exact .told call 'S' pass _ _ _
  next passes =>
    simp only [client.plain, Bool.not_false, Bool.true_and, Bool.or_eq_true, Bool.not_eq_true', not_or,
      Bool.not_eq_false] at passes
    refine .inr ⟨.ssl, rfl, ⟨rfl, rfl, rfl, rfl⟩, ?_, ?_, ?_, rfl, rfl⟩
    · exact ⟨label, client.level passes.1, passes.2⟩
    · exact fun guarded => absurd guarded (by decide)
    · exact fun some => absurd rfl some

theorem origin_rsl (client : call.Local) (label : caseOf call.build 'D' = .rsl) :
    Goes call 'D' pass (rslMode call pass) := by
  unfold rslMode
  split
  · exact .told call 'D' pass _ _ _
  · split
    · exact .told call 'D' pass _ _ _
    next passes =>
      simp only [client.mine, Bool.true_and, Bool.and_eq_true, Bool.not_eq_true', not_and, Bool.not_eq_false] at passes
      refine .inr ⟨.rsl, rfl, ⟨rfl, rfl, rfl, rfl⟩, ⟨label, passes⟩, ?_, ?_, rfl, rfl⟩
      · exact fun guarded => absurd guarded (by decide)
      · exact fun some => absurd rfl some

theorem origin_operOnly (client : call.Local) : Goes call 'O' pass (operMode call pass) := by
  unfold operMode
  split
  · exact .told call 'O' pass _ _ _
  next passes =>
    split
    · exact .told call 'O' pass _ _ _
    · simp only [client.plain, Bool.not_false, Bool.true_and, Bool.or_eq_true, Bool.not_eq_true', decide_eq_true_eq,
        not_or, Bool.not_eq_false, Nat.not_lt] at passes
      refine .inr ⟨.operOnly, rfl, ⟨rfl, rfl, rfl, rfl⟩, passes, ?_, ?_, rfl, rfl⟩
      · exact fun guarded => absurd guarded (by decide)
      · exact fun some => absurd rfl some

/-- The flags of the table. -/
theorem origin_flag (client : call.Local) (label : caseOf call.build letter = .other) :
    Goes call letter pass (flagMode call letter pass) := by
  unfold flagMode
  split
  · exact .told call letter pass _ _ _
  next level =>
    split
    · exact .told call letter pass _ _ _
    next fits =>
      cases found : (flagTable call.build).lookup letter with
      | none =>
        simp only [client.mine, if_true]
        exact .told call letter pass _ _ _
      | some flag =>
        simp only
        split
        · exact .told call letter pass _ _ _
        · refine .inr ⟨.flag letter flag, rfl, ⟨rfl, rfl, rfl, rfl⟩, ⟨label, found, client.level level⟩, ?_, ?_, rfl, rfl⟩
          · intro _
            exact (overflows_eq_false_iff call pass 1).mp (Bool.eq_false_iff.mpr fits)
          · exact fun some => absurd rfl some

/-- `-i` drops the pending invitations whatever comes of it. -/
theorem origin_inviteOnly (client : call.Local) : Goes call 'i' pass (inviteOnlyMode call pass) := by
  unfold inviteOnlyMode
  split
  · exact .told call 'i' pass _ _ _
  next level =>
    have core : (if pass.change = .minus then { pass.chptr with invites := [] } else pass.chptr).core =
        pass.chptr.core := by
      split <;> rfl
    have named : (if pass.change = .minus then { pass.chptr with invites := [] } else pass.chptr).chname =
        pass.chptr.chname := by
      split <;> rfl
    generalize (if pass.change = .minus then { pass.chptr with invites := [] } else pass.chptr) = chptr at *
    simp only [flagMode, lookup_inviteOnly]
    split
    · exact .inl ⟨core, rfl, rfl, rfl, Nat.le_refl _, rfl⟩
    · split
      · exact .inl ⟨core, rfl, rfl, rfl, Nat.le_refl _, rfl⟩
      next fits =>
        split
        · exact .inl ⟨core, rfl, rfl, rfl, Nat.le_refl _, rfl⟩
        · refine .inr ⟨.inviteOnly, rfl, ⟨?_, rfl, rfl, rfl⟩, client.level level, ?_, ?_, rfl, rfl⟩
          · exact apply_congr core .inviteOnly pass.change
          · intro _
            have room := (overflows_eq_false_iff call { pass with chptr := chptr } 1).mp (Bool.eq_false_iff.mpr fits)
            simpa only [Call.prelen, named, Edit.need] using room
          · exact fun some => absurd rfl some

theorem Call.Local.counted (client : call.Local) (passes : ¬ (pass.next rest).nparams > call.maxparams) :
    pass.nparams < maxModeParamsUser := by
  simp only [next_nparams, Call.maxparams, client.person, client.plain, Bool.or_self, Bool.false_eq_true,
    if_false] at passes
  omega

theorem mem_of_findUserMember {members : List Member} (found : findUserMember members name = some cm) :
    cm ∈ members := List.mem_of_find?_eq_some found

theorem origin_status (client : call.Local) (status : MemberStatus) :
    Goes call status.letter pass (memberMode call status pass) := by
  unfold memberMode
  split
  · exact .told call _ pass _ _ _
  next level =>
    split
    · exact .told call _ pass pass.errors pass.anylistsent pass.replies
    next user rest args =>
      simp only
      split
      · exact .took call _ pass _ _ _ _
      next count =>
        split
        · exact .took call _ pass _ _ _ _
        next who chased =>
          split
          · exact .took call _ pass _ _ _ _
          next cm found =>
            split
            · exact .took call _ pass _ _ _ _
            next fits =>
              refine .inr ⟨.status status cm.name, rfl, ⟨?_, rfl, rfl, rfl⟩, ⟨client.level level, ?_⟩, ?_, ?_, rfl, rfl⟩
              · simp only [Chan.blast, client.person, Edit.apply, Bool.false_and, Bool.false_eq_true, if_false]
                rfl
              · exact List.mem_map.mpr ⟨cm, mem_of_findUserMember found, rfl⟩
              · intro _
                exact (overflows_eq_false_iff call (pass.next rest) _).mp (Bool.eq_false_iff.mpr fits)
              · exact fun _ => client.counted count

/-- Only servers and services set these. -/
theorem origin_registered (client : call.Local) : Goes call 'r' pass (registeredMode call pass) := by
  unfold registeredMode
  split
  · exact .told call 'r' pass _ _ _
  · simp only [client.person, client.plain, Bool.not_false, Bool.and_self, if_true]
    exact .saw call _ pass _ _

theorem origin_listed (client : call.Local) : Goes call 'L' pass (listedMode call pass) := by
  unfold listedMode
  split
  · exact .told call 'L' pass _ _ _
  · simp only [client.mine, if_true]
    exact .saw call _ pass _ _

/-- A client of this server gets no mask past what a list has. -/
theorem mycmp_of_addId (client : call.Local) {masks new : List Text} (short : ∀ old ∈ masks, old.length ≤ Mask.maxCalls)
    (added : addId list call.sptr.myClient masks mask = .ok new) :
    new = mask :: masks ∧ ∀ old ∈ masks, mycmp old mask = false := by
  rw [client.mine, addId] at added
  cases verdict : refusal list.most true mask 0 masks with
  | some refused => simp [verdict] at added
  | none =>
    simp only [verdict, Except.ok.injEq] at added
    exact ⟨added.symm, fun old member => Bool.eq_false_iff.mpr fun equal =>
      absurd (Mask.matchMask_of_mycmp equal (short old member)) (by simp [refusal_none verdict member])⟩

theorem origin_mask (client : call.Local) (fine : pass.Fine) (list : MaskList) :
    Goes call list.letter pass (maskMode call list pass) := by
  unfold maskMode
  split
  · split
    · exact .told call _ pass _ _ _
    · exact .told call _ pass _ _ _
  next mask rest args =>
    split
    · exact .told call _ pass _ _ _
    next level =>
      simp only
      split
      · exact .took call _ pass _ _ _ _
      next count =>
        split
        · exact .took call _ pass _ _ _ _
        next shape =>
          split
          · exact .took call _ pass _ _ _ _
          next fits =>
            have noColon : (Mask.canonical mask).head? ≠ some ':' :=
              fun head => shape (.inl (Mask.head_canonical head))
            have room := (overflows_eq_false_iff call (pass.next rest) _).mp (Bool.eq_false_iff.mpr fits)
            split
            next sign =>
              split
              · exact .took call _ pass _ _ _ _
              · exact .took call _ pass _ _ _ _
              next new added =>
                obtain ⟨rfl, apart⟩ := mycmp_of_addId client (fine.masks list) added
                have plus : pass.change = .plus := sign
                refine .inr ⟨.mask list (Mask.canonical mask), rfl, ⟨?_, rfl, rfl, rfl⟩,
                  ⟨client.level level, ⟨mask, rfl⟩, noColon, fun _ => apart⟩, fun _ => room,
                  fun _ => client.counted count, rfl, rfl⟩
                simp [Edit.apply, plus]
            next sign =>
              have minus : pass.change = .minus := sign
              refine .inr ⟨.mask list (Mask.canonical mask), rfl, ⟨?_, rfl, rfl, rfl⟩,
                ⟨client.level level, ⟨mask, rfl⟩, noColon, fun plus => ?_⟩, fun _ => room,
                fun _ => client.counted count, rfl, rfl⟩
              · simp [Edit.apply, minus]
              · exact absurd (minus.symm.trans plus) (by decide)

theorem rate_zeroJoinRate {rate : Int × Int}
    (bounds : 0 ≤ rate.1 ∧ rate.1 ≤ Decimal.intMax ∧ 0 ≤ rate.2 ∧ rate.2 ≤ Decimal.intMax) :
    Rate (zeroJoinRate rate) := by
  by_cases zero : rate.1 = 0 ∨ rate.2 = 0
  · simp only [zeroJoinRate, zero, if_true]
    exact ⟨by decide, by decide, by decide, by decide, rfl⟩
  · have whole : zeroJoinRate rate = rate := by simp only [zeroJoinRate, zero, if_false]
    rw [whole]
    exact ⟨bounds.1, bounds.2.1, bounds.2.2.1, bounds.2.2.2, whole⟩

/-- What `+j` keeps of the two numbers it has read. -/
theorem rate_limited (read : readJoinRate para = some pair) (condition : Prop) [Decidable condition] :
    Rate (zeroJoinRate (if condition then limitJoinRate pair else pair)) := by
  have bounds : 0 ≤ pair.1 ∧ pair.1 ≤ Decimal.intMax ∧ 0 ≤ pair.2 ∧ pair.2 ≤ Decimal.intMax := by
    unfold readJoinRate at read
    simp only at read
    generalize (if ':' ∈ para then Decimal.strtol ((para.dropWhile (· != ':')).drop 1) else (0, [])) = after at read
    split at read
    · cases read
    next time =>
      split at read
      · cases read
      next num =>
        obtain rfl := Option.some.inj read
        exact ⟨by omega, Decimal.toInt_le _, by omega, Decimal.toInt_le _⟩
  obtain ⟨num, time⟩ := pair
  have limited : 0 ≤ (limitJoinRate (num, time)).1 ∧ (limitJoinRate (num, time)).1 ≤ Decimal.intMax ∧
      0 ≤ (limitJoinRate (num, time)).2 ∧ (limitJoinRate (num, time)).2 ≤ Decimal.intMax := by
    have eighth : (min time 60 - 1).tdiv 8 ≤ 60 := by
      rcases Int.le_total 0 (min time 60 - 1) with up | down
      · rw [Int.tdiv_eq_ediv_of_nonneg up]
        omega
      · have turned := Int.tdiv_nonneg (Int.neg_nonneg_of_nonpos down) (by decide : (0 : Int) ≤ 8)
        rw [Int.neg_tdiv] at turned
        omega
    simp only [limitJoinRate, Decimal.intMax]
    generalize (min time 60 - 1).tdiv 8 = eight at eighth ⊢
    have half : (max (max (min num 60) 4) (eight + 1)).tdiv 2 = (max (max (min num 60) 4) (eight + 1)) / 2 :=
      Int.tdiv_eq_ediv_of_nonneg (by omega)
    rw [half]
    simp only at bounds
    omega
  split
  · generalize limitJoinRate (num, time) = rate at limited
    exact rate_zeroJoinRate limited
  · exact rate_zeroJoinRate bounds

theorem origin_joinRate (client : call.Local) : Goes call 'j' pass (joinRateMode call pass) := by
  unfold joinRateMode
  split
  · exact .told call _ pass _ _ _
  next level =>
    split
    next sign =>
      split
      · exact .told call _ pass _ _ _
      · simp only
        split
        · exact .saw call _ pass _ _
        next fits =>
          refine .inr ⟨.noJoinRate, rfl, ⟨rfl, rfl, rfl, rfl⟩, ⟨sign, client.level level⟩, ?_, ?_, rfl, rfl⟩
          · intro _
            exact (overflows_eq_false_iff call (pass.see 'j') 1).mp (Bool.eq_false_iff.mpr fits)
          · exact fun some => absurd rfl some
    next sign =>
      split
      · exact .told call _ pass _ _ _
      next para rest args =>
        simp only
        split
        · exact .took call _ pass _ _ _ _
        next count =>
          split
          · exact .took call _ pass _ _ _ _
          · split
            · exact .took call _ pass _ _ _ _
            next pair read =>
              have kept := rate_limited read ((call.sptr.myClient && decide (call.level < 2)) = true)
              generalize zeroJoinRate (if (call.sptr.myClient && decide (call.level < 2)) = true then
                limitJoinRate pair else pair) = rate at kept ⊢
              split
              · exact .took call _ pass _ _ _ _
              next fits =>
                refine .inr ⟨.joinRate rate, rfl, ⟨rfl, rfl, rfl, rfl⟩, ⟨sign, client.level level, kept⟩, ?_,
                  fun _ => client.counted count, rfl, rfl⟩
                intro _
                exact (overflows_eq_false_iff call ((pass.next rest).see 'j') _).mp (Bool.eq_false_iff.mpr fits)

theorem origin_limit (client : call.Local) : Goes call 'l' pass (limitMode call pass) := by
  unfold limitMode
  split
  · exact .told call _ pass _ _ _
  next level =>
    split
    next sign =>
      split
      · exact .told call _ pass _ _ _
      · simp only
        split
        · exact .saw call _ pass _ _
        next fits =>
          refine .inr ⟨.noLimit, rfl, ⟨rfl, rfl, rfl, rfl⟩, ⟨sign, client.level level⟩, ?_, ?_, rfl, rfl⟩
          · intro _
            exact (overflows_eq_false_iff call (pass.see 'l') 1).mp (Bool.eq_false_iff.mpr fits)
          · exact fun some => absurd rfl some
    next sign =>
      split
      · exact .told call _ pass _ _ _
      next para rest args =>
        simp only
        split
        · exact .took call _ pass _ _ _ _
        next count =>
          split
          · exact .took call _ pass _ _ _ _
          · split
            · exact .took call _ pass _ _ _ _
            next fits =>
              split
              · exact .took call _ pass _ _ _ _
              next positive =>
                refine .inr ⟨.limit (atoi para), rfl, ⟨rfl, rfl, rfl, rfl⟩,
                  ⟨sign, client.level level, by omega, Decimal.toInt_le _⟩, ?_, fun _ => client.counted count, rfl, rfl⟩
                intro _
                exact (overflows_eq_false_iff call ((pass.next rest).see 'l') _).mp (Bool.eq_false_iff.mpr fits)

/-- The start of a key is a key. -/
theorem keyOk_take (ok : keyOk para = true) : keyOk (para.take keyLen) = true := by
  simp only [keyOk, Bool.and_eq_true, Bool.not_eq_true', decide_eq_true_eq, List.contains_eq_mem,
    decide_eq_false_iff_not] at ok ⊢
  obtain ⟨⟨⟨⟨nonempty, noColon⟩, space⟩, star⟩, comma⟩ := ok
  obtain ⟨first, rest, rfl⟩ := List.exists_cons_of_ne_nil nonempty
  exact ⟨⟨⟨⟨by simp [keyLen], by simpa [keyLen] using noColon⟩, fun member => space (List.mem_of_mem_take member)⟩,
    fun member => star (List.mem_of_mem_take member)⟩, fun member => comma (List.mem_of_mem_take member)⟩

theorem origin_key (client : call.Local) (fine : pass.Fine) :
    Goes call 'k' pass (keyMode call pass) := by
  unfold keyMode
  split
  · exact .told call _ pass _ _ _
  next level =>
    split
    · exact .told call _ pass pass.errors pass.anylistsent pass.replies
    next para rest args =>
      simp only
      split
      · exact .took call _ pass _ _ _ _
      next count =>
        split
        · exact .took call _ pass _ _ _ _
        · split
          · exact .took call _ pass _ _ _ _
          next valid =>
            have ok : keyOk para = true := by simpa using valid
            split
            · exact .took call _ pass _ _ _ _
            next fits =>
              have room := (overflows_eq_false_iff call ((pass.next rest).see 'k') _).mp (Bool.eq_false_iff.mpr fits)
              split
              next sign =>
                have plus : pass.change = .plus := sign
                refine .inr ⟨.key (para.take keyLen), rfl, ⟨?_, rfl, rfl, rfl⟩,
                  ⟨client.level level, keyOk_take ok, fun _ => ?_, fun minus => ?_⟩, fun _ => room,
                  fun _ => client.counted count, rfl, rfl⟩
                · simp [Edit.apply, plus, Pass.see]
                · exact List.length_take_le ..
                · exact absurd (plus.symm.trans minus) (by decide)
              next sign =>
                have minus : pass.change = .minus := sign
                have key : ((pass.next rest).see 'k').chptr.mode.key = pass.chptr.mode.key := rfl
                rw [key]
                refine .inr ⟨.key (if pass.chptr.mode.key = [] then para else pass.chptr.mode.key), rfl,
                  ⟨?_, rfl, rfl, rfl⟩, ⟨client.level level, ?_, fun plus => ?_, fun _ some => if_neg some⟩,
                  fun _ => room, fun _ => client.counted count, rfl, rfl⟩
                · simp [Edit.apply, minus, Pass.see]
                · split
                  · exact ok
                  next some => exact fine.keyValid.resolve_left some
                · exact absurd (minus.symm.trans plus) (by decide)

/-- What any letter but a sign does for a client of this server. -/
theorem origin_step (client : call.Local) (fine : pass.Fine)
    (notSign : ∀ sign, caseOf call.build letter ≠ .sign sign) :
    Goes call letter pass (change call letter pass (caseOf call.build letter)) := by
  have named (known : caseOf call.build letter ≠ .other) := caseOf_letter (rfl : caseOf call.build letter = _) known
  cases label : caseOf call.build letter with
  | sign sign => exact absurd label (notSign sign)
  | ssl =>
    obtain rfl : 'S' = letter := by simpa [label, Case.letter] using named
    exact origin_ssl client label
  | rsl =>
    obtain rfl : 'D' = letter := by simpa [label, Case.letter] using named
    exact origin_rsl client label
  | operOnly =>
    obtain rfl : 'O' = letter := by simpa [label, Case.letter] using named
    exact origin_operOnly client
  | member status =>
    obtain rfl : status.letter = letter := by simpa [label, Case.letter] using named
    exact origin_status client status
  | mask list =>
    obtain rfl : list.letter = letter := by simpa [label, Case.letter] using named
    exact origin_mask client fine list
  | joinRate =>
    obtain rfl : 'j' = letter := by simpa [label, Case.letter] using named
    exact origin_joinRate client
  | limit =>
    obtain rfl : 'l' = letter := by simpa [label, Case.letter] using named
    exact origin_limit client
  | key =>
    obtain rfl : 'k' = letter := by simpa [label, Case.letter] using named
    exact origin_key client fine
  | registered =>
    obtain rfl : 'r' = letter := by simpa [label, Case.letter] using named
    exact origin_registered client
  | listed =>
    obtain rfl : 'L' = letter := by simpa [label, Case.letter] using named
    exact origin_listed client
  | inviteOnly =>
    obtain rfl : 'i' = letter := by simpa [label, Case.letter] using named
    exact origin_inviteOnly client
  | other => exact origin_flag client label

/-- Asking for missing parameters changes nothing but what the client is told. -/
theorem Goes.askMore (goes : Goes call letter pass after) : Goes call letter pass (askMore call letter after) := by
  unfold SolidIrcd.Channel.askMore
  split
  · obtain idle | ⟨edit, named, makes⟩ := goes
    · exact .inl ⟨idle.core, idle.change, idle.mbuf, idle.pbuf, idle.nparams, idle.nmodes⟩
    · exact .inr ⟨edit, named, ⟨makes.core, makes.change, makes.mbuf, makes.pbuf⟩, makes.allowed, makes.room, makes.few,
        makes.nparams, makes.nmodes⟩
  · exact goes

/-! What an edit leaves of the key, the masks and the names. -/

theorem key_apply (edit : Edit) (change : Sign) (chptr : Chan) :
    (edit.apply change chptr).mode.key = chptr.mode.key ∨ (edit.apply change chptr).mode.key = [] ∨
      edit = .key (edit.apply change chptr).mode.key := by
  cases edit with
  | key key =>
    cases change
    · exact .inr (.inr rfl)
    · exact .inr (.inl rfl)
  | mask list mask =>
    cases change
    · simp [Edit.apply]
    · simp [Edit.apply]
  | _ => exact .inl rfl

theorem masks_apply (edit : Edit) (change : Sign) (chptr : Chan) (list : MaskList)
    (member : old ∈ (edit.apply change chptr).masks list) : old ∈ chptr.masks list ∨ ∃ which, edit = .mask which old := by
  cases edit with
  | mask which mask =>
    by_cases same : list = which
    · subst same
      cases change with
      | plus =>
        simp only [Edit.apply, masks_setMasks] at member
        obtain rfl | old := List.mem_cons.mp member
        · exact .inr ⟨list, rfl⟩
        · exact .inl old
      | minus =>
        simp only [Edit.apply, masks_setMasks, delId] at member
        exact .inl (List.mem_of_mem_eraseP member)
    · cases change
      · simp only [Edit.apply, masks_setMasks_ne same] at member
        exact .inl member
      · simp only [Edit.apply, masks_setMasks_ne same] at member
        exact .inl member
  | _ => exact .inl (by cases list <;> exact member)

theorem names_apply (edit : Edit) (change : Sign) (chptr : Chan) :
    (edit.apply change chptr).members.map Member.name = chptr.members.map Member.name := by
  cases edit with
  | status status name =>
    simp only [Edit.apply, Chan.setMember, List.map_map]
    apply List.map_congr_left
    intro l _
    simp only [Function.comp_apply]
    split
    · cases status <;> rfl
    · rfl
  | mask list mask => cases change <;> simp [Edit.apply]
  | _ => rfl

theorem frame_apply (edit : Edit) (change : Sign) (chptr : Chan) :
    (edit.apply change chptr).chname = chptr.chname ∧ (edit.apply change chptr).channelts = chptr.channelts := by
  cases edit with
  | mask list mask => cases change <;> simp [Edit.apply]
  | _ => exact ⟨rfl, rfl⟩

theorem length_canonical_bound (mask : Text) : (Mask.canonical mask).length ≤ nickLen + userLen + hostLen + 2 :=
  Nat.le_trans (Mask.length_collapse_le _) (Mask.length_prettyMask_le mask)

theorem Pass.Fine.congr {after : Pass} (fine : pass.Fine) (core : after.chptr.core = pass.chptr.core) : after.Fine := by
  obtain ⟨-, -, mode, -, masks⟩ := core_fields core
  refine ⟨mode ▸ fine.keyValid, fun list old member => ?_⟩
  rw [masks] at member
  exact fine.masks list old member

/-- The next letter finds the pass as this one did. -/
theorem Pass.Fine.makes (fine : pass.Fine) (makes : Makes call edit pass after) : after.Fine := by
  obtain ⟨-, -, mode, -, masks⟩ := core_fields makes.core
  constructor
  · rw [congrArg Mode.key mode]
    obtain same | none | given := key_apply edit pass.change pass.chptr
    · rw [same]
      exact fine.keyValid
    · exact .inl none
    · have allowed := makes.allowed
      rw [given] at allowed
      exact .inr allowed.2.1
  · intro list old member
    rw [masks] at member
    obtain before | ⟨which, rfl⟩ := masks_apply edit pass.change pass.chptr list member
    · exact fine.masks list old before
    · obtain ⟨given, rfl⟩ := makes.allowed.2.1
      exact Nat.le_trans (length_canonical_bound given) (by decide)

end

end SolidIrcd.Channel
