import Mathlib.Data.List.Induction
import SolidIrcd.Channel.Origin

/-! What `set_mode` has written for the other servers when it has read so many letters of a client,
and when the line of it fits into a message. -/

namespace SolidIrcd.Channel

open Scan (Text)
open Parse (Word word_print)
open Decimal (print)

/-- The changes that no test keeps within a line. A key of more than KEYLEN characters is only
sent by `-k` on a channel without one. -/
def Edit.Unchecked : Edit → Prop
  | .ssl | .rsl | .operOnly => True
  | .key text => keyLen < text.length
  | _ => False

/-- A letter at which `set_mode` makes a change; `pass` is where it stands before the letter. -/
structure Turn (call : Call) (chptr : Chan) (modes : Text) (args : List Text) (pass : Pass)
    (edit : Edit) : Prop where
  place : ∃ done rest, modes = done ++ edit.letter :: rest ∧ pass = setModeRun call chptr done args
  makes : Makes call edit pass (setModeStep call pass edit.letter)

/-- What has been written after some letters. `body` is what stays of the mode buffer, which is all
but a sign that nothing follows yet. -/
structure Written (chptr : Chan) (pass : Pass) (body : Text) (paras : List Text) : Prop where
  fine : pass.Fine
  buffer : (pass.mbuf = body ∧ body ≠ []) ∨ pass.mbuf = body ++ [pass.change.char]
  ended : ∀ sign : Sign, body.getLast? ≠ some sign.char
  params : pass.pbuf = paras.foldl addPara []
  words : ∀ para ∈ paras, Word para
  frame : pass.chptr.chname = chptr.chname ∧ pass.chptr.channelts = chptr.channelts ∧
    pass.chptr.members.map Member.name = chptr.members.map Member.name
  few : paras.length ≤ maxModeParamsUser ∧ paras.length ≤ pass.nparams
  sent : pass.nmodes = 0 → body = []
  spelled : body = [] ∨ 2 ≤ body.length ∧ Word body

/-- A letter that leaves what the network shares and what has been written to stay. -/
structure Quiet (body : Text) (before after : Pass) : Prop where
  core : after.chptr.core = before.chptr.core
  pbuf : after.pbuf = before.pbuf
  nmodes : after.nmodes = before.nmodes
  whole : after.mbuf = body → before.mbuf = body ∧ after.change = before.change

/-- A client of this server on a channel whose members have proper names. -/
structure Ground (near : Call) (chptr : Chan) : Prop where
  client : near.Local
  nicks : ∀ l ∈ chptr.members, Word l.name ∧ l.name.length ≤ nickLen
  key : chptr.mode.key = [] ∨ keyOk chptr.mode.key = true
  masks : ∀ list, ∀ old ∈ chptr.masks list, old.length ≤ Mask.maxCalls

theorem setModeRun_snoc (call : Call) (chptr : Chan) (done : Text) (letter : Char)
    (args : List Text) :
    setModeRun call chptr (done ++ [letter]) args =
      setModeStep call (setModeRun call chptr done args) letter := by
  simp [setModeRun]

/-! Parameters. -/

theorem Ground.nicks_of (ground : Ground near chptr) {members : List Member}
    (same : members.map Member.name = chptr.members.map Member.name) :
    ∀ l ∈ members, Word l.name ∧ l.name.length ≤ nickLen := by
  intro l member
  have there : l.name ∈ chptr.members.map Member.name :=
    same ▸ List.mem_map.mpr ⟨l, member, rfl⟩
  obtain ⟨other, inside, equal⟩ := List.mem_map.mp there
  rw [← equal]
  exact ground.nicks other inside

theorem word_paras_of_allowed {edit : Edit} {change : Sign}
    (allowed : edit.Allowed call chptr change) (nicks : ∀ l ∈ chptr.members, Word l.name) :
    ∀ para ∈ edit.paras, Word para := by
  intro para member
  cases edit with
  | status status name =>
    obtain rfl := List.mem_singleton.mp member
    obtain ⟨l, inside, rfl⟩ := List.mem_map.mp allowed.2
    exact nicks l inside
  | mask list mask =>
    obtain rfl := List.mem_singleton.mp member
    obtain ⟨-, ⟨given, rfl⟩, noColon, -⟩ := allowed
    have solid : ' ' ∉ Mask.canonical given :=
      fun space => Mask.prettyMask_solid given (Mask.mem_of_mem_collapse space)
    exact ⟨canonical_ne_nil given, solid, noColon⟩
  | joinRate rate =>
    obtain rfl := List.mem_singleton.mp member
    exact word_rate rate
  | limit i =>
    obtain rfl := List.mem_singleton.mp member
    exact word_print i
  | key key =>
    obtain rfl := List.mem_singleton.mp member
    exact word_keyOk allowed.2.1
  | _ => exact absurd member List.not_mem_nil

theorem length_paras (edit : Edit) : edit.paras = [] ∨ ∃ para, edit.paras = [para] := by
  cases edit with
  | status | mask | joinRate | limit | key => exact .inr ⟨_, rfl⟩
  | _ => exact .inl rfl

/-- A change that is tested asks for as much room as its parameter takes. -/
theorem length_para_le {edit : Edit} {change : Sign} (allowed : edit.Allowed call chptr change)
    (nicks : ∀ l ∈ chptr.members, l.name.length ≤ nickLen) (checked : ¬ edit.Unchecked) :
    ∀ para ∈ edit.paras, para.length ≤ edit.need := by
  intro para member
  cases edit with
  | status status name =>
    obtain rfl := List.mem_singleton.mp member
    obtain ⟨l, inside, rfl⟩ := List.mem_map.mp allowed.2
    exact Nat.le_succ_of_le (nicks l inside)
  | mask list mask =>
    obtain rfl := List.mem_singleton.mp member
    exact Nat.le_succ _
  | joinRate rate =>
    obtain rfl := List.mem_singleton.mp member
    exact Nat.le_refl _
  | limit i =>
    obtain rfl := List.mem_singleton.mp member
    obtain ⟨-, -, positive, small⟩ := allowed
    have bound := Decimal.length_print_le (by omega) small
    simp only [Edit.need]
    omega
  | key key =>
    obtain rfl := List.mem_singleton.mp member
    exact Nat.le_add_right_of_le (Nat.not_lt.mp checked)
  | _ => exact absurd member List.not_mem_nil

theorem length_pbuf_le {edit : Edit} (small : ∀ para ∈ edit.paras, para.length ≤ edit.need)
    (pbuf : Text) : (edit.paras.foldl addPara pbuf).length ≤ pbuf.length + 1 + edit.need := by
  obtain none | ⟨para, one⟩ := length_paras edit
  · simp only [none, List.foldl_nil]
    omega
  · have bound := small para (by simp [one])
    have longer := length_addPara_le pbuf para
    simp only [one, List.foldl_cons, List.foldl_nil]
    omega

theorem length_le_addPara (pbuf para : Text) : pbuf.length ≤ (addPara pbuf para).length := by
  unfold addPara
  split
  next empty => simp [empty]
  next => simp

theorem loose_unchecked {edit : Edit} (loose : edit.loose = true) : edit.Unchecked := by
  cases edit with
  | ssl | rsl | operOnly => trivial
  | _ => exact absurd loose (by simp [Edit.loose])

theorem letter_ne_space {edit : Edit} {change : Sign} (allowed : edit.Allowed near chptr change) :
    edit.letter ≠ ' ' := by
  cases edit with
  | flag letter flag =>
    rintro rfl
    have missing : (flagTable near.build).lookup ' ' = none := by
      obtain ⟨haveSsl, chanmodeL, channelModeD⟩ := near.build
      cases haveSsl <;> cases chanmodeL <;> cases channelModeD <;> rfl
    exact absurd allowed.2.1 (by simp [missing])
  | status status name => cases status <;> simp [Edit.letter, MemberStatus.letter]
  | mask list mask => cases list <;> simp [Edit.letter, MaskList.letter]
  | _ => simp [Edit.letter]

/-! Signs. -/

section

variable (sign : Sign) (pass : Pass)

theorem signMode_frame :
    (signMode sign pass).chptr = pass.chptr ∧ (signMode sign pass).pbuf = pass.pbuf ∧
      (signMode sign pass).args = pass.args ∧ (signMode sign pass).nparams = pass.nparams ∧
      (signMode sign pass).nmodes = pass.nmodes := by
  unfold signMode
  split
  · exact ⟨rfl, rfl, rfl, rfl, rfl⟩
  · split
    · exact ⟨rfl, rfl, rfl, rfl, rfl⟩
    · exact ⟨rfl, rfl, rfl, rfl, rfl⟩

theorem length_signMode_le : (signMode sign pass).mbuf.length ≤ pass.mbuf.length + 1 := by
  unfold signMode
  split
  · simp
  · split <;> simp

end

/-- A sign behind what is written to stay. -/
theorem mbuf_signMode {pass : Pass} {body : Text} (sign : Sign)
    (buffer : (pass.mbuf = body ∧ body ≠ []) ∨ pass.mbuf = body ++ [pass.change.char])
    (ended : ∀ sign : Sign, body.getLast? ≠ some sign.char) :
    ((signMode sign pass).mbuf = pass.mbuf ∧ pass.change = sign) ∨
      (signMode sign pass).mbuf = body ++ [sign.char] := by
  unfold signMode
  split
  next last =>
    obtain ⟨same, -⟩ | pending := buffer
    · rw [same] at last
      exact absurd last (ended sign.other)
    · exact .inr (by simp [pending])
  · split
    next same => exact .inl ⟨rfl, same⟩
    next last other =>
      obtain ⟨same, -⟩ | pending := buffer
      · exact .inr (by simp [same])
      · rw [pending, List.getLast?_append_of_ne_nil _ (by simp)] at last
        have flipped : pass.change = sign.other := by
          revert other
          cases pass.change <;> cases sign <;> decide
        exact absurd (by simp [flipped]) last

section

variable {near : Call} {chptr : Chan} {pass after : Pass} {body : Text} {paras : List Text}

theorem Written.start (ground : Ground near chptr) (args : List Text) :
    Written chptr (Pass.start near chptr args) [] [] where
  fine := ⟨ground.key, ground.masks⟩
  buffer := .inr rfl
  ended := by simp
  params := rfl
  words := by simp
  frame := ⟨rfl, rfl, rfl⟩
  few := by simp [Pass.start]
  sent := fun _ => rfl
  spelled := .inl rfl

theorem Written.askMore (written : Written chptr pass body paras) (call : Call) (letter : Char) :
    Written chptr (askMore call letter pass) body paras := by
  unfold SolidIrcd.Channel.askMore
  split
  · exact ⟨written.fine.congr rfl, written.buffer, written.ended, written.params, written.words,
      written.frame, written.few, written.sent, written.spelled⟩
  · exact written

theorem Quiet.askMore (quiet : Quiet body pass after) (call : Call) (letter : Char) :
    Quiet body pass (askMore call letter after) := by
  unfold SolidIrcd.Channel.askMore
  split
  · exact ⟨quiet.core, quiet.pbuf, quiet.nmodes, quiet.whole⟩
  · exact quiet

/-- A sign stays only when something follows it. -/
theorem Written.sign (written : Written chptr pass body paras) (sign : Sign) :
    Quiet body pass (signMode sign pass) ∧ Written chptr (signMode sign pass) body paras := by
  obtain ⟨chptr', pbuf', -, nparams', nmodes'⟩ := signMode_frame sign pass
  have change' := signMode_change sign pass
  have outcome := mbuf_signMode sign written.buffer written.ended
  constructor
  · refine ⟨by rw [chptr'], pbuf', nmodes', fun whole => ?_⟩
    obtain ⟨same, unchanged⟩ | pending := outcome
    · exact ⟨same.symm.trans whole, change'.trans unchanged.symm⟩
    · exact absurd (pending.symm.trans whole) (by simp)
  · refine ⟨written.fine.congr (by rw [chptr']), ?_, written.ended, pbuf' ▸ written.params,
      written.words, chptr' ▸ written.frame, nparams' ▸ written.few, nmodes' ▸ written.sent,
      written.spelled⟩
    obtain ⟨same, unchanged⟩ | pending := outcome
    · rw [same, change', ← unchanged]
      exact written.buffer
    · rw [change']
      exact .inr pending

theorem Written.idle (written : Written chptr pass body paras) (idle : Idle pass after) :
    Quiet body pass after ∧ Written chptr after body paras := by
  obtain ⟨chname, channelts, -, members, -⟩ := core_fields idle.core
  constructor
  · exact ⟨idle.core, idle.pbuf, idle.nmodes,
      fun whole => ⟨idle.mbuf.symm.trans whole, idle.change⟩⟩
  · refine ⟨written.fine.congr idle.core, ?_, written.ended, idle.pbuf ▸ written.params,
      written.words, ?_, ⟨written.few.1, Nat.le_trans written.few.2 idle.nparams⟩,
      idle.nmodes ▸ written.sent, written.spelled⟩
    · rw [idle.mbuf, idle.change]
      exact written.buffer
    · rw [chname, channelts, members]
      exact written.frame

/-- What is written goes through as one word. -/
theorem Written.word (written : Written chptr pass body paras) {edit : Edit} {change : Sign}
    (allowed : edit.Allowed near held change) : Word (pass.mbuf ++ [edit.letter]) := by
  have notSpace := letter_ne_space allowed
  have plain (sign : Sign) : sign.char ≠ ' ' ∧ sign.char ≠ ':' := by
    cases sign <;> decide
  have sign := plain pass.change
  obtain ⟨same, some⟩ | pending := written.buffer
  · obtain none | ⟨-, -, solid, noColon⟩ := written.spelled
    · exact absurd none some
    · obtain ⟨first, others, rfl⟩ := List.exists_cons_of_ne_nil some
      rw [same]
      exact ⟨by simp, by simpa [Ne.symm notSpace] using solid, by simpa using noColon⟩
  · rw [pending]
    obtain rfl | ⟨-, some, solid, noColon⟩ := written.spelled
    · exact ⟨by simp, by simp [Ne.symm notSpace, Ne.symm sign.1], by simpa using sign.2⟩
    · obtain ⟨first, others, rfl⟩ := List.exists_cons_of_ne_nil some
      exact ⟨by simp, by simpa [Ne.symm notSpace, Ne.symm sign.1] using solid,
        by simpa using noColon⟩

theorem Written.mbuf_pos (written : Written chptr pass body paras) : 1 ≤ pass.mbuf.length := by
  obtain ⟨same, some⟩ | pending := written.buffer
  · rw [same]
    exact List.length_pos_of_ne_nil some
  · simp [pending]

/-- A letter that makes an edit stays, with all in front of it. -/
theorem Written.makes (written : Written chptr pass body paras) (ground : Ground near chptr)
    {edit : Edit} (notSign : ∀ sign, caseOf near.build edit.letter ≠ .sign sign)
    (makes : Makes near edit pass after) :
    Written chptr after (pass.mbuf ++ [edit.letter]) (paras ++ edit.paras) := by
  obtain ⟨chname, channelts, -, members, -⟩ := core_fields makes.core
  have nicks := ground.nicks_of written.frame.2.2
  have positive := written.mbuf_pos
  obtain ⟨few, counted⟩ := written.few
  refine ⟨written.fine.makes makes, .inl ⟨makes.mbuf, by simp⟩, ?_, ?_, ?_, ?_, ?_, ?_,
    .inr ⟨?_, written.word makes.allowed⟩⟩
  · intro sign last
    rw [List.getLast?_append_of_ne_nil _ (by simp), List.getLast?_singleton,
      Option.some.injEq] at last
    exact notSign sign (last ▸ caseOf_sign near.build sign)
  · rw [makes.pbuf, written.params, List.foldl_append]
  · intro para member
    obtain old | new := List.mem_append.mp member
    · exact written.words para old
    · exact word_paras_of_allowed makes.allowed (fun l inside => (nicks l inside).1) para new
  · rw [chname, channelts, members, names_apply, (frame_apply edit pass.change pass.chptr).1,
      (frame_apply edit pass.change pass.chptr).2]
    exact written.frame
  · rw [List.length_append, makes.nparams]
    obtain none | ⟨para, one⟩ := length_paras edit
    · simp only [none, List.length_nil]
      omega
    · have few' := makes.few (by simp [one])
      simp only [one, List.length_cons, List.length_nil]
      omega
  · intro none
    exact absurd (makes.nmodes.symm.trans none) (by simp)
  · simp only [List.length_append, List.length_cons, List.length_nil]
    omega

/-- One letter of the client. -/
theorem Written.step (written : Written chptr pass body paras) (ground : Ground near chptr)
    (letter : Char) :
    (Quiet body pass (setModeStep near pass letter) ∧
        Written chptr (setModeStep near pass letter) body paras) ∨
      ∃ edit : Edit, edit.letter = letter ∧ Makes near edit pass (setModeStep near pass letter) ∧
        Written chptr (setModeStep near pass letter) (pass.mbuf ++ [letter])
          (paras ++ edit.paras) := by
  by_cases label : ∃ sign, caseOf near.build letter = .sign sign
  · obtain ⟨sign, label⟩ := label
    obtain ⟨quiet, turned⟩ := written.sign sign
    left
    rw [setModeStep, label]
    exact ⟨quiet.askMore near letter, turned.askMore near letter⟩
  · have notSign : ∀ sign, caseOf near.build letter ≠ .sign sign :=
      fun sign same => label ⟨sign, same⟩
    have goes := (origin_step ground.client written.fine notSign).askMore
    obtain idle | ⟨edit, rfl, makes⟩ := goes
    · exact .inl (written.idle idle)
    · exact .inr ⟨edit, rfl, makes, written.makes ground notSign makes⟩

/-- Any number of letters. -/
theorem written_run (ground : Ground near chptr) (args : List Text) (done : Text) :
    ∃ body paras, Written chptr (setModeRun near chptr done args) body paras := by
  induction done using List.reverseRecOn with
  | nil => exact ⟨[], [], Written.start ground args⟩
  | append_singleton done letter ih =>
    obtain ⟨body, paras, written⟩ := ih
    rw [setModeRun_snoc]
    obtain ⟨-, same⟩ | ⟨edit, -, -, more⟩ := written.step ground letter
    · exact ⟨_, _, same⟩
    · exact ⟨_, _, more⟩

/-- What is sent of the mode buffer. -/
theorem Written.trim (written : Written chptr pass body paras) : trimSign pass.mbuf = body := by
  unfold trimSign
  obtain ⟨same, -⟩ | pending := written.buffer
  · rw [same, if_neg]
    rintro (plus | minus)
    · exact written.ended .plus plus
    · exact written.ended .minus minus
  · have last : (body ++ [pass.change.char]).getLast? = some '+' ∨
        (body ++ [pass.change.char]).getLast? = some '-' := by
      rw [List.getLast?_append_of_ne_nil _ (by simp)]
      cases pass.change
      · exact .inl rfl
      · exact .inr rfl
    rw [pending, if_pos last]
    simp

end

/-! The length of the line. -/

theorem length_modeLine (name chname : Text) (channelts : Int) (modebuf parabuf : Text) :
    (modeLine name chname channelts modebuf parabuf).length =
      name.length + chname.length + (print channelts).length + modebuf.length + parabuf.length +
        10 := by
  simp only [modeLine, List.length_append, List.length_cons, String.length_toList]
  have word : " MODE ".length = 6 := rfl
  omega

/-- Whatever is written without a test still fits into a line of 512 bytes, and so does all
behind a TS of more than 13 digits. -/
def Fits (near : Call) (chptr : Chan) (channelts : Int) (modes : Text) (args : List Text) : Prop :=
  ∀ pass edit, Turn near chptr modes args pass edit →
    edit.Unchecked ∨ 13 < (print channelts).length →
    (modeLine near.cptr chptr.chname channelts (pass.mbuf ++ [edit.letter])
      (edit.paras.foldl addPara pass.pbuf)).length + 2 ≤ bufSize

section

variable {near : Call} {chptr : Chan} {channelts : Int} {modes : Text} {args : List Text}

/-- A change that is tested leaves room for the rest of the line. -/
theorem makes_fits (ground : Ground near chptr) {pass after : Pass} {body : Text}
    {paras : List Text} {edit : Edit} (written : Written chptr pass body paras)
    (makes : Makes near edit pass after) (checked : ¬ edit.Unchecked)
    (digits : (print channelts).length ≤ 13) :
    (modeLine near.cptr chptr.chname channelts (pass.mbuf ++ [edit.letter])
      (edit.paras.foldl addPara pass.pbuf)).length + 2 ≤ bufSize := by
  have nicks := ground.nicks_of written.frame.2.2
  have guarded : edit.loose = false :=
    Bool.eq_false_iff.mpr fun loose => checked (loose_unchecked loose)
  have room := makes.room guarded
  have small := length_para_le makes.allowed (fun l inside => (nicks l inside).2) checked
  have longer := length_pbuf_le small pass.pbuf
  rw [length_modeLine, List.length_append, List.length_singleton]
  simp only [Call.prelen, written.frame.1, realModeBufLen, bufSize] at room ⊢
  omega

theorem fits_run (ground : Ground near chptr) (fits : Fits near chptr channelts modes args)
    (done rest : Text) (split : modes = done ++ rest) :
    trimSign (setModeRun near chptr done args).mbuf = [] ∨
      (modeLine near.cptr chptr.chname channelts (trimSign (setModeRun near chptr done args).mbuf)
        (setModeRun near chptr done args).pbuf).length + 2 ≤ bufSize := by
  induction done using List.reverseRecOn generalizing rest with
  | nil => exact .inl rfl
  | append_singleton done letter ih =>
    have before := ih (letter :: rest) (by simp [split])
    obtain ⟨body, paras, written⟩ := written_run ground args done
    rw [setModeRun_snoc]
    obtain ⟨quiet, same⟩ | ⟨edit, rfl, makes, more⟩ := written.step ground letter
    · rw [same.trim, quiet.pbuf]
      rwa [written.trim] at before
    · right
      rw [more.trim, makes.pbuf]
      by_cases open' : edit.Unchecked ∨ 13 < (print channelts).length
      · exact fits _ edit ⟨⟨done, rest, by simp [split], rfl⟩, makes⟩ open'
      · obtain ⟨checked, digits⟩ := not_or.mp open'
        exact makes_fits ground written makes checked (Nat.not_lt.mp digits)

/-- What is written to stay never gets less. -/
theorem grows_run (ground : Ground near chptr) (args : List Text) (done rest : Text) :
    (trimSign (setModeRun near chptr done args).mbuf).length ≤
        (trimSign (setModeRun near chptr (done ++ rest) args).mbuf).length ∧
      (setModeRun near chptr done args).pbuf.length ≤
        (setModeRun near chptr (done ++ rest) args).pbuf.length := by
  induction rest using List.reverseRecOn with
  | nil => simp
  | append_singleton rest letter ih =>
    obtain ⟨body, paras, written⟩ := written_run ground args (done ++ rest)
    rw [← List.append_assoc, setModeRun_snoc]
    rw [written.trim] at ih
    obtain ⟨quiet, same⟩ | ⟨edit, rfl, makes, more⟩ := written.step ground letter
    · rw [same.trim, quiet.pbuf]
      exact ih
    · rw [more.trim, makes.pbuf]
      have stays : body.length ≤ (setModeRun near chptr (done ++ rest) args).mbuf.length := by
        obtain ⟨same, -⟩ | pending := written.buffer
        · rw [same]
        · simp [pending]
      have longer : (setModeRun near chptr (done ++ rest) args).pbuf.length ≤
          (edit.paras.foldl addPara (setModeRun near chptr (done ++ rest) args).pbuf).length := by
        obtain none | ⟨para, one⟩ := length_paras edit
        · rw [none, List.foldl_nil]
        · rw [one, List.foldl_cons, List.foldl_nil]
          exact length_le_addPara _ para
      rw [List.length_append]
      omega

/-- The line fits just when every change of it did. -/
theorem fits_iff (ground : Ground near chptr) :
    Fits near chptr channelts modes args ↔
      ((setMode near chptr modes args).modebuf ≠ [] →
        (modeLine near.cptr chptr.chname channelts (setMode near chptr modes args).modebuf
          (setMode near chptr modes args).parabuf).length + 2 ≤ bufSize) := by
  constructor
  · intro fits some
    exact (fits_run ground fits modes [] (by simp)).resolve_left some
  · rintro line pass edit ⟨⟨done, rest, rfl, rfl⟩, makes⟩ -
    obtain ⟨body, paras, written⟩ := written_run ground args done
    obtain ⟨quiet, -⟩ | ⟨other, -, -, more⟩ := written.step ground edit.letter
    · exact absurd (quiet.nmodes.symm.trans makes.nmodes) (by simp)
    have grown := grows_run ground args (done ++ [edit.letter]) rest
    rw [setModeRun_snoc, more.trim, makes.pbuf, List.append_assoc, List.singleton_append] at grown
    have modebuf : (setMode near chptr (done ++ edit.letter :: rest) args).modebuf =
        trimSign (setModeRun near chptr (done ++ edit.letter :: rest) args).mbuf := rfl
    have parabuf : (setMode near chptr (done ++ edit.letter :: rest) args).parabuf =
        (setModeRun near chptr (done ++ edit.letter :: rest) args).pbuf := rfl
    have some : (setMode near chptr (done ++ edit.letter :: rest) args).modebuf ≠ [] := by
      intro empty
      rw [← modebuf, empty, List.length_append] at grown
      simp at grown
    have room := line some
    rw [length_modeLine, modebuf, parabuf] at room
    rw [length_modeLine]
    omega

end

end SolidIrcd.Channel
