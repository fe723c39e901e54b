import SolidIrcd.Channel.Sjoin

/-! A MODE line with masks from a server, as the list loops send it: what
`set_mode` does with it is to add the masks one after the other. -/

namespace SolidIrcd.Channel

open Scan (Text)
open Parse (Word word_print)

/-- A mask from a server enters its list, unless the list has it. -/
def addEntry (chptr : Chan) (entry : MaskList × Text) : Chan :=
  match addId entry.1 false (chptr.masks entry.1) (Mask.canonical entry.2) with
  | .ok masks => chptr.setMasks masks entry.1
  | .error _ => chptr

/-- A call of `set_mode` for a server on the other end of a link. -/
structure Call.Serves (call : Call) : Prop where
  server : call.sptr.isServer = true
  remote : call.sptr.myClient = false

/-- The room the masks of a line take in the two buffers. -/
def roomOf : List (MaskList × Text) → Nat
  | [] => 0
  | entry :: rest => entry.2.length + 2 + roomOf rest

@[simp] theorem setMasks_chname (chptr : Chan) (masks : List Text) (list : MaskList) :
    (chptr.setMasks masks list).chname = chptr.chname := by
  cases list <;> rfl

@[simp] theorem setMasks_channelts (chptr : Chan) (masks : List Text) (list : MaskList) :
    (chptr.setMasks masks list).channelts = chptr.channelts := by
  cases list <;> rfl

@[simp] theorem setMasks_mode (chptr : Chan) (masks : List Text) (list : MaskList) :
    (chptr.setMasks masks list).mode = chptr.mode := by
  cases list <;> rfl

@[simp] theorem setMasks_members (chptr : Chan) (masks : List Text) (list : MaskList) :
    (chptr.setMasks masks list).members = chptr.members := by
  cases list <;> rfl

section

variable (chptr : Chan) (entry : MaskList × Text)

/-- What adding a mask leaves alone. -/
theorem addEntry_frame :
    (addEntry chptr entry).chname = chptr.chname ∧ (addEntry chptr entry).channelts = chptr.channelts ∧
      (addEntry chptr entry).mode = chptr.mode ∧ (addEntry chptr entry).members = chptr.members := by
  unfold addEntry
  split <;> simp

end

theorem caseOf_mask (build : Build) (list : MaskList) : caseOf build list.letter = .mask list := by
  obtain ⟨haveSsl, chanmodeL, channelModeD⟩ := build
  cases list <;> cases haveSsl <;> cases channelModeD <;> rfl

theorem length_addPara_le (pbuf para : Text) : (addPara pbuf para).length ≤ pbuf.length + 1 + para.length := by
  unfold addPara
  split
  · omega
  · simp only [List.length_append, List.length_cons]
    omega

theorem length_canonical_le (pretty : Mask.prettyMask mask = mask) :
    (Mask.canonical mask).length ≤ mask.length := by
  rw [Mask.canonical, pretty]
  exact Mask.length_collapse_le mask

/-- Where a pass over a line of masks stands. -/
structure Pass.Adding (pass : Pass) (args : List Text) : Prop where
  sign : pass.change = .plus
  calm : pass.errors = []
  args : pass.args = args

theorem askMore_calm {pass : Pass} (calm : pass.errors = []) (call : Call) (letter : Char) :
    askMore call letter pass = pass := by
  simp [askMore, calm]

/-- One mask of the line. -/
theorem step_mask {pass : Pass} (list : MaskList) (serves : Call.Serves call) (adding : Pass.Adding pass (mask :: args))
    (word : Word mask) (pretty : Mask.prettyMask mask = mask) (few : pass.nparams < 512)
    (room : call.prelen pass.chptr + pass.mbuf.length + pass.pbuf.length + mask.length + 1 ≤ realModeBufLen) :
    (setModeStep call pass list.letter).Adding args ∧
      (setModeStep call pass list.letter).chptr = addEntry pass.chptr (list, mask) ∧
      (setModeStep call pass list.letter).nparams = pass.nparams + 1 ∧
      (setModeStep call pass list.letter).mbuf.length ≤ pass.mbuf.length + 1 ∧
      (setModeStep call pass list.letter).pbuf.length ≤ pass.pbuf.length + 1 + mask.length := by
  have shrinks := length_canonical_le pretty
  have longer := length_addPara_le pass.pbuf (Mask.canonical mask)
  have allowed : call.checkLevel 1 = false := by simp [Call.checkLevel, serves.server]
  have most : call.maxparams = 512 := by simp [Call.maxparams, serves.server]
  have counted : ¬ pass.nparams + 1 > 512 := by omega
  have fits : call.overflows (pass.next args) ((Mask.canonical mask).length + 1) = false := by
    rw [overflows_eq_false_iff]
    simp only [Pass.next]
    omega
  have plain : ¬ (mask.head? = some ':' ∨ mask = []) := fun bad => bad.elim word.noColon word.nonempty
  rw [setModeStep, caseOf_mask]
  simp only [change, maskMode, adding.args, allowed, most, counted, plain, fits, serves.remote,
    next_nparams, next_change, next_chptr, adding.sign, addEntry, if_false, Bool.false_eq_true]
  have calm : (pass.next args).errors = [] := adding.calm
  have standing : (pass.next args).Adding args := ⟨adding.sign, calm, rfl⟩
  cases addId list false (pass.chptr.masks list) (Mask.canonical mask) with
  | ok masks =>
    simp only [askMore_calm, makeWith_errors, calm]
    refine ⟨⟨adding.sign, calm, rfl⟩, rfl, rfl, by simp, ?_⟩
    simp only [makeWith_pbuf, next_pbuf]
    omega
  | error refused =>
    cases refused with
    | full =>
      simp only [askMore_calm, reply_errors, calm]
      refine ⟨⟨adding.sign, calm, rfl⟩, rfl, rfl, Nat.le_succ _, ?_⟩
      simp only [Pass.reply, next_pbuf]
      omega
    | redundant =>
      simp only [askMore_calm, calm]
      refine ⟨standing, rfl, rfl, Nat.le_succ _, ?_⟩
      simp only [next_pbuf]
      omega

/-- All masks of the line. -/
theorem run_masks {pass : Pass} (serves : Call.Serves call)
    (good : ∀ entry ∈ batch, Word entry.2 ∧ Mask.prettyMask entry.2 = entry.2)
    (adding : Pass.Adding pass (batch.map Prod.snd)) (few : pass.nparams + batch.length ≤ 512)
    (room : call.prelen pass.chptr + pass.mbuf.length + pass.pbuf.length + roomOf batch ≤ realModeBufLen) :
    ((batch.map fun entry => entry.1.letter).foldl (setModeStep call) pass).chptr =
      batch.foldl addEntry pass.chptr := by
  induction batch generalizing pass with
  | nil => rfl
  | cons entry batch ih =>
    obtain ⟨list, mask⟩ := entry
    have word : Word mask := (good (list, mask) (List.mem_cons_self ..)).1
    have pretty : Mask.prettyMask mask = mask := (good (list, mask) (List.mem_cons_self ..)).2
    have standing : pass.Adding (mask :: batch.map Prod.snd) := adding
    simp only [roomOf, List.length_cons] at room few
    obtain ⟨next, made, count, mbuf, pbuf⟩ :=
      step_mask list serves standing word pretty (by omega) (by omega)
    have name := (addEntry_frame pass.chptr (list, mask)).1
    rw [List.map_cons, List.foldl_cons, List.foldl_cons, ← made]
    apply ih (fun entry member => good entry (List.mem_cons_of_mem _ member)) next
    · rw [count]
      omega
    · simp only [Call.prelen, made, name] at room ⊢
      omega

private theorem foldl_addPara (pbufSome : pbuf ≠ []) (paras : List Text) :
    paras.foldl addPara pbuf = pbuf ++ Parse.spaced paras := by
  induction paras generalizing pbuf with
  | nil => simp [Parse.spaced]
  | cons para paras ih =>
    rw [List.foldl_cons, ih (by simp [addPara, pbufSome])]
    simp [addPara, pbufSome, Parse.spaced]

/-- The parameter buffer is a list of words behind one space. -/
theorem spaced_foldl_addPara (first : para ≠ []) (paras : List Text) :
    ' ' :: (para :: paras).foldl addPara [] = Parse.spaced (para :: paras) := by
  have one : addPara [] para = para := by simp [addPara]
  rw [List.foldl_cons, one, foldl_addPara first]
  simp [Parse.spaced]

private theorem roomOf_eq (entry : MaskList × Text) (batch : List (MaskList × Text)) :
    roomOf (entry :: batch) =
      (Parse.spaced ((entry :: batch).map Prod.snd)).length + (entry :: batch).length := by
  induction batch generalizing entry with
  | nil => simp [roomOf, Parse.spaced]
  | cons next batch ih =>
    rw [roomOf, ih next]
    simp only [Parse.spaced, List.map_cons, List.flatMap_cons, List.length_append, List.length_cons]
    omega

theorem roomOf_batch (batch : Batch entries) (solid : ∀ entry ∈ entries, entry.2 ≠ []) :
    roomOf entries ≤ 210 := by
  obtain ⟨nonempty, few, short⟩ := batch
  cases entries with
  | nil => exact absurd rfl nonempty
  | cons entry entries =>
    have buffer := congrArg List.length
      (spaced_foldl_addPara (solid entry (List.mem_cons_self ..)) (entries.map Prod.snd))
    rw [roomOf_eq]
    simp only [ListBuf.of, List.map_cons, List.length_cons, modeBufLen, maxTsModeParams, maxPara] at *
    omega

/-- What a line needs of the names in it. -/
structure LineNames (me chname : Text) : Prop where
  meSolid : ' ' ∉ me
  meShort : me.length ≤ hostLen
  chan : Word chname
  chanHash : chname.head? = some '#'
  chanShort : chname.length ≤ channelLen

theorem word_signed (letters : List Char) (solid : ' ' ∉ letters) : Word ('+' :: letters) where
  nonempty := by simp
  solid := by simpa using solid
  noColon := by simp

/-- The parts of a MODE line with masks. -/
theorem words_listLine (names : LineNames me chname) (batch : Batch entries)
    (good : ∀ entry ∈ entries, Word entry.2) :
    Parse.words (modeLine me chname channelts (ListBuf.of entries).modebuf (ListBuf.of entries).parabuf) =
      ⟨me, "MODE".toList, chname :: Decimal.print channelts :: (ListBuf.of entries).modebuf ::
        entries.map Prod.snd⟩ := by
  obtain ⟨nonempty, few, short⟩ := batch
  obtain ⟨entry, others, rfl⟩ := List.exists_cons_of_ne_nil nonempty
  have buffer := spaced_foldl_addPara (good entry (List.mem_cons_self ..)).nonempty (others.map Prod.snd)
  have line : modeLine me chname channelts (ListBuf.of (entry :: others)).modebuf
      (ListBuf.of (entry :: others)).parabuf =
      ':' :: me ++ ' ' :: "MODE".toList ++ Parse.spaced (chname :: Decimal.print channelts ::
        (ListBuf.of (entry :: others)).modebuf :: (entry :: others).map Prod.snd) := by
    rw [Parse.spaced_cons, Parse.spaced_cons, Parse.spaced_cons, List.map_cons, ← buffer]
    simp [modeLine, ListBuf.of]
  rw [line, Parse.words_spaced names.meSolid (by decide) (by decide)]
  · intro text member
    simp only [List.mem_cons, List.mem_map] at member
    obtain rfl | rfl | rfl | ⟨one, member, rfl⟩ := member
    · exact names.chan
    · exact word_print channelts
    · apply word_signed
      intro space
      obtain ⟨one, -, letter⟩ := List.mem_map.mp space
      revert letter
      cases one.1 <;> decide
    · exact good one (List.mem_cons.mpr member)
  · simp only [List.length_cons, List.length_map, maxTsModeParams, maxPara] at few ⊢
    omega

/-- The TS in front of the modes of a server's line. -/
theorem stripTs_print (lower : 0 ≤ channelts) (upper : channelts ≤ Decimal.longMax) :
    stripTs ⟨name, true⟩ chptr (Decimal.print channelts :: rest) =
      if channelts ≠ 0 ∧ channelts > chptr.channelts then none else some rest := by
  have read : Decimal.atol (Decimal.print channelts) = channelts :=
    Decimal.atol_print (by unfold Decimal.longMax; omega) upper
  have digit : (Decimal.print channelts).head?.any isDigit = true := by
    have nonneg : ¬ channelts < 0 := by omega
    obtain ⟨first, others, digits⟩ := List.exists_cons_of_ne_nil (Decimal.print_ne_nil channelts)
    have member : first ∈ Nat.toDigits 10 channelts.natAbs := by
      have shown : Decimal.print channelts = Nat.toDigits 10 channelts.natAbs := by simp [Decimal.print, nonneg]
      rw [← shown, digits]
      exact List.mem_cons_self ..
    simp [digits, isDigit_eq, Decimal.isDigit_of_mem member]
  simp [stripTs, digit, read]

/-- The sign a line opens with changes nothing. -/
theorem step_opening (call : Call) (chptr : Chan) (args : List Text) :
    setModeStep call (Pass.start call chptr args) '+' = Pass.start call chptr args := rfl

theorem Peer.serves (peer : Peer) (build : Build) (world : World) (level : Nat) :
    Call.Serves ⟨build, world, peer.name, peer.source, level⟩ := ⟨rfl, rfl⟩

/-- A line of masks at the other end of the link: all are added, unless the line is
about a younger channel. -/
theorem receive_listLine (node : Node) (names : LineNames node.peer.name chname)
    (short : chptr.chname.length ≤ channelLen)
    (lower : 0 ≤ channelts) (upper : channelts ≤ Decimal.longMax) (batch : Batch entries)
    (good : ∀ entry ∈ entries, Word entry.2 ∧ Mask.prettyMask entry.2 = entry.2) :
    node.receive (some chptr) (modeLine node.peer.name chname channelts (ListBuf.of entries).modebuf
        (ListBuf.of entries).parabuf) =
      some (if channelts ≠ 0 ∧ channelts > chptr.channelts then chptr else entries.foldl addEntry chptr) := by
  have room := roomOf_batch batch fun entry member => (good entry member).1.nonempty
  have few := batch.few
  have added : (setModeRun ⟨node.build, node.world, node.peer.name, node.peer.source,
      modeLevel node.peer.source chptr⟩ chptr (ListBuf.of entries).modebuf (entries.map Prod.snd)).chptr =
      entries.foldl addEntry chptr := by
    rw [setModeRun, ListBuf.of, List.foldl_cons, step_opening]
    apply run_masks (node.peer.serves ..) good ⟨rfl, rfl, rfl⟩
    · simp only [Pass.start, maxTsModeParams, maxPara] at few ⊢
      omega
    · have meShort := names.meShort
      simp only [Call.prelen, Pass.start, realModeBufLen, channelLen, hostLen, List.length_cons,
        List.length_nil] at *
      omega
  simp only [Node.receive, words_listLine names batch fun entry member => (good entry member).1]
  rw [if_neg (by decide)]
  simp only [if_true, Option.map_some, List.drop_succ_cons, List.drop_zero, mMode, stripTs_print lower upper]
  by_cases younger : channelts ≠ 0 ∧ channelts > chptr.channelts
  · simp only [if_pos younger]
  · simp only [if_neg younger, setMode, added]

end SolidIrcd.Channel
