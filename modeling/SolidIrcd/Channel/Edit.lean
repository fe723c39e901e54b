import SolidIrcd.Channel.ListLine
import SolidIrcd.Channel.MaskMatch

/-! What the letters of a MODE line say: one edit of the channel each. The server of
the client and the servers behind it are to make the same edits. -/

namespace SolidIrcd.Channel

open Scan (Text)
open Decimal (atoi print strtol)

/-- One letter with its parameter. -/
inductive Edit where
  | ssl
  | rsl
  | operOnly
  | inviteOnly
  | flag (letter : Char) (flag : Flag)
  | status (status : MemberStatus) (name : Text)
  | mask (list : MaskList) (mask : Text)
  | joinRate (rate : Int × Int)
  | noJoinRate
  | limit (limit : Int)
  | noLimit
  | key (key : Text)

def Edit.letter : Edit → Char
  | .ssl => 'S'
  | .rsl => 'D'
  | .operOnly => 'O'
  | .inviteOnly => 'i'
  | .flag c _ => c
  | .status which _ => which.letter
  | .mask which _ => which.letter
  | .joinRate _ => 'j'
  | .noJoinRate => 'j'
  | .limit _ => 'l'
  | .noLimit => 'l'
  | .key _ => 'k'

def Edit.paras : Edit → List Text
  | .status _ name => [name]
  | .mask _ text => [text]
  | .joinRate rate => [printJoinRate rate]
  | .limit i => [print i]
  | .key text => [text]
  | _ => []

/-- What the edit does to a channel. -/
def Edit.apply (change : Sign) (chptr : Chan) : Edit → Chan
  | .ssl => chptr.setFlag .ssl change
  | .rsl => chptr.setFlag .rsl change
  | .operOnly => chptr.setFlag .operOnly change
  | .inviteOnly => chptr.setFlag .inviteOnly change
  | .flag _ bit => chptr.setFlag bit change
  | .status which name => chptr.setMember name (change = .plus) which
  | .mask which text =>
    match change with
    | .plus => chptr.setMasks (text :: chptr.masks which) which
    | .minus => chptr.setMasks (delId (chptr.masks which) text) which
  | .joinRate rate => chptr.setJoinRate rate
  | .noJoinRate => chptr.clearJoinRate
  | .limit i => chptr.setLimit i
  | .noLimit => chptr.setLimit 0
  | .key text => chptr.setKey (if change = .plus then text else [])

/-- The letters that are written without a look at the room left. -/
def Edit.loose : Edit → Bool
  | .ssl | .rsl | .operOnly => true
  | _ => false

/-- The room the other letters ask for. -/
def Edit.need : Edit → Nat
  | .status _ _ => nickLen + 1
  | .mask _ text => text.length + 1
  | .joinRate rate => (printJoinRate rate).length
  | .limit _ => 16
  | .key _ => keyLen + 2
  | _ => 1

/-- A join rate as `set_mode` keeps it. -/
structure Rate (rate : Int × Int) : Prop where
  numLow : 0 ≤ rate.1
  numHigh : rate.1 ≤ Decimal.intMax
  timeLow : 0 ≤ rate.2
  timeHigh : rate.2 ≤ Decimal.intMax
  whole : zeroJoinRate rate = rate

/-- What makes a server that gets the edit do it. -/
def Edit.Allowed (call : Call) (chptr : Chan) (change : Sign) : Edit → Prop
  | .ssl => caseOf call.build 'S' = .ssl ∧ 1 ≤ call.level ∧ call.sptr.umodez = true
  | .rsl => caseOf call.build 'D' = .rsl ∧ (call.sptr.ursl = true → call.sptr.oper = true)
  | .operOnly => 2 ≤ call.level ∧ call.sptr.oper = true
  | .inviteOnly => 2 ≤ call.level
  | .flag c bit => caseOf call.build c = .other ∧ (flagTable call.build).lookup c = some bit ∧ 1 ≤ call.level
  | .status which name => which.level ≤ call.level ∧ name ∈ chptr.members.map Member.name
  | .mask which text =>
    1 ≤ call.level ∧ (∃ given, Mask.canonical given = text) ∧ text.head? ≠ some ':' ∧
      (change = .plus → ∀ old ∈ chptr.masks which, mycmp old text = false)
  | .joinRate rate => change = .plus ∧ 1 ≤ call.level ∧ Rate rate
  | .noJoinRate => change = .minus ∧ 1 ≤ call.level
  | .limit i => change = .plus ∧ 1 ≤ call.level ∧ 1 ≤ i ∧ i ≤ Decimal.intMax
  | .noLimit => change = .minus ∧ 1 ≤ call.level
  | .key text =>
    1 ≤ call.level ∧ keyOk text = true ∧ (change = .plus → text.length ≤ keyLen) ∧
      (change = .minus → chptr.mode.key ≠ [] → text = chptr.mode.key)

/-- A mask that the next server reads as it is written. -/
def Edit.Settled : Edit → Prop
  | .mask _ text => Mask.canonical text = text
  | _ => True

/-- What the servers of a network share of a channel: all but the pending invitations. -/
def Chan.core (chptr : Chan) : Chan := { chptr with invites := [] }

theorem apply_core (edit : Edit) (change : Sign) (chptr : Chan) :
    (edit.apply change chptr).core = edit.apply change chptr.core := by
  cases edit with
  | mask which text => cases change <;> cases which <;> rfl
  | _ => rfl

theorem core_fields {mine yours : Chan} (same : mine.core = yours.core) :
    mine.chname = yours.chname ∧ mine.channelts = yours.channelts ∧ mine.mode = yours.mode ∧
      mine.members = yours.members ∧ ∀ list, mine.masks list = yours.masks list := by
  simp only [Chan.core, Chan.mk.injEq] at same
  obtain ⟨chname, channelts, mode, members, bans, exempts, invites, -⟩ := same
  refine ⟨chname, channelts, mode, members, fun list => ?_⟩
  cases list
  · exact bans
  · exact exempts
  · exact invites

/-- Everything an edit looks at is shared. -/
theorem allowed_core {mine yours : Chan} (same : mine.core = yours.core) (edit : Edit) (call : Call) (change : Sign) :
    edit.Allowed call mine change ↔ edit.Allowed call yours change := by
  obtain ⟨-, -, mode, members, masks⟩ := core_fields same
  cases edit <;> simp only [Edit.Allowed, members, mode, masks]

theorem apply_congr {mine yours : Chan} (same : mine.core = yours.core) (edit : Edit) (change : Sign) :
    (edit.apply change mine).core = (edit.apply change yours).core := by
  rw [apply_core, apply_core, same]

/-- A pass that has made an edit. -/
structure Wrote (edit : Edit) (before after : Pass) : Prop where
  core : after.chptr.core = (edit.apply before.change before.chptr).core
  change : after.change = before.change
  mbuf : after.mbuf = before.mbuf ++ [edit.letter]
  pbuf : after.pbuf = edit.paras.foldl addPara before.pbuf

/-- A call for a client of another server. -/
structure Call.Remote (call : Call) : Prop where
  person : call.sptr.isServer = false
  plain : call.sptr.uline = false
  remote : call.sptr.myClient = false

/-- A pass at a server that gets an edit with `more` behind it. -/
structure Takes (edit : Edit) (more : List Text) (before after : Pass) : Prop extends Wrote edit before after where
  args : after.args = more
  nparams : after.nparams = before.nparams + edit.paras.length

/-- Every client on the channel is known under its own name. -/
def World.Names (world : World) (members : List Member) : Prop :=
  ∀ l ∈ members, ∃ who, world.findChasing l.name = some who ∧ who.name = l.name

/-! The labels of the letters that have one in every build. -/

section

variable (build : Build)

theorem caseOf_status (status : MemberStatus) : caseOf build status.letter = .member status := by
  obtain ⟨haveSsl, chanmodeL, channelModeD⟩ := build
  cases status <;> cases haveSsl <;> cases channelModeD <;> rfl

theorem caseOf_operOnly : caseOf build 'O' = .operOnly := by
  obtain ⟨haveSsl, chanmodeL, channelModeD⟩ := build
  cases haveSsl <;> cases channelModeD <;> rfl

theorem caseOf_inviteOnly : caseOf build 'i' = .inviteOnly := by
  obtain ⟨haveSsl, chanmodeL, channelModeD⟩ := build
  cases haveSsl <;> cases channelModeD <;> rfl

theorem caseOf_joinRate : caseOf build 'j' = .joinRate := by
  obtain ⟨haveSsl, chanmodeL, channelModeD⟩ := build
  cases haveSsl <;> cases channelModeD <;> rfl

theorem caseOf_limit : caseOf build 'l' = .limit := by
  obtain ⟨haveSsl, chanmodeL, channelModeD⟩ := build
  cases haveSsl <;> cases channelModeD <;> rfl

theorem caseOf_key : caseOf build 'k' = .key := by
  obtain ⟨haveSsl, chanmodeL, channelModeD⟩ := build
  cases haveSsl <;> cases channelModeD <;> rfl

theorem lookup_inviteOnly : (flagTable build).lookup 'i' = some .inviteOnly := by
  obtain ⟨haveSsl, chanmodeL, channelModeD⟩ := build
  cases haveSsl <;> cases chanmodeL <;> cases channelModeD <;> rfl

end

/-! The server that gets an edit. -/

section

variable {call : Call} {pass : Pass} {more : List Text}

theorem checkLevel_of_le (level : rlevel ≤ call.level) : call.checkLevel rlevel = false := by
  simp [Call.checkLevel, Nat.not_lt.mpr level]

theorem Call.Remote.step (remote : call.Remote) (pass : Pass) (letter : Char) :
    setModeStep call pass letter = change call letter pass (caseOf call.build letter) := by
  simp [setModeStep, askMore, remote.remote]

theorem Call.Remote.counted (remote : call.Remote) (few : pass.nparams < maxModeParamsUser) (args : List Text) :
    ¬ (pass.next args).nparams > call.maxparams := by
  simp only [next_nparams, Call.maxparams, remote.person, remote.plain, Bool.or_self, Bool.false_eq_true, if_false]
  omega

theorem roomy (room : call.prelen pass.chptr + pass.mbuf.length + pass.pbuf.length + need ≤ realModeBufLen)
    (args : List Text) : call.overflows (pass.next args) need = false :=
  (overflows_eq_false_iff call (pass.next args) need).mpr room

theorem relay_ssl (remote : call.Remote) (allowed : Edit.ssl.Allowed call pass.chptr pass.change)
    (args : pass.args = more) :
    Takes .ssl more pass (setModeStep call pass 'S') := by
  obtain ⟨label, level, umodez⟩ := allowed
  have made : setModeStep call pass 'S' = pass.make (pass.chptr.setFlag .ssl pass.change) 'S' := by
    rw [remote.step, label]
    simp [change, sslMode, checkLevel_of_le level, umodez]
  rw [made]
  exact ⟨⟨rfl, rfl, rfl, rfl⟩, args, rfl⟩

theorem relay_rsl (remote : call.Remote) (allowed : Edit.rsl.Allowed call pass.chptr pass.change)
    (args : pass.args = more) :
    Takes .rsl more pass (setModeStep call pass 'D') := by
  obtain ⟨label, resolved⟩ := allowed
  have made : setModeStep call pass 'D' = pass.make (pass.chptr.setFlag .rsl pass.change) 'D' := by
    rw [remote.step, label]
    cases ursl : call.sptr.ursl with
    | false => simp [change, rslMode, ursl]
    | true => simp [change, rslMode, resolved ursl]
  rw [made]
  exact ⟨⟨rfl, rfl, rfl, rfl⟩, args, rfl⟩

theorem relay_operOnly (remote : call.Remote) (allowed : Edit.operOnly.Allowed call pass.chptr pass.change)
    (args : pass.args = more) :
    Takes .operOnly more pass (setModeStep call pass 'O') := by
  obtain ⟨level, oper⟩ := allowed
  have made : setModeStep call pass 'O' = pass.make (pass.chptr.setFlag .operOnly pass.change) 'O' := by
    rw [remote.step, caseOf_operOnly]
    simp [change, operMode, oper, Nat.not_lt.mpr level]
  rw [made]
  exact ⟨⟨rfl, rfl, rfl, rfl⟩, args, rfl⟩

theorem flagMode_remote (remote : call.Remote) (found : (flagTable call.build).lookup letter = some flag)
    (level : 1 ≤ call.level)
    (room : call.prelen pass.chptr + pass.mbuf.length + pass.pbuf.length + 1 ≤ realModeBufLen) :
    flagMode call letter pass = (pass.see letter).make (pass.chptr.setFlag flag pass.change) letter := by
  have fits := (overflows_eq_false_iff call pass 1).mpr room
  simp [flagMode, checkLevel_of_le level, fits, found, remote.remote]

theorem relay_flag (remote : call.Remote) (allowed : (Edit.flag letter flag).Allowed call pass.chptr pass.change)
    (room : call.prelen pass.chptr + pass.mbuf.length + pass.pbuf.length + 1 ≤ realModeBufLen)
    (args : pass.args = more) :
    Takes (.flag letter flag) more pass (setModeStep call pass letter) := by
  obtain ⟨label, found, level⟩ := allowed
  rw [remote.step, label, change, flagMode_remote remote found level room]
  exact ⟨⟨rfl, rfl, rfl, rfl⟩, args, rfl⟩

theorem relay_inviteOnly (remote : call.Remote) (level : 2 ≤ call.level)
    (room : call.prelen pass.chptr + pass.mbuf.length + pass.pbuf.length + 1 ≤ realModeBufLen)
    (args : pass.args = more) :
    Takes .inviteOnly more pass (setModeStep call pass 'i') := by
  rw [remote.step, caseOf_inviteOnly, change, inviteOnlyMode]
  simp only [checkLevel_of_le level, Bool.false_eq_true, if_false]
  rw [flagMode_remote remote (lookup_inviteOnly call.build) (by omega)]
  · refine ⟨⟨?_, rfl, rfl, rfl⟩, args, rfl⟩
    simp only [Pass.make, Pass.see]
    split <;> rfl
  · simp only [Call.prelen] at room ⊢
    split <;> exact room

theorem findUserMember_of_mem {members : List Member} (inside : name ∈ members.map Member.name) :
    ∃ cm, findUserMember members name = some cm ∧ cm.name = name := by
  obtain ⟨cm, member, rfl⟩ := List.mem_map.mp inside
  have found : (findUserMember members cm.name).isSome := by
    simpa [findUserMember] using ⟨cm, member, rfl⟩
  obtain ⟨other, same⟩ := Option.isSome_iff_exists.mp found
  exact ⟨other, same, by simpa using List.find?_some same⟩

theorem relay_status (remote : call.Remote) (names : call.world.Names pass.chptr.members)
    (allowed : (Edit.status status name).Allowed call pass.chptr pass.change)
    (args : pass.args = name :: more) (few : pass.nparams < maxModeParamsUser)
    (room : call.prelen pass.chptr + pass.mbuf.length + pass.pbuf.length + (nickLen + 1) ≤ realModeBufLen) :
    Takes (.status status name) more pass (setModeStep call pass status.letter) := by
  obtain ⟨level, inside⟩ := allowed
  obtain ⟨l, member, rfl⟩ := List.mem_map.mp inside
  obtain ⟨who, chased, same⟩ := names l member
  obtain ⟨cm, found, name⟩ := findUserMember_of_mem inside
  have made : setModeStep call pass status.letter =
      (pass.next more).makeWith (pass.chptr.setMember l.name (pass.change = .plus) status) status.letter l.name := by
    rw [remote.step, caseOf_status, change, memberMode, args]
    simp only [checkLevel_of_le level, Bool.false_eq_true, if_false, if_neg (remote.counted few more), chased,
      next_chptr, same, found, roomy room more, name, next_change, Chan.blast, remote.person, Bool.false_and]
    rfl
  rw [made]
  exact ⟨⟨rfl, rfl, rfl, rfl⟩, rfl, rfl⟩

theorem canonical_ne_nil (mask : Text) : Mask.canonical mask ≠ [] :=
  Mask.collapse_ne_nil (Mask.prettyMask_ne_nil mask)

theorem relay_mask (remote : call.Remote) (allowed : (Edit.mask list mask).Allowed call pass.chptr pass.change)
    (canonical : Mask.canonical mask = mask) (args : pass.args = mask :: more) (few : pass.nparams < maxModeParamsUser)
    (room : call.prelen pass.chptr + pass.mbuf.length + pass.pbuf.length + (mask.length + 1) ≤ realModeBufLen) :
    Takes (.mask list mask) more pass (setModeStep call pass list.letter) := by
  obtain ⟨level, -, noColon, new⟩ := allowed
  have nonempty : mask ≠ [] := canonical ▸ canonical_ne_nil mask
  have plain : ¬ (mask.head? = some ':' ∨ mask = []) := fun bad => bad.elim noColon nonempty
  have made : setModeStep call pass list.letter =
      (pass.next more).makeWith ((Edit.mask list mask).apply pass.change pass.chptr) list.letter mask := by
    rw [remote.step, caseOf_mask, change, maskMode, args]
    simp only [checkLevel_of_le level, Bool.false_eq_true, if_false, if_neg (remote.counted few more), plain,
      canonical, roomy room more, next_chptr, next_change]
    cases sign : pass.change with
    | plus =>
      have absent : ((pass.chptr.masks list).any (mycmp · mask)) = false := by
        rw [List.any_eq_false]
        intro old member
        simp [new sign old member]
      simp [addId, remote.remote, refusal_server, absent, Edit.apply]
    | minus => simp [Edit.apply]
  rw [made]
  exact ⟨⟨rfl, rfl, rfl, rfl⟩, rfl, rfl⟩

/-- A join rate is read back as it was printed. -/
theorem readJoinRate_print (rate : Rate pair) : readJoinRate (printJoinRate pair) = some pair := by
  obtain ⟨num, time⟩ := pair
  have num' := Decimal.strtol_print_int rate.numLow rate.numHigh
  have time' := Decimal.strtol_print_int rate.timeLow rate.timeHigh
  have low := Decimal.toInt_of_small rate.numLow rate.numHigh
  have low' := Decimal.toInt_of_small rate.timeLow rate.timeHigh
  by_cases zero : num = 0 ∨ time = 0
  · have whole := rate.whole
    simp only [zeroJoinRate, zero, if_true] at whole
    rw [← whole]
    rfl
  · have numLow : ¬ num < 0 := Int.not_lt.mpr rate.numLow
    have timeLow : ¬ time < 0 := Int.not_lt.mpr rate.timeLow
    have colon : ':' ∈ print num ++ ':' :: print time := by simp
    simp only [printJoinRate, zero, if_false, readJoinRate, Decimal.takeWhile_pair, Decimal.dropWhile_pair, colon,
      if_true, num', time', low, low', numLow, timeLow, ne_eq, not_true_eq_false, or_self]

theorem relay_joinRate (remote : call.Remote) (allowed : (Edit.joinRate rate).Allowed call pass.chptr pass.change)
    (args : pass.args = printJoinRate rate :: more) (few : pass.nparams < maxModeParamsUser)
    (room : call.prelen pass.chptr + pass.mbuf.length + pass.pbuf.length + (printJoinRate rate).length ≤
      realModeBufLen) :
    Takes (.joinRate rate) more pass (setModeStep call pass 'j') := by
  obtain ⟨sign, level, kept⟩ := allowed
  have made : setModeStep call pass 'j' =
      ((pass.next more).see 'j').makeWith (pass.chptr.setJoinRate rate) 'j' (printJoinRate rate) := by
    have fits : call.overflows ((pass.next more).see 'j') (printJoinRate rate).length = false := roomy room more
    rw [remote.step, caseOf_joinRate, change, joinRateMode, sign, args]
    simp only [checkLevel_of_le level, Bool.false_eq_true, if_false, if_neg (remote.counted few more), remote.remote,
      Bool.false_and, readJoinRate_print kept, kept.whole, fits]
    rfl
  rw [made]
  exact ⟨⟨rfl, rfl, rfl, rfl⟩, rfl, rfl⟩

theorem relay_noJoinRate (remote : call.Remote) (allowed : Edit.noJoinRate.Allowed call pass.chptr pass.change)
    (room : call.prelen pass.chptr + pass.mbuf.length + pass.pbuf.length + 1 ≤ realModeBufLen)
    (args : pass.args = more) :
    Takes .noJoinRate more pass (setModeStep call pass 'j') := by
  obtain ⟨sign, level⟩ := allowed
  have made : setModeStep call pass 'j' = (pass.see 'j').make pass.chptr.clearJoinRate 'j' := by
    have fits : call.overflows (pass.see 'j') 1 = false := (overflows_eq_false_iff call (pass.see 'j') 1).mpr room
    rw [remote.step, caseOf_joinRate, change, joinRateMode, sign]
    simp only [checkLevel_of_le level, Bool.false_eq_true, if_false, remote.remote, Bool.false_and, fits]
    rfl
  rw [made]
  exact ⟨⟨rfl, rfl, rfl, rfl⟩, args, rfl⟩

theorem relay_limit (remote : call.Remote) (allowed : (Edit.limit i).Allowed call pass.chptr pass.change)
    (args : pass.args = print i :: more) (few : pass.nparams < maxModeParamsUser)
    (room : call.prelen pass.chptr + pass.mbuf.length + pass.pbuf.length + 16 ≤ realModeBufLen) :
    Takes (.limit i) more pass (setModeStep call pass 'l') := by
  obtain ⟨sign, level, positive, small⟩ := allowed
  have made : setModeStep call pass 'l' =
      ((pass.next more).see 'l').makeWith (pass.chptr.setLimit i) 'l' (print i) := by
    have fits : call.overflows ((pass.next more).see 'l') 16 = false := roomy room more
    have read : atoi (print i) = i := Decimal.atoi_print (by omega) small
    rw [remote.step, caseOf_limit, change, limitMode, sign, args]
    simp only [checkLevel_of_le level, Bool.false_eq_true, if_false, if_neg (remote.counted few more), remote.remote,
      Bool.false_and, fits, read, if_neg (show ¬ i < 1 by omega)]
    rfl
  rw [made]
  exact ⟨⟨rfl, rfl, rfl, rfl⟩, rfl, rfl⟩

theorem relay_noLimit (remote : call.Remote) (allowed : Edit.noLimit.Allowed call pass.chptr pass.change)
    (room : call.prelen pass.chptr + pass.mbuf.length + pass.pbuf.length + 1 ≤ realModeBufLen)
    (args : pass.args = more) :
    Takes .noLimit more pass (setModeStep call pass 'l') := by
  obtain ⟨sign, level⟩ := allowed
  have made : setModeStep call pass 'l' = (pass.see 'l').make (pass.chptr.setLimit 0) 'l' := by
    have fits : call.overflows (pass.see 'l') 1 = false := (overflows_eq_false_iff call (pass.see 'l') 1).mpr room
    rw [remote.step, caseOf_limit, change, limitMode, sign]
    simp only [checkLevel_of_le level, Bool.false_eq_true, if_false, remote.remote, Bool.false_and, fits]
    rfl
  rw [made]
  exact ⟨⟨rfl, rfl, rfl, rfl⟩, args, rfl⟩

theorem relay_key (remote : call.Remote) (allowed : (Edit.key key).Allowed call pass.chptr pass.change)
    (args : pass.args = key :: more) (few : pass.nparams < maxModeParamsUser)
    (room : call.prelen pass.chptr + pass.mbuf.length + pass.pbuf.length + (keyLen + 2) ≤ realModeBufLen) :
    Takes (.key key) more pass (setModeStep call pass 'k') := by
  obtain ⟨level, ok, short, named⟩ := allowed
  have made : setModeStep call pass 'k' =
      ((pass.next more).see 'k').makeWith ((Edit.key key).apply pass.change pass.chptr) 'k' key := by
    have fits : call.overflows ((pass.next more).see 'k') (keyLen + 2) = false := roomy room more
    rw [remote.step, caseOf_key, change, keyMode, args]
    simp only [checkLevel_of_le level, Bool.false_eq_true, if_false, if_neg (remote.counted few more), remote.remote,
      Bool.false_and, fits, ok, Bool.not_true]
    cases sign : pass.change with
    | plus => simp [Pass.see, sign, Edit.apply, List.take_of_length_le (short sign)]
    | minus =>
      have sent : (if pass.chptr.mode.key = [] then key else pass.chptr.mode.key) = key := by
        split
        · rfl
        next some => exact (named sign some).symm
      simp [Pass.see, sign, Edit.apply, sent]
  rw [made]
  exact ⟨⟨rfl, rfl, rfl, rfl⟩, rfl, rfl⟩

/-- An edit that is allowed and fits is made. -/
theorem relay_edit (remote : call.Remote) (names : call.world.Names pass.chptr.members) (edit : Edit)
    (allowed : edit.Allowed call pass.chptr pass.change) (settled : edit.Settled) (args : pass.args = edit.paras ++ more)
    (few : edit.paras ≠ [] → pass.nparams < maxModeParamsUser)
    (room : edit.loose = false →
      call.prelen pass.chptr + pass.mbuf.length + pass.pbuf.length + edit.need ≤ realModeBufLen) :
    Takes edit more pass (setModeStep call pass edit.letter) := by
  cases edit with
  | ssl => exact relay_ssl remote allowed args
  | rsl => exact relay_rsl remote allowed args
  | operOnly => exact relay_operOnly remote allowed args
  | inviteOnly => exact relay_inviteOnly remote allowed (room rfl) args
  | flag letter flag => exact relay_flag remote allowed (room rfl) args
  | status status name => exact relay_status remote names allowed args (few (by simp [Edit.paras])) (room rfl)
  | mask list mask => exact relay_mask remote allowed settled args (few (by simp [Edit.paras])) (room rfl)
  | joinRate rate => exact relay_joinRate remote allowed args (few (by simp [Edit.paras])) (room rfl)
  | noJoinRate => exact relay_noJoinRate remote allowed (room rfl) args
  | limit i => exact relay_limit remote allowed args (few (by simp [Edit.paras])) (room rfl)
  | noLimit => exact relay_noLimit remote allowed (room rfl) args
  | key key => exact relay_key remote allowed args (few (by simp [Edit.paras])) (room rfl)

end

end SolidIrcd.Channel
