import SolidIrcd.Channel.ListLine

/-! The SJOIN lines of a burst at the other end of the link: the modes and the
members they carry are read as they were written. -/

namespace SolidIrcd.Channel

open Scan (Text)
open Parse (Word word_print)
open Decimal (atoi print)

/-- What `set_mode` and `m_sjoin` make sure of in the modes of a channel. -/
structure Mode.Valid (build : Build) (mode : Mode) : Prop where
  limitLow : 0 ≤ mode.limit
  limitHigh : mode.limit ≤ Decimal.intMax
  keyShort : mode.key.length ≤ keyLen
  keyOk : mode.key = [] ∨ keyOk mode.key = true
  numLow : 0 ≤ mode.joinNum
  numHigh : mode.joinNum ≤ Decimal.intMax
  timeLow : 0 ≤ mode.joinTime
  timeHigh : mode.joinTime ≤ Decimal.intMax
  rate : mode.joinNum = 0 ↔ mode.joinTime = 0
  rateUnset : mode.flags .joinRate = false → mode.joinNum = 0
  ssl : mode.flags .ssl = true → build.haveSsl = true
  rsl : mode.flags .rsl = true → build.channelModeD = true

/-- The flags an SJOIN can carry. -/
def carried (build : Build) (flag : Flag) : Bool :=
  decide (flag = .joinRate) || (letterTable build).any fun row => row.2 = flag

/-- The modes that arrive. -/
def Mode.sent (build : Build) (mode : Mode) : Mode :=
  { mode with flags := fun flag => mode.flags flag && carried build flag }

/-- Every build sends every flag but those of modes it does not have. -/
theorem carried_eq_false (missing : carried build flag = false) :
    (flag = .ssl ∧ build.haveSsl = false) ∨ (flag = .rsl ∧ build.channelModeD = false) ∨
      (flag = .listed ∧ build.chanmodeL = false) := by
  revert missing
  obtain ⟨haveSsl, chanmodeL, channelModeD⟩ := build
  cases flag <;> revert haveSsl chanmodeL channelModeD <;> decide

theorem carried_listed (build : Build) : carried build .listed = build.chanmodeL := by
  obtain ⟨haveSsl, chanmodeL, channelModeD⟩ := build
  revert haveSsl chanmodeL channelModeD
  decide

/-- All modes arrive, unless the channel is `+L` in a build that does not send it. -/
theorem sent_eq_iff (valid : Mode.Valid build mode) :
    mode.sent build = mode ↔ (mode.flags .listed = true → build.chanmodeL = true) := by
  constructor
  · intro same listed
    have flag := congrArg (fun mode => mode.flags .listed) same
    simpa [Mode.sent, carried_listed, listed] using flag
  · intro sendable
    have flags : (mode.sent build).flags = mode.flags := by
      funext flag
      simp only [Mode.sent, Bool.and_eq_left_iff_imp]
      intro set
      cases missing : carried build flag with
      | true => rfl
      | false =>
        obtain ⟨rfl, off⟩ | ⟨rfl, off⟩ | ⟨rfl, off⟩ := carried_eq_false missing
        · exact absurd (valid.ssl set) (by simp [off])
        · exact absurd (valid.rsl set) (by simp [off])
        · exact absurd (sendable set) (by simp [off])
    exact congrArg (fun flags => { mode with flags := flags }) flags

/-! Reading the modes back. -/

theorem sjoinTable_lookup (build : Build) :
    ∀ row ∈ letterTable build, (sjoinTable build).lookup row.1 = some row.2 := by
  obtain ⟨haveSsl, chanmodeL, channelModeD⟩ := build
  revert haveSsl chanmodeL channelModeD
  decide

theorem sjoinTable_other (build : Build) :
    ∀ letter ∈ ['+', '0', 'l', 'k', 'j'], (sjoinTable build).lookup letter = none := by
  obtain ⟨haveSsl, chanmodeL, channelModeD⟩ := build
  intro letter member
  simp only [List.mem_cons, List.not_mem_nil, or_false] at member
  obtain rfl | rfl | rfl | rfl | rfl := member <;> cases haveSsl <;> cases chanmodeL <;> cases channelModeD <;> rfl

/-- A sign, or the zero of a line without modes. -/
theorem readModes_skip (skipped : letter = '+' ∨ letter = '0') (rest : Text) (mode : Mode) (para : Text)
    (args : List Text) :
    readModes build (letter :: rest) mode (para :: args) = readModes build rest mode (para :: args) := by
  obtain rfl | rfl := skipped
  · rw [readModes, sjoinTable_other build '+' (by simp)]
    rfl
  · rw [readModes, sjoinTable_other build '0' (by simp)]
    rfl

theorem readModes_flag (found : (sjoinTable build).lookup letter = some flag) (rest : Text) (mode : Mode)
    (args : List Text) :
    readModes build (letter :: rest) mode args = readModes build rest (mode.set flag true) args := by
  cases args <;> simp only [readModes, found]

/-- The letters of flags. -/
theorem readModes_flags (rows : List (Char × Flag))
    (known : ∀ row ∈ rows, (sjoinTable build).lookup row.1 = some row.2) (source mode : Mode) (rest : Text)
    (args : List Text) :
    readModes build (source.letters rows ++ rest) mode args =
      readModes build rest
        { mode with flags := fun flag => mode.flags flag || (source.flags flag && rows.any fun row => row.2 = flag) }
        args := by
  induction rows generalizing mode with
  | nil => simp [Mode.letters]
  | cons row rows ih =>
    obtain ⟨letter, flag⟩ := row
    have later := ih fun row member => known row (List.mem_cons_of_mem _ member)
    have found : (sjoinTable build).lookup letter = some flag := known (letter, flag) (List.mem_cons_self ..)
    by_cases set : source.flags flag = true
    · have letters : source.letters ((letter, flag) :: rows) = letter :: source.letters rows := by
        simp [Mode.letters, set]
      rw [letters, List.cons_append, readModes_flag found, later]
      congr 2
      funext other
      by_cases same : other = flag
      · subst same
        simp [Mode.set, set]
      · simp [Mode.set, same, Ne.symm same]
    · have letters : source.letters ((letter, flag) :: rows) = source.letters rows := by
        simp [Mode.letters, set]
      rw [letters, later]
      congr 2
      funext other
      by_cases same : other = flag
      · subst same
        simp [set]
      · simp [Ne.symm same]

/-- A mode with a parameter, which may not be there. -/
theorem readModes_para {condition : Prop} [Decidable condition] (letter : Char) (member : letter ∈ ['l', 'k', 'j'])
    (read : condition → readPara start para letter = some after) (same : ¬ condition → start = after)
    (rest : Text) (more : args ≠ []) :
    readModes build ((if condition then [letter] else []) ++ rest) start ((if condition then [para] else []) ++ args) =
      readModes build rest after args := by
  have other : (sjoinTable build).lookup letter = none :=
    sjoinTable_other build letter (List.mem_cons_of_mem _ (List.mem_cons_of_mem _ member))
  by_cases given : condition
  · simp only [if_pos given, List.singleton_append, readModes, other, read given, if_neg more]
  · simp only [if_neg given, List.nil_append, same given]

/-- A join rate is read back as it was printed. -/
theorem readPara_rate (valid : Mode.Valid build mode) (start : Mode) :
    readPara start (printJoinRate (mode.joinNum, mode.joinTime)) 'j' =
      some { start.set .joinRate true with joinNum := mode.joinNum, joinTime := mode.joinTime } := by
  by_cases zero : mode.joinNum = 0 ∨ mode.joinTime = 0
  · have num : mode.joinNum = 0 := zero.elim id valid.rate.mpr
    have time : mode.joinTime = 0 := valid.rate.mp num
    simp only [printJoinRate, num, time, readPara]
    rfl
  · simp only [printJoinRate, zero, if_false, readPara, Decimal.takeWhile_pair, Decimal.dropWhile_pair]
    simp [Decimal.atoi_print valid.numLow valid.numHigh, Decimal.atoi_print valid.timeLow valid.timeHigh]

/-- The modes with parameters, from modes that have none of them. -/
theorem readModes_paras (valid : Mode.Valid build mode) (flags : Flag → Bool) (list : Text) :
    readModes build (mode.paras.map Prod.fst) { Mode.clear with flags := flags }
        (mode.paras.map Prod.snd ++ [list]) =
      some ({ mode with flags := fun flag => flags flag || (decide (flag = .joinRate) && mode.flags .joinRate) },
        [list]) := by
  have letters : mode.paras.map Prod.fst = (if mode.limit ≠ 0 then ['l'] else []) ++
      ((if mode.key ≠ [] then ['k'] else []) ++ ((if mode.flags .joinRate then ['j'] else []) ++ [])) := by
    simp only [Mode.paras, List.map_append, apply_ite (List.map Prod.fst), List.map_cons, List.map_nil,
      List.append_nil, List.append_assoc]
  have texts : mode.paras.map Prod.snd ++ [list] = (if mode.limit ≠ 0 then [print mode.limit] else []) ++
      ((if mode.key ≠ [] then [mode.key] else []) ++
        ((if mode.flags .joinRate then [printJoinRate (mode.joinNum, mode.joinTime)] else []) ++ [list])) := by
    simp only [Mode.paras, List.map_append, apply_ite (List.map Prod.snd), List.map_cons, List.map_nil,
      List.append_assoc]
  have limit : readPara { Mode.clear with flags := flags } (print mode.limit) 'l' =
      some { Mode.clear with flags := flags, limit := mode.limit } := by
    simp [readPara, Decimal.atoi_print valid.limitLow valid.limitHigh]
  have key : readPara { Mode.clear with flags := flags, limit := mode.limit } mode.key 'k' =
      some { Mode.clear with flags := flags, limit := mode.limit, key := mode.key } := by
    simp [readPara, List.take_of_length_le valid.keyShort]
  have rate (set : mode.flags .joinRate = true) :
      readPara { Mode.clear with flags := flags, limit := mode.limit, key := mode.key }
          (printJoinRate (mode.joinNum, mode.joinTime)) 'j' =
        some { mode with
          flags := fun flag => flags flag || (decide (flag = .joinRate) && mode.flags .joinRate) } := by
    rw [readPara_rate valid]
    simp only [Mode.set, Option.some.injEq, Mode.mk.injEq, and_true]
    funext flag
    by_cases isRate : flag = .joinRate <;> simp [isRate, set]
  have unset (off : ¬ mode.flags .joinRate = true) :
      ({ Mode.clear with flags := flags, limit := mode.limit, key := mode.key } : Mode) =
        { mode with
          flags := fun flag => flags flag || (decide (flag = .joinRate) && mode.flags .joinRate) } := by
    have num := valid.rateUnset (by simpa using off)
    simp [Mode.clear, off, num, valid.rate.mp num]
  rw [letters, texts, readModes_para 'l' (by simp) (fun _ => limit) (fun zero => by simp_all [Mode.clear]) _ (by simp),
    readModes_para 'k' (by simp) (fun _ => key) (fun none => by simp_all [Mode.clear]) _ (by simp),
    readModes_para 'j' (by simp) rate unset _ (by simp), readModes]

/-- What the modes of a channel are at the other end. -/
theorem readModes_sent (valid : Mode.Valid build mode) (list : Text) :
    readModes build (channelModes build true mode).1 .clear (mode.paras.map Prod.snd ++ [list]) =
      some (mode.sent build, [list]) := by
  obtain ⟨para, args, split⟩ : ∃ para args, mode.paras.map Prod.snd ++ [list] = para :: args :=
    List.exists_cons_of_ne_nil (by simp)
  simp only [channelModes, List.cons_append, split]
  rw [readModes_skip (.inl rfl), ← split, readModes_flags _ (sjoinTable_lookup build),
    readModes_paras valid]
  simp only [Mode.sent, Option.some.injEq, Prod.mk.injEq, Mode.mk.injEq, and_true]
  funext flag
  by_cases isRate : flag = .joinRate
  · subst isRate
    cases set : mode.flags .joinRate <;> simp [Mode.clear, carried]
  · simp [Mode.clear, carried, isRate]

/-! The words of the lines. -/

theorem word_keyOk (ok : keyOk key = true) : Word key where
  nonempty := by simp_all [keyOk]
  solid := by simp_all [keyOk]
  noColon := by simp_all [keyOk]

theorem word_rate (rate : Int × Int) : Word (printJoinRate rate) := by
  unfold printJoinRate
  split
  · exact ⟨by simp, by decide, by decide⟩
  · have first := word_print rate.1
    have second := word_print rate.2
    obtain ⟨c, others, digits⟩ := List.exists_cons_of_ne_nil first.nonempty
    refine ⟨by simp, ?_, ?_⟩
    · simp only [List.mem_append, List.mem_cons]
      rintro (before | colon | after)
      · exact first.solid before
      · exact absurd colon (by decide)
      · exact second.solid after
    · have head := first.noColon
      rw [digits] at head ⊢
      simpa using head

theorem word_paras (valid : Mode.Valid build mode) : ∀ para ∈ mode.paras.map Prod.snd, Word para := by
  intro para member
  simp only [Mode.paras, List.map_append, List.mem_append, apply_ite (List.map Prod.snd), List.map_cons,
    List.map_nil] at member
  obtain (limit | key) | rate := member
  · split at limit
    · exact List.mem_singleton.mp limit ▸ word_print _
    · simp at limit
  · split at key
    next some => exact List.mem_singleton.mp key ▸ word_keyOk (valid.keyOk.resolve_left some)
    next => simp at key
  · split at rate
    · exact List.mem_singleton.mp rate ▸ word_rate _
    · simp at rate

theorem length_paras_le (mode : Mode) : mode.paras.length ≤ 3 := by
  simp only [Mode.paras, List.length_append]
  split <;> split <;> split <;> simp

theorem letterTable_solid (build : Build) : ∀ row ∈ letterTable build, row.1 ≠ ' ' := by
  obtain ⟨haveSsl, chanmodeL, channelModeD⟩ := build
  revert haveSsl chanmodeL channelModeD
  decide

theorem paras_solid (mode : Mode) : ' ' ∉ mode.paras.map Prod.fst := by
  simp only [Mode.paras, List.map_append, apply_ite (List.map Prod.fst), List.map_cons, List.map_nil]
  split <;> split <;> split <;> decide

theorem word_letters (build : Build) (mode : Mode) : Word (channelModes build true mode).1 := by
  apply word_signed
  intro member
  obtain flag | para := List.mem_append.mp member
  · obtain ⟨row, row_mem, space⟩ := List.mem_map.mp flag
    exact letterTable_solid build row (List.mem_of_mem_filter row_mem) space
  · exact paras_solid mode para

/-- The words of the line a burst opens with. -/
theorem words_opening (names : LineNames me chname) (valid : Mode.Valid build mode) (channelts : Int)
    (list : Text) :
    Parse.words (sjoinOpening me chname channelts (channelModes build true mode).1
        (channelModes build true mode).2 ++ list) =
      ⟨me, "SJOIN".toList, print channelts :: chname :: (channelModes build true mode).1 ::
        (mode.paras.map Prod.snd ++ [list])⟩ := by
  have good := word_paras valid
  have few := length_paras_le mode
  have words : ∀ text ∈ print channelts :: chname :: (channelModes build true mode).1 ::
      mode.paras.map Prod.snd, Word text := by
    intro text member
    simp only [List.mem_cons] at member
    obtain rfl | rfl | rfl | para := member
    · exact word_print channelts
    · exact names.chan
    · exact word_letters build mode
    · exact good text para
  have line : ∃ rest, (rest = " :".toList ++ list ∨ rest = ' ' :: " :".toList ++ list) ∧
      sjoinOpening me chname channelts (channelModes build true mode).1 (channelModes build true mode).2 ++ list =
        ':' :: me ++ ' ' :: "SJOIN".toList ++ (Parse.spaced (print channelts :: chname ::
          (channelModes build true mode).1 :: mode.paras.map Prod.snd) ++ rest) := by
    cases paras : mode.paras.map Prod.snd with
    | nil =>
      refine ⟨' ' :: " :".toList ++ list, .inr rfl, ?_⟩
      simp [sjoinOpening, channelModes, paras, Parse.spaced]
    | cons para others =>
      refine ⟨" :".toList ++ list, .inl rfl, ?_⟩
      have first : para ≠ [] := (good para (by simp [paras])).nonempty
      rw [Parse.spaced_cons, Parse.spaced_cons, Parse.spaced_cons, ← spaced_foldl_addPara first others]
      simp [sjoinOpening, channelModes, paras]
  obtain ⟨rest, gap, split⟩ := line
  rw [split, Parse.words_trailing names.meSolid (by decide) (by decide) words _ gap]
  · simp
  · simp only [List.length_cons, List.length_map, maxPara]
    omega

theorem words_continuation (names : LineNames me chname) (channelts : Int) (list : Text) :
    Parse.words (sjoinContinuation me chname channelts ++ list) =
      ⟨me, "SJOIN".toList, [print channelts, chname, ['0'], list]⟩ := by
  have line : sjoinContinuation me chname channelts ++ list =
      ':' :: me ++ ' ' :: "SJOIN".toList ++
        (Parse.spaced [print channelts, chname, ['0']] ++ (" :".toList ++ list)) := by
    simp [sjoinContinuation, Parse.spaced]
  have words : ∀ text ∈ [print channelts, chname, ['0']], Word text := by
    intro text member
    simp only [List.mem_cons, List.not_mem_nil, or_false] at member
    obtain rfl | rfl | rfl := member
    · exact word_print channelts
    · exact names.chan
    · exact ⟨by simp, by decide, by decide⟩
  rw [line, Parse.words_trailing names.meSolid (by decide) (by decide) words (by simp [maxPara])
    (.inl rfl)]
  rfl

/-! The members. -/

/-- What `do_nick_name` makes sure of in a nickname. -/
structure NickName (name : Text) : Prop where
  nonempty : name ≠ []
  short : name.length ≤ nickLen
  solid : ' ' ∉ name
  plain : ∀ c ∈ name, isStatus c = false

/-- A member as an SJOIN that is accepted brings it: of three signs in front of a
nickname only two are looked at. -/
def Member.sent (l : Member) : Member :=
  { l with voice := l.voice && !(l.chanop && l.halfop), deopped := false }

/-- A member as an SJOIN for a younger channel brings it. -/
def Member.dropped (l : Member) : Member := ⟨l.name, false, false, false, l.chanop⟩

def Member.arrives (keepnewmodes : Bool) (l : Member) : Member := if keepnewmodes then l.sent else l.dropped

@[simp] theorem arrives_name (keepnewmodes : Bool) (l : Member) : (l.arrives keepnewmodes).name = l.name := by
  cases keepnewmodes <;> rfl

theorem memberWord_token (nick : NickName l.name) : memberWord l ≠ [] ∧ ' ' ∉ memberWord l := by
  constructor
  · simp [memberWord, nick.nonempty]
  · have solid := nick.solid
    unfold memberWord
    cases l.chanop <;> cases l.halfop <;> cases l.voice <;> simp [solid]

theorem memberWord_name (nick : NickName l.name) : (memberWord l).dropWhile isStatus = l.name := by
  have stays : l.name.dropWhile isStatus = l.name := by
    obtain ⟨first, others, split⟩ := List.exists_cons_of_ne_nil nick.nonempty
    rw [split, List.dropWhile_cons_of_neg]
    simp [nick.plain first (by simp [split])]
  unfold memberWord
  cases l.chanop <;> cases l.halfop <;> cases l.voice <;> simp [isStatus, stays]

private theorem startsWith_plain (nick : NickName name) (sign : Char) (status : isStatus sign = true) :
    name.head? ≠ some sign ∧ (name.drop 1).head? ≠ some sign := by
  constructor
  · intro head
    have plain := nick.plain sign (List.mem_of_mem_head? head)
    simp [status] at plain
  · intro head
    have plain := nick.plain sign (List.mem_of_mem_drop (List.mem_of_mem_head? head))
    simp [status] at plain

/-- What the word of a member says at the other end. -/
theorem wordFlags_memberWord (keepnewmodes : Bool) (nick : NickName l.name) :
    wordFlags keepnewmodes (memberWord l) l.name = l.arrives keepnewmodes := by
  obtain ⟨atHead, atNext⟩ := startsWith_plain nick '@' (by decide)
  obtain ⟨percentHead, percentNext⟩ := startsWith_plain nick '%' (by decide)
  obtain ⟨plusHead, plusNext⟩ := startsWith_plain nick '+' (by decide)
  obtain ⟨name, chanop, halfop, voice, deopped⟩ := l
  cases keepnewmodes <;> cases chanop <;> cases halfop <;> cases voice <;>
    simp_all [wordFlags, startsWith, memberWord, Member.arrives, Member.sent, Member.dropped]

/-- The clients of a list of members are known behind the link. -/
def World.Knows (world : World) (members : List Member) : Prop :=
  ∀ l ∈ members, world.findChasing l.name = some ⟨l.name, true⟩

def Chan.addMembers (chptr : Chan) (new : List Member) : Chan :=
  { chptr with members := new ++ chptr.members }

/-- One member. -/
theorem joinMember_memberWord (keepnewmodes : Bool) (nick : NickName l.name)
    (known : world.findChasing l.name = some ⟨l.name, true⟩) (fresh : l.name ∉ chptr.members.map Member.name) :
    joinMember world keepnewmodes chptr (memberWord l) = chptr.addMembers [l.arrives keepnewmodes] := by
  have absent : (chptr.members.any fun cm => cm.name = l.name) = false := by
    rw [List.any_eq_false]
    intro cm member
    simpa using fun same : cm.name = l.name => fresh (List.mem_map.mpr ⟨cm, member, same⟩)
  simp [joinMember, memberWord_name nick, known, absent, wordFlags_memberWord keepnewmodes nick, Chan.addMembers]

/-- The members of a line, each in front of the one before. -/
theorem join_chunk (keepnewmodes : Bool) (nicks : ∀ l ∈ chunk, NickName l.name) (known : World.Knows world chunk)
    (distinct : (chunk.map Member.name).Nodup) (fresh : ∀ l ∈ chunk, l.name ∉ chptr.members.map Member.name) :
    (chunk.map memberWord).foldl (joinMember world keepnewmodes) chptr =
      chptr.addMembers (chunk.map (Member.arrives keepnewmodes)).reverse := by
  induction chunk generalizing chptr with
  | nil => rfl
  | cons l chunk ih =>
    obtain ⟨new, distinct⟩ := List.nodup_cons.mp distinct
    rw [List.map_cons, List.foldl_cons, joinMember_memberWord keepnewmodes (nicks l (List.mem_cons_self ..))
      (known l (List.mem_cons_self ..)) (fresh l (List.mem_cons_self ..)),
      ih (fun other member => nicks other (List.mem_cons_of_mem _ member))
        (fun other member => known other (List.mem_cons_of_mem _ member)) distinct]
    · simp [Chan.addMembers]
    · intro other member
      have absent := fresh other (List.mem_cons_of_mem _ member)
      have apart : other.name ≠ l.name := fun same => new (List.mem_map.mpr ⟨other, member, same⟩)
      simpa [Chan.addMembers, apart] using absent

theorem tokens_chunk (nicks : ∀ l ∈ chunk, NickName l.name) :
    Scan.tokens ' ' (chunkText chunk) = chunk.map memberWord := by
  have split : chunkText chunk = (chunk.map memberWord).flatMap (· ++ [' ']) := by
    simp [chunkText, List.flatMap_map]
  rw [split, Scan.tokens_flatMap]
  intro piece member
  obtain ⟨l, inside, rfl⟩ := List.mem_map.mp member
  exact memberWord_token (nicks l inside)

/-- Whether the TS of a line lets its modes in. -/
def keepsNew (created : Bool) (newts oldts : Int) : Bool := decide (tsOrder created newts oldts ≠ .keepOurs)

/-- A line with some members. -/
theorem sjoinChannel_chunk (nicks : ∀ l ∈ chunk, NickName l.name) (known : World.Knows world chunk)
    (distinct : (chunk.map Member.name).Nodup) (fresh : ∀ l ∈ chunk, l.name ∉ chptr.members.map Member.name)
    (some : created = true → chunk ≠ []) (newts : Int) (mode : Mode) :
    sjoinChannel world created chptr newts mode (chunkText chunk) =
      Option.some ((chptr.merge created newts mode).addMembers
        (chunk.map (Member.arrives (keepsNew created newts chptr.channelts))).reverse) := by
  have names : (chptr.merge created newts mode).members.map Member.name = chptr.members.map Member.name := by
    simp only [Chan.merge]
    split <;> simp [Chan.wipe]
  have fresh' : ∀ l ∈ chunk, l.name ∉ (chptr.merge created newts mode).members.map Member.name := by
    rwa [names]
  have joined := join_chunk (keepsNew created newts chptr.channelts) nicks known distinct fresh'
  simp only [sjoinChannel, tokens_chunk nicks]
  rw [← keepsNew, joined, if_neg]
  intro empty
  simp only [Bool.and_eq_true, List.isEmpty_iff, Chan.addMembers, List.append_eq_nil_iff,
    List.reverse_eq_nil_iff, List.map_eq_nil_iff] at empty
  exact some empty.1.1 empty.2.1

end SolidIrcd.Channel
