import SolidIrcd.Channel.Absorb
import SolidIrcd.Channel.Fields

/-! Which messages make the channel code write behind the end of a field or a buffer. -/

namespace SolidIrcd.Channel

open Scan (Text)

/-- The strings of a channel fit into its fields. -/
structure Chan.Fits (chptr : Chan) : Prop where
  chname : chptr.chname.length ≤ channelLen
  key : chptr.mode.key.length ≤ keyLen

theorem Touch.fits (touch : Touch call before after) (fits : before.Fits) : after.Fits := by
  cases touch with
  | key para => exact ⟨fits.chname, List.length_take_le ..⟩
  | noKey => exact ⟨fits.chname, Nat.zero_le _⟩
  | masks list masks =>
    refine ⟨?_, ?_⟩
    · rw [setMasks_chname]
      exact fits.chname
    · rw [setMasks_mode]
      exact fits.key
  | member name value sign status =>
    unfold Chan.blast
    split
    next => exact ⟨fits.chname, fits.key⟩
    next => exact ⟨fits.chname, fits.key⟩
  | _ => exact ⟨fits.chname, fits.key⟩

theorem RateTouch.fits (touch : RateTouch before after) (fits : before.Fits) : after.Fits := by
  cases touch with
  | _ => exact ⟨fits.chname, fits.key⟩

theorem setModeStep_fits (call : Call) (pass : Pass) (letter : Char) (fits : pass.chptr.Fits) :
    (setModeStep call pass letter).chptr.Fits := by
  rw [setModeStep, askMore_chptr]
  by_cases rate : caseOf call.build letter = .joinRate
  · rw [rate]
    exact (joinRateMode_touch call pass).fits fits
  · exact (change_touch call pass letter rate).fits fits

theorem setModeRun_fits (call : Call) (modes : Text) (pass : Pass) (fits : pass.chptr.Fits) :
    (modes.foldl (setModeStep call) pass).chptr.Fits := by
  induction modes generalizing pass with
  | nil => exact fits
  | cons letter modes ih => exact ih _ (setModeStep_fits call pass letter fits)

theorem mMode_fits (build : Build) (world : World) (cptr : Connection) (sptr : Source) (parv : List Text)
    (fits : Chan.Fits chptr) : (mMode build world cptr sptr chptr parv).chptr.Fits := by
  unfold mMode
  split
  next => exact fits
  next =>
    split
    next => exact fits
    next => exact fits
    next => exact setModeRun_fits _ _ _ fits

theorem mSamode_fits (build : Build) (world : World) (sptr : Source) (parv : List Text) (fits : Chan.Fits chptr) :
    (mSamode build world sptr chptr parv).chptr.Fits := by
  unfold mSamode
  split
  next => exact fits
  next =>
    split
    next => exact fits
    next => exact setModeRun_fits _ _ _ fits

theorem readPara_key (short : mode.key.length ≤ keyLen) (read : readPara mode para letter = some after) :
    after.key.length ≤ keyLen := by
  unfold readPara at read
  split at read
  next =>
    obtain rfl := Option.some.inj read
    exact List.length_take_le ..
  next =>
    obtain rfl := Option.some.inj read
    exact short
  next =>
    obtain rfl := Option.some.inj read
    exact short
  next => cases read

theorem readModes_key (build : Build) (modes : Text) (short : mode.key.length ≤ keyLen)
    (read : readModes build modes mode args = some (after, rest)) : after.key.length ≤ keyLen := by
  induction modes generalizing mode args with
  | nil =>
    obtain rfl := congrArg Prod.fst (Option.some.inj read)
    exact short
  | cons letter modes ih =>
    unfold readModes at read
    split at read
    next flag _ =>
      have kept : (mode.set flag true).key.length ≤ keyLen := short
      exact ih kept read
    next =>
      split at read
      next => exact ih short read
      next para others =>
        split at read
        next => exact ih short read
        next next taken =>
          split at read
          next => cases read
          next => exact ih (readPara_key short taken) read

theorem merge_fits (fits : Chan.Fits chptr) (created : Bool) (newts : Int) (short : mode.key.length ≤ keyLen) :
    (chptr.merge created newts mode).Fits := by
  refine ⟨?_, ?_⟩
  · rw [merge_chname]
    exact fits.chname
  · unfold Chan.merge
    dsimp only
    split
    next => exact fits.key
    next =>
      rcases mergeKey_eq chptr.mode.key mode.key with old | new
      · exact (congrArg List.length old).trans_le fits.key
      · exact (congrArg List.length new).trans_le short
    next => exact short

theorem joinMember_fits (world : World) (keepnewmodes : Bool) (s : Text) (fits : Chan.Fits chptr) :
    (joinMember world keepnewmodes chptr s).Fits := by
  unfold joinMember
  split
  next => exact fits
  next =>
    split
    next => exact fits
    next =>
      split
      next => exact fits
      next => exact ⟨fits.chname, fits.key⟩

theorem sjoinChannel_fits (world : World) (created : Bool) (fits : Chan.Fits chptr) (newts : Int)
    (short : mode.key.length ≤ keyLen) (list : Text)
    (result : sjoinChannel world created chptr newts mode list = some after) : after.Fits := by
  have every (people : List Text) (keepnewmodes : Bool) (chan : Chan) (start : chan.Fits) :
      (people.foldl (joinMember world keepnewmodes) chan).Fits := by
    induction people generalizing chan with
    | nil => exact start
    | cons s people ih => exact ih _ (joinMember_fits world keepnewmodes s start)
  unfold sjoinChannel at result
  dsimp only at result
  split at result
  next => cases result
  next =>
    obtain rfl := Option.some.inj result
    exact every _ _ _ (merge_fits fits created newts short)

theorem mSjoin_fits (build : Build) (world : World) (timeofday : Int) (parv : List Text)
    (known : ∀ chan, channel = some chan → chan.Fits)
    (opened : channel = none → ∀ first chname rest, Fields.shiftTs parv = first :: chname :: rest →
      chname.length ≤ channelLen)
    (result : mSjoin build world timeofday channel parv = some after) : after.Fits := by
  unfold mSjoin at result
  dsimp only at result
  split at result
  next first chname modes para args shifted =>
    have shift : Fields.shiftTs parv = first :: chname :: modes :: para :: args := by
      rw [← shifted]
      cases parv with
      | nil => rfl
      | cons first rest => cases rest <;> rfl
    split at result
    next => exact known after result
    next =>
      have start : (channel.getD (.create chname timeofday)).Fits := by
        cases channel with
        | none => exact ⟨opened rfl first chname _ shift, Nat.zero_le _⟩
        | some chan => exact known chan rfl
      split at result
      next =>
        obtain rfl := Option.some.inj result
        exact start
      next =>
        obtain rfl := Option.some.inj result
        exact start
      next mode list _ read =>
        exact sjoinChannel_fits world _ start _ (readModes_key build modes (Nat.zero_le _) read) list result
  next => exact known after result

namespace Fields

open Scan (tokens)
open Topics (Topic topicLen)

/-- The strings of a channel and of its topic fit into their fields. -/
structure Room.Fits (room : Room) : Prop where
  chan : room.chan.Fits
  topic : room.topic.text.length ≤ topicLen
  topicNick : room.topic.nick.length ≤ nickLen

def State.Fits (state : State) : Prop := ∀ room ∈ state, room.Fits

variable {state : State}

theorem find_mem (found : state.find name = some room) : room ∈ state := List.mem_of_find?_eq_some found

theorem put_fits (fits : state.Fits) (name : Text) (new : Room.Fits room) : (state.put name room).Fits := by
  intro other member
  obtain ⟨old, inside, rfl⟩ := List.mem_map.mp member
  split
  next => exact new
  next => exact fits old inside

theorem drop_fits (fits : state.Fits) (name : Text) : (state.drop name).Fits :=
  fun room member => fits room (List.mem_of_mem_filter member)

/-- `get_channel` may make a channel of the name it is given. -/
def Opens (state : State) (chname : Text) : Prop := chname ≠ [] ∧ state.find chname = none

theorem getChannel_cases (myClient : Bool) (timeofday : Int) (create : Bool) (chname : Text) (state : State) :
    getChannel myClient timeofday create chname state = (state, []) ∧
        ¬ (create = true ∧ Opens state (openName myClient chname)) ∨
      getChannel myClient timeofday create chname state =
          (⟨.create (openName myClient chname) timeofday, ⟨[], [], 0⟩⟩ :: state,
            [⟨.chname, openName myClient chname⟩]) ∧
        create = true ∧ Opens state (openName myClient chname) := by
  unfold getChannel
  dsimp only
  by_cases known : openName myClient chname = [] ∨ (state.find (openName myClient chname)).isSome = true
  · rw [if_pos known]
    refine .inl ⟨rfl, ?_⟩
    rintro ⟨-, some, none⟩
    rcases known with empty | found
    · exact some empty
    · rw [none] at found
      cases found
  · rw [if_neg known]
    have opens : Opens state (openName myClient chname) :=
      ⟨fun empty => known (.inl empty), Option.not_isSome_iff_eq_none.mp fun found => known (.inr found)⟩
    by_cases creates : create = true
    · rw [if_pos creates]
      exact .inr ⟨rfl, creates, opens⟩
    · rw [if_neg creates]
      exact .inl ⟨rfl, fun made => creates made.1⟩

theorem create_fits (timeofday : Int) (short : chname.length ≤ channelLen) :
    Room.Fits ⟨.create chname timeofday, ⟨[], [], 0⟩⟩ :=
  ⟨⟨short, Nat.zero_le _⟩, Nat.zero_le _, Nat.zero_le _⟩

theorem getChannel_fits (myClient : Bool) (timeofday : Int) (create : Bool) (chname : Text) (fits : state.Fits)
    (short : create = true → Opens state (openName myClient chname) →
      (openName myClient chname).length ≤ channelLen) :
    (getChannel myClient timeofday create chname state).1.Fits := by
  rcases getChannel_cases myClient timeofday create chname state with ⟨same, -⟩ | ⟨made, creates, opens⟩
  · rw [same]
    exact fits
  · rw [made]
    exact List.forall_mem_cons.mpr ⟨create_fits timeofday (short creates opens), fits⟩

theorem getChannel_copies (myClient : Bool) (timeofday : Int) (create : Bool) (chname : Text) (state : State) :
    (∀ copy ∈ (getChannel myClient timeofday create chname state).2, copy.Fits) ↔
      (create = true → Opens state (openName myClient chname) → (openName myClient chname).length ≤ channelLen) := by
  rcases getChannel_cases myClient timeofday create chname state with ⟨same, not⟩ | ⟨made, creates, opens⟩
  · rw [same]
    simp only [List.not_mem_nil, false_imp_iff, implies_true, true_iff]
    exact fun creates opens => absurd ⟨creates, opens⟩ not
  · rw [made]
    simp only [List.mem_singleton, forall_eq, Copy.Fits, Dest.size, Nat.lt_succ_iff]
    exact ⟨fun fit _ _ => fit, fun all => all creates opens⟩

theorem length_cut_le (chname : Text) : (cut chname).length ≤ channelLen := by
  unfold cut
  split
  next => exact List.length_take_le ..
  next short => exact Nat.le_of_not_lt short

theorem length_openName_le (myClient : Bool) (short : chname.length ≤ channelLen) :
    (openName myClient chname).length ≤ channelLen := by
  unfold openName
  split
  next => exact length_cut_le chname
  next => exact short

/-- The names that `m_join` goes through are cut, whoever joins. -/
theorem joinNames_short (myClient : Bool) (parv : Text) : ∀ name ∈ joinNames myClient parv, name.length ≤ channelLen := by
  have kept (names jbuf : List Text) (short : ∀ name ∈ jbuf, name.length ≤ channelLen) :
      ∀ name ∈ names.foldl (joinStep myClient) jbuf, name.length ≤ channelLen := by
    induction names generalizing jbuf with
    | nil => exact short
    | cons name names ih =>
      apply ih
      unfold joinStep
      split
      next => exact short
      next =>
        split
        next => exact List.forall_mem_singleton.mpr (length_cut_le name)
        next =>
          split
          next => exact short
          next =>
            intro other member
            rcases List.mem_append.mp member with before | last
            · exact short other before
            · rw [List.mem_singleton.mp last]
              exact length_cut_le name
  exact kept (tokens ',' parv) [] (by simp)

theorem joinLoop_fits (myClient : Bool) (timeofday : Int) (reaches : Text → Bool) (names : List Text)
    (short : ∀ name ∈ names, name.length ≤ channelLen) (fits : state.Fits) :
    (joinLoop myClient timeofday reaches names state).1.Fits ∧
      ∀ copy ∈ (joinLoop myClient timeofday reaches names state).2, copy.Fits := by
  induction names generalizing state with
  | nil => exact ⟨fits, by simp [joinLoop]⟩
  | cons name names ih =>
    have later := fun {state : State} => @ih state fun other member => short other (List.mem_cons_of_mem _ member)
    rw [joinLoop]
    split
    next => exact later fits
    next =>
      have fit := length_openName_le myClient (short name (List.mem_cons_self ..))
      have opened := getChannel_fits myClient timeofday true name fits fun _ _ => fit
      have copied := (getChannel_copies myClient timeofday true name state).mpr fun _ _ => fit
      dsimp only
      refine ⟨(later opened).1, ?_⟩
      intro copy member
      rcases List.mem_append.mp member with first | rest
      · exact copied copy first
      · exact (later opened).2 copy rest

theorem sjoinKeys_short (build : Build) (modes : Text) (args : List Text) :
    ∀ key ∈ sjoinKeys build modes args, key.length ≤ keyLen := by
  induction modes generalizing args with
  | nil => simp [sjoinKeys]
  | cons letter modes ih =>
    unfold sjoinKeys
    split
    next => exact ih args
    next =>
      split
      next => exact ih []
      next para others =>
        have rest : ∀ key ∈ (if others = [] then [] else sjoinKeys build modes others), key.length ≤ keyLen := by
          split
          next => simp
          next => exact ih others
        split
        next => exact List.forall_mem_cons.mpr ⟨List.length_take_le .., rest⟩
        next =>
          split
          next => exact rest
          next => exact ih _

theorem modeKeys_short (call : Call) (modes : Text) (pass : Pass) (fits : pass.chptr.Fits) :
    ∀ key ∈ modeKeys call pass modes, key.length ≤ keyLen := by
  induction modes generalizing pass with
  | nil => simp [modeKeys]
  | cons letter modes ih =>
    have next := setModeStep_fits call pass letter fits
    rw [modeKeys]
    split
    next => exact List.forall_mem_cons.mpr ⟨next.key, ih _ next⟩
    next => exact ih _ next

theorem keyCopies_fit {keys : List Text} (short : ∀ key ∈ keys, key.length ≤ keyLen) :
    ∀ copy ∈ keys.map (Copy.mk .key), copy.Fits := by
  intro copy member
  obtain ⟨key, inside, rfl⟩ := List.mem_map.mp member
  exact Nat.lt_succ_of_le (short key inside)

theorem mode_fits (build : Build) (world : World) (cptr : Connection) (sptr : Source) (name : Text) (parv : List Text)
    (fits : state.Fits) : (mode build world cptr sptr name parv state).1.Fits ∧
      ∀ copy ∈ (mode build world cptr sptr name parv state).2, copy.Fits := by
  unfold mode
  split
  next => exact ⟨fits, by simp⟩
  next room found =>
    have old := fits room (find_mem found)
    have new := mMode_fits build world cptr sptr parv old.chan
    have after : (state.put name { room with chan := (mMode build world cptr sptr room.chan parv).chptr }).Fits := by
      apply put_fits fits name
      exact ⟨new, old.topic, old.topicNick⟩
    dsimp only
    split
    next => exact ⟨after, keyCopies_fit (modeKeys_short _ _ _ old.chan)⟩
    next => exact ⟨after, by simp⟩

theorem samode_fits (build : Build) (world : World) (sptr : Source) (name : Text) (parv : List Text)
    (fits : state.Fits) : (samode build world sptr name parv state).1.Fits ∧
      ∀ copy ∈ (samode build world sptr name parv state).2, copy.Fits := by
  unfold samode
  split
  next => exact ⟨fits, by simp⟩
  next room found =>
    have old := fits room (find_mem found)
    have new := mSamode_fits build world sptr parv old.chan
    have after : (state.put name { room with chan := (mSamode build world sptr room.chan parv).chptr }).Fits := by
      apply put_fits fits name
      exact ⟨new, old.topic, old.topicNick⟩
    dsimp only
    split
    next =>
      split
      next => exact ⟨after, by simp⟩
      next => exact ⟨after, keyCopies_fit (modeKeys_short _ _ _ old.chan)⟩
    next => exact ⟨after, by simp⟩

theorem marked_fits (fits : state.Fits) (found : state.find name = some room) :
    ('%' :: room.chan.chname).length < channelLen + 2 :=
  Nat.succ_lt_succ (Nat.lt_succ_of_le (fits room (find_mem found)).chan.chname)

theorem listNames_fit (asker : Asker) (parv : Text) (fits : state.Fits) :
    ∀ copy ∈ listNames asker parv state, copy.Fits := by
  intro copy member
  obtain ⟨name, -, inside⟩ := List.mem_flatMap.mp member
  split at inside
  next => simp at inside
  next room found =>
    split at inside
    next =>
      rw [List.mem_singleton.mp inside]
      exact marked_fits fits found
    next => simp at inside

/-- The nickname in a TOPIC: what another server says, or else the name of the sender. -/
def topicNick (sptr : Source) : (paras : List Text) → Text
  | tnick :: _ :: _ => if sptr.myClient then sptr.name else tnick
  | _ => sptr.name

/-- `m_topic` takes the topic. -/
def Stores (timeofday : Int) (sptr : Source) (room : Room) : (paras : List Text) → Prop
  | [] => False
  | topic :: more =>
    if sptr.myClient then
      room.has sptr = true ∧ (room.chan.mode.flags .topicLimit && !room.chan.isChanOp sptr.name) = false
    else
      sptr.uline = true ∨ room.topic.text = [] ∨ room.topic.time < (extendedInfo sptr timeofday topic more).2.2

/-- A TOPIC that is stored has a nickname that is not too long. -/
def SafeTopic (timeofday : Int) (sptr : Source) (parv : List Text) (state : State) : Prop :=
  ∀ name paras room, parv = name :: paras → state.find name = some room → Stores timeofday sptr room paras →
    (topicNick sptr paras).length ≤ nickLen

theorem setTopic_fits (fits : state.Fits) (found : state.find known = some room) (name topic tnick : Text) (ts : Int)
    (short : tnick.length ≤ nickLen) : (setTopic name topic tnick ts room state).1.Fits := by
  apply put_fits fits name
  exact ⟨(fits room (find_mem found)).chan, List.length_take_le .., short⟩

theorem setTopic_copies (name topic tnick : Text) (ts : Int) (room : Room) (state : State) :
    (∀ copy ∈ (setTopic name topic tnick ts room state).2, copy.Fits) ↔ tnick.length ≤ nickLen := by
  have cut : (topic.take topicLen).length ≤ topicLen := List.length_take_le ..
  simp only [setTopic, List.forall_mem_cons, Copy.Fits, Dest.size, Nat.lt_succ_iff]
  refine ⟨fun all => all.2.1, fun fit => ⟨cut, fit, by simp⟩⟩

theorem safeTopic_iff (found : state.find name = some room) :
    SafeTopic timeofday sptr (name :: paras) state ↔
      (Stores timeofday sptr room paras → (topicNick sptr paras).length ≤ nickLen) := by
  constructor
  · intro safe stores
    exact safe name paras room rfl found stores
  · intro short other others twin same known stores
    obtain ⟨rfl, rfl⟩ := List.cons.inj same
    obtain rfl := Option.some.inj (found.symm.trans known)
    exact short stores

theorem topicNick_local (mine : sptr.myClient = true) (paras : List Text) : topicNick sptr paras = sptr.name := by
  unfold topicNick
  split
  next => rw [if_pos mine]
  next => rfl

theorem topicNick_remote (remote : sptr.myClient = false) (timeofday : Int) (topic : Text) (more : List Text) :
    topicNick sptr (topic :: more) = (extendedInfo sptr timeofday topic more).2.1 := by
  cases more with
  | nil => rfl
  | cons ts rest =>
    rw [topicNick, remote]
    rfl

/-- A TOPIC that stores, and one that does not. -/
theorem stored_fits {result : State × List Copy} {stores : Prop} (fits : state.Fits)
    (found : state.find name = some room) (topic tnick : Text) (ts : Int)
    (taken : stores → result = setTopic name topic tnick ts room state) (ignored : ¬ stores → result = (state, [])) :
    ((∀ copy ∈ result.2, copy.Fits) ↔ (stores → tnick.length ≤ nickLen)) ∧
      ((stores → tnick.length ≤ nickLen) → result.1.Fits) := by
  by_cases sets : stores
  · rw [taken sets, setTopic_copies]
    exact ⟨⟨fun short _ => short, fun short => short sets⟩,
      fun short => setTopic_fits fits found name topic tnick ts (short sets)⟩
  · rw [ignored sets]
    exact ⟨⟨fun _ sets' => absurd sets' sets, fun _ => by simp⟩, fun _ => fits⟩

/-- What a TOPIC copies fits if it is stored with a short nickname, or not at all. -/
theorem mTopic_fits (timeofday : Int) (asker : Asker) (parv : List Text) (fits : state.Fits) :
    ((∀ copy ∈ (mTopic timeofday asker parv state).2, copy.Fits) ↔ SafeTopic timeofday asker.source parv state) ∧
      (SafeTopic timeofday asker.source parv state → (mTopic timeofday asker parv state).1.Fits) := by
  cases parv with
  | nil => exact ⟨⟨fun _ _ _ _ same => (List.cons_ne_nil _ _ same.symm).elim, fun _ => by simp [mTopic]⟩, fun _ => fits⟩
  | cons name paras =>
    cases found : state.find name with
    | none =>
      have ignored : mTopic timeofday asker (name :: paras) state = (state, []) := by
        simp only [mTopic, found]
      rw [ignored]
      refine ⟨⟨?_, fun _ => by simp⟩, fun _ => fits⟩
      intro _ other others room same known
      obtain ⟨rfl, -⟩ := List.cons.inj same
      rw [found] at known
      cases known
    | some room =>
      rw [safeTopic_iff found]
      cases paras with
      | nil =>
        simp only [mTopic, found, Stores, false_imp_iff, iff_true, forall_const]
        split
        next => exact ⟨by simpa [Copy.Fits, Dest.size] using marked_fits fits found, fits⟩
        next => exact ⟨by simp, fits⟩
      | cons topic more =>
        cases mine : asker.source.myClient with
        | true =>
          rw [topicNick_local mine]
          apply stored_fits fits found topic asker.source.name timeofday
          · intro stores
            simp only [Stores, mine, if_true] at stores
            simp [mTopic, found, mine, stores.1, stores.2]
          · intro ignored
            simp only [Stores, mine, if_true, not_and] at ignored
            simp only [mTopic, found, mine, if_true]
            by_cases has : room.has asker.source = true
            · simp [has, ignored has]
            · simp [has]
        | false =>
          rw [topicNick_remote mine timeofday]
          apply stored_fits fits found (extendedInfo asker.source timeofday topic more).1
            (extendedInfo asker.source timeofday topic more).2.1 (extendedInfo asker.source timeofday topic more).2.2
          · intro stores
            simp only [Stores, mine, Bool.false_eq_true, if_false] at stores
            simp only [mTopic, found, mine, Bool.false_eq_true, if_false]
            rw [if_neg]
            simpa [or_iff_not_imp_left, Int.not_le] using stores
          · intro ignored
            simp only [Stores, mine, Bool.false_eq_true, if_false] at ignored
            simp only [mTopic, found, mine, Bool.false_eq_true, if_false]
            rw [if_pos]
            simpa [Int.not_lt, and_assoc] using ignored

/-- The channel that a SJOIN creates has a name that is not too long. -/
def SafeSjoin (sptr : Source) (parv : List Text) (state : State) : Prop :=
  sjoinIgnored sptr parv = false → ∀ first chname rest, shiftTs parv = first :: chname :: rest →
    chname.head? = some '#' → state.find chname = none → chname.length ≤ channelLen

theorem safeSjoin_iff (heeded : sjoinIgnored sptr parv = false) (shift : shiftTs parv = first :: chname :: rest)
    (hash : chname.head? = some '#') :
    SafeSjoin sptr parv state ↔ (Opens state chname → chname.length ≤ channelLen) := by
  have some : chname ≠ [] := by
    rintro rfl
    cases hash
  constructor
  · intro safe opens
    exact safe heeded first chname rest shift hash opens.2
  · intro short _ other name others same _ unknown
    rw [shift] at same
    obtain ⟨rfl, tail⟩ := List.cons.inj same
    obtain ⟨rfl, rfl⟩ := List.cons.inj tail
    exact short ⟨some, unknown⟩

theorem safeSjoin_other (shift : shiftTs parv = first :: chname :: rest) (other : chname.head? ≠ some '#') :
    SafeSjoin sptr parv state := by
  intro _ _ name _ same hash
  rw [shift] at same
  obtain ⟨rfl, -⟩ := List.cons.inj (List.cons.inj same).2
  exact absurd hash other

/-- `get_channel` with `CREATE` for a server. -/
theorem server_copies (timeofday : Int) (chname : Text) (state : State) :
    (∀ copy ∈ (getChannel false timeofday true chname state).2, copy.Fits) ↔
      (Opens state chname → chname.length ≤ channelLen) :=
  (getChannel_copies false timeofday true chname state).trans ⟨fun short => short rfl, fun short _ => short⟩

theorem server_fits (timeofday : Int) (chname : Text) (fits : state.Fits)
    (short : Opens state chname → chname.length ≤ channelLen) :
    (getChannel false timeofday true chname state).1.Fits :=
  getChannel_fits false timeofday true chname fits fun _ => short

theorem afterTs_fits (fits : Room.Fits room) (created : Bool) (newts : Int) :
    (room.afterTs created newts).text.length ≤ topicLen ∧ (room.afterTs created newts).nick.length ≤ nickLen := by
  unfold Room.afterTs
  split
  next => exact ⟨Nat.zero_le _, fits.topicNick⟩
  next => exact ⟨fits.topic, fits.topicNick⟩

theorem find_fits (fits : state.Fits) : ∀ chan, (state.find name).map Room.chan = some chan → chan.Fits := by
  intro chan known
  obtain ⟨room, found, rfl⟩ := Option.map_eq_some_iff.mp known
  exact (fits room (find_mem found)).chan

/-- What a SJOIN copies fits if the channel it creates has a short name. -/
theorem sjoin_fits (build : Build) (world : World) (timeofday : Int) (sptr : Source) (parv : List Text)
    (fits : state.Fits) :
    ((∀ copy ∈ (sjoin build world timeofday sptr parv state).2, copy.Fits) ↔ SafeSjoin sptr parv state) ∧
      (SafeSjoin sptr parv state → (sjoin build world timeofday sptr parv state).1.Fits) := by
  unfold sjoin
  split
  next ignored =>
    refine ⟨⟨fun _ heeded => ?_, fun _ => by simp⟩, fun _ => fits⟩
    rw [ignored] at heeded
    cases heeded
  next heeds =>
    have heeded := Bool.eq_false_iff.mpr heeds
    split
    next first chname shift =>
      split
      next other =>
        have safe : SafeSjoin sptr parv state := safeSjoin_other shift other
        exact ⟨⟨fun _ => safe, fun _ => by simp⟩, fun _ => fits⟩
      next hash =>
        rw [safeSjoin_iff heeded shift (not_not.mp hash)]
        exact ⟨server_copies timeofday chname state, server_fits timeofday chname fits⟩
    next first chname modes args shift =>
      split
      next other =>
        have safe : SafeSjoin sptr parv state := safeSjoin_other shift other
        exact ⟨⟨fun _ => safe, fun _ => by simp⟩, fun _ => fits⟩
      next hash =>
        have keys := keyCopies_fit (sjoinKeys_short build modes args)
        have copies := server_copies timeofday chname state
        rw [safeSjoin_iff heeded shift (not_not.mp hash)]
        dsimp only
        split
        next =>
          rw [List.forall_mem_append]
          exact ⟨⟨fun all => copies.mp all.1, fun short => ⟨copies.mpr short, keys⟩⟩, fun _ => fits⟩
        next room found =>
          split
          next =>
            rw [List.forall_mem_append]
            exact ⟨⟨fun all => copies.mp all.1, fun short => ⟨copies.mpr short, keys⟩⟩,
              fun short => drop_fits (server_fits timeofday chname fits short) chname⟩
          next chan result =>
            have after (short : Opens state chname → chname.length ≤ channelLen) : chan.Fits := by
              apply mSjoin_fits build world timeofday parv (find_fits fits) _ result
              intro unknown _ name _ same
              rw [shift] at same
              obtain ⟨rfl, -⟩ := List.cons.inj (List.cons.inj same).2
              refine short ⟨?_, Option.map_eq_none_iff.mp unknown⟩
              rintro rfl
              exact hash (by simp)
            rw [List.forall_mem_append, List.forall_mem_append, List.forall_mem_singleton]
            refine ⟨⟨fun all => copies.mp all.1.1, fun short =>
              ⟨⟨copies.mpr short, keys⟩, Nat.lt_succ_of_le (after short).key⟩⟩, fun short => ?_⟩
            have opened := server_fits timeofday chname fits short
            obtain ⟨text, nick⟩ := afterTs_fits (opened room (find_mem found)) (state.find chname).isNone
              (Decimal.atol first)
            apply put_fits opened chname
            exact ⟨after short, text, nick⟩
    next short long =>
      refine ⟨⟨fun _ _ first chname rest same => ?_, fun _ => by simp⟩, fun _ => fits⟩
      cases rest with
      | nil => exact (short _ _ same).elim
      | cons modes args => exact (long _ _ _ _ same).elim

/-- How long the modes of a channel are in a listing. -/
def Room.width (build : Build) (cptr : Source) (room : Room) : Nat :=
  (room.modes build cptr).1.length + (room.modes build cptr).2.length + if room.pub then 3 else 5

/-- Its modes, and its modes with its topic, are short enough for the buffers of a listing. -/
def Room.Listable (build : Build) (cptr : Source) (room : Room) : Prop :=
  room.width build cptr < Dest.tempbuff.size ∧
    max 20 (room.width build cptr) + 1 + room.topic.text.length < Dest.modestuff.size

theorem length_tempbuff (build : Build) (cptr : Source) (room : Room) :
    (room.tempbuff build cptr).length = room.width build cptr := by
  unfold Room.tempbuff Room.width
  dsimp only
  split
  next =>
    simp only [List.length_append, List.length_cons, List.length_nil]
    omega
  next =>
    simp only [List.length_append, List.length_cons, List.length_nil]
    omega

theorem length_modestuff (build : Build) (cptr : Source) (room : Room) :
    (room.modestuff build cptr).length = max 20 (room.width build cptr) + 1 + room.topic.text.length := by
  rw [Room.modestuff, padded]
  simp only [List.length_append, List.length_replicate, length_tempbuff, List.length_cons, List.length_nil]
  omega

theorem sendList_copies (build : Build) (cptr : Asker) (shows : Room → Bool) (state : State) :
    (∀ copy ∈ sendList build cptr shows state, copy.Fits) ↔
      ((cptr.admin || cptr.source.sadmin) = true →
        ∀ room ∈ state, shows room = true → room.Listable build cptr.source) := by
  have one (room : Room) : (∀ copy ∈ [Copy.mk .tempbuff (room.tempbuff build cptr.source),
      ⟨.modestuff, room.modestuff build cptr.source⟩], copy.Fits) ↔ room.Listable build cptr.source := by
    simp only [List.forall_mem_cons, Copy.Fits, length_tempbuff, length_modestuff, Room.Listable]
    exact ⟨fun all => ⟨all.1, all.2.1⟩, fun both => ⟨both.1, both.2, by simp⟩⟩
  unfold sendList
  by_cases admin : (cptr.admin || cptr.source.sadmin) = true
  · rw [if_pos admin]
    constructor
    · intro all _ room member shown
      refine (one room).mp fun copy inside => all copy (List.mem_flatMap.mpr ⟨room, ?_, inside⟩)
      exact List.mem_filter.mpr ⟨member, shown⟩
    · intro listable copy member
      obtain ⟨room, kept, inside⟩ := List.mem_flatMap.mp member
      obtain ⟨known, shown⟩ := List.mem_filter.mp kept
      exact (one room).mpr (listable admin room known shown) copy inside
  · rw [if_neg admin]
    exact ⟨fun _ yes => absurd yes admin, fun _ => by simp⟩

theorem roster_fits (name : Text) (members : List Member) (channelts : Int) (fits : state.Fits) :
    (roster name members channelts state).Fits := by
  unfold roster
  split
  next => exact fits
  next room found =>
    have old := fits room (find_mem found)
    apply put_fits fits name
    exact ⟨⟨old.chan.chname, old.chan.key⟩, old.topic, old.topicNick⟩

/-- The messages that write nothing behind an end: a channel that a SJOIN creates has a short
name, a stored TOPIC a short nickname, and what an administrator lists is short enough. -/
def Safe (build : Build) (state : State) (event : Event) : Prop :=
  match event.message with
  | .sjoin sptr parv => SafeSjoin sptr parv state
  | .topic sptr parv => SafeTopic event.timeofday sptr.source parv state
  | .sendList cptr shows =>
    (cptr.admin || cptr.source.sadmin) = true →
      ∀ room ∈ state, shows room = true → room.Listable build cptr.source
  | _ => True

/-- One message: what it copies fits exactly if it is safe, and then what is stored fits again. -/
theorem handle_fits (build : Build) (event : Event) (fits : state.Fits) :
    ((∀ copy ∈ (state.handle build event).2, copy.Fits) ↔ Safe build state event) ∧
      (Safe build state event → (state.handle build event).1.Fits) := by
  obtain ⟨world, timeofday, message⟩ := event
  cases message with
  | join sptr parv reaches =>
    obtain ⟨kept, copied⟩ := joinLoop_fits sptr.myClient timeofday reaches _ (joinNames_short sptr.myClient parv) fits
    exact ⟨iff_of_true copied trivial, fun _ => kept⟩
  | seek sptr name =>
    have copied := (getChannel_copies sptr.myClient timeofday false name state).mpr (by simp)
    exact ⟨iff_of_true copied trivial, fun _ => getChannel_fits sptr.myClient timeofday false name fits (by simp)⟩
  | sjoin sptr parv => exact sjoin_fits build world timeofday sptr parv fits
  | topic sptr parv => exact mTopic_fits timeofday sptr parv fits
  | mode cptr sptr name parv =>
    obtain ⟨kept, copied⟩ := mode_fits build world cptr sptr name parv fits
    exact ⟨iff_of_true copied trivial, fun _ => kept⟩
  | samode sptr name parv =>
    obtain ⟨kept, copied⟩ := samode_fits build world sptr name parv fits
    exact ⟨iff_of_true copied trivial, fun _ => kept⟩
  | list sptr parv => exact ⟨iff_of_true (listNames_fit sptr parv fits) trivial, fun _ => fits⟩
  | sendList cptr shows => exact ⟨sendList_copies build cptr shows state, fun _ => fits⟩
  | roster name members channelts =>
    exact ⟨iff_of_true (by simp [State.handle]) trivial, fun _ => roster_fits name members channelts fits⟩
  | gone name => exact ⟨iff_of_true (by simp [State.handle]) trivial, fun _ => drop_fits fits name⟩

theorem run_fits (build : Build) (fits : start.Fits) (run : (machine build).Run (Safe build) start final) :
    final.Fits := by
  apply run.invariant State.Fits _ fits
  intro state event _ safe fits
  exact (handle_fits build event fits).2 safe

/-- As long as every message is safe, all that is stored fits; and of the next message everything
that it copies fits exactly if it is safe as well. -/
theorem copies_fit_iff (build : Build) (final : State) (run : (machine build).Run (Safe build) [] final)
    (event : Event) :
    final.Fits ∧ ((∀ copy ∈ (final.handle build event).2, copy.Fits) ↔ Safe build final event) := by
  have fits := run_fits build (fun room member => absurd member List.not_mem_nil) run
  exact ⟨fits, (handle_fits build event fits).1⟩

/-- A server with a long name, behind which `ann` is. -/
private def hub : Source :=
  ⟨"services.and.statistics.example.net".toList, true, false, false, false, false, false, false, false⟩

private def behind : World := ⟨[⟨"ann".toList, true⟩], fun _ => none⟩

private def basic : Build := ⟨false, false, false⟩

/-- A SJOIN with a short name. -/
private def founding : Event := ⟨behind, 1000, .sjoin hub ["900".toList, "#chat".toList, "+nt".toList, "@ann".toList]⟩

private def chat : State := (State.handle basic [] founding).1

/-- A TOPIC of the server itself. -/
private def setting : Event := ⟨behind, 1100, .topic ⟨hub, false⟩ ["#chat".toList, "hello".toList]⟩

private theorem founding_safe : Safe basic [] founding := by
  intro _ first chname rest same _ _
  obtain ⟨-, tail⟩ := List.cons.inj same
  obtain ⟨rfl, -⟩ := List.cons.inj tail
  decide

theorem copies_fit_iff_chat :
    chat.Fits ∧ ((∀ copy ∈ (chat.handle basic setting).2, copy.Fits) ↔ Safe basic chat setting) :=
  copies_fit_iff basic chat (.tail (.refl []) trivial founding_safe) setting

/-- Her modes: a long key, a limit and a join rate. -/
private def locked : State :=
  (chat.handle basic ⟨behind, 1200, .mode ⟨hub.name, true⟩ hub "#chat".toList
    ["+klj".toList, "a-key-of-23-characters-".toList, "10000".toList, "60:60".toList]⟩).1

private def ann : Source := ⟨"ann".toList, false, false, false, false, false, false, false, false⟩

/-- The name of the server does not fit into `topic_nick`, a listing of `locked` not into
`tempbuff`, and a name of 33 characters not into `chname`. -/
theorem copies_overflow : (¬ ∀ copy ∈ (chat.handle basic setting).2, copy.Fits) ∧
    (¬ ∀ copy ∈ (locked.handle basic ⟨behind, 1300, .sendList ⟨ann, true⟩ fun _ => true⟩).2, copy.Fits) ∧
    ¬ ∀ copy ∈ (State.handle basic [] ⟨behind, 1000, .sjoin hub ["900".toList,
      '#' :: List.replicate 32 'a', "+nt".toList, "@ann".toList]⟩).2, copy.Fits := by
  decide +kernel

end Fields

end SolidIrcd.Channel
