import Mathlib.Data.List.Nodup
import SolidIrcd.Kline.Replay

/-! Reading a whole journal. `Replays` says what the file is good for: read at any later
time, it gives the K-lines in memory that are to be stored and have not expired by then. -/

namespace SolidIrcd.Kline

open Scan (Text)
open UserBan

/-- A store whose K-lines all have masks of their own and can be written down. -/
structure Sound (store : Store) : Prop where
  proper : store.Proper
  unique : store.Unique isKline
  genuine : ∀ ban, store.lists.Holds ban → isKline ban = true → Genuine ban
  recorded : ∀ ban, store.lists.Holds ban → storable ban = true → Recorded ban

/-- A K-line in memory. -/
def Has (store : Store) (wanted : Entry) : Prop :=
  ∃ ban, store.lists.Holds ban ∧ isKline ban = true ∧ entry ban = wanted

/-- The K-lines that last for a time were all set at `now`. -/
def Timed (store : Store) (now : Int) : Prop :=
  ∀ ban, store.lists.Holds ban → isKline ban = true → ban.flags.temporary = true → ban.timeset = now

variable {store : Store}

theorem isKline_of_storable (stored : storable ban = true) : isKline ban = true := by
  simp only [storable, Bool.and_eq_true] at stored
  exact stored.1

theorem Sound.empty : Sound Store.empty where
  proper := Store.Proper.empty
  unique := fun _ _ held => absurd held Shelf.holds_empty
  genuine := fun _ held => absurd held Shelf.holds_empty
  recorded := fun _ held => absurd held Shelf.holds_empty

theorem Sound.insert (sound : Sound store) (kind : Kind ban) (genuine : isKline ban = true → Genuine ban)
    (recorded : storable ban = true → Recorded ban)
    (fresh : isKline ban = true → ∀ other, store.lists.Holds other → isKline other = true → ¬ ban.Same other) :
    ∃ after, store.addHostbasedUserban ban = some after ∧ Sound after ∧
      ∀ other, after.lists.Holds other ↔ other = { ban with internalEnt := store.next } ∨ store.lists.Holds other := by
  obtain ⟨slot, place⟩ := slot_of_kind kind
  have same : entry ban = entry { ban with internalEnt := store.next } := rfl
  refine ⟨_, by rw [Store.addHostbasedUserban, place, Option.map_some], ?_, fun other => Shelf.holds_put⟩
  constructor
  case proper => exact sound.proper.add kind place
  case unique =>
    apply sound.unique.add
    intro mine other held kline clash
    exact fresh mine other held kline ((same_of_entry same).trans clash)
  case genuine =>
    intro other held kline
    obtain rfl | old := Shelf.holds_put.mp held
    · exact (genuine kline).congr same
    · exact sound.genuine other old kline
  case recorded =>
    intro other held stored
    obtain rfl | old := Shelf.holds_put.mp held
    · exact (recorded stored).congr same
    · exact sound.recorded other old stored

theorem Sound.discard (sound : Sound store) (gone : Ban → Bool) :
    Sound { store with lists := store.lists.discard gone } where
  proper := sound.proper.discard gone
  unique := sound.unique.discard gone
  genuine := fun ban held => sound.genuine ban (Shelf.holds_discard.mp held).1
  recorded := fun ban held => sound.recorded ban (Shelf.holds_discard.mp held).1

/-- A `+` line adds its K-line, unless it is too old. -/
theorem Sound.plus (sound : Sound store) (recorded : Recorded ban) (now : Int)
    (fresh : ∀ other, store.lists.Holds other → isKline other = true → ¬ ban.Same other) :
    ∃ after, ksRead now store (plusRecord ban) = (after, true) ∧ Sound after ∧
      (Timed store now → Timed after now) ∧
      ∀ wanted, Has after wanted ↔ Has store wanted ∨ (ban.expired now = false ∧ entry ban = wanted) := by
  cases old : ban.expired now with
  | true =>
    refine ⟨store, ksRead_plus_expired recorded old store, sound, id, ?_⟩
    simp
  | false =>
    have same := entry_reread recorded.toGenuine now
    have again := recorded.congr same.symm
    obtain ⟨after, added, sound', holds⟩ := sound.insert (kind_reread recorded.toGenuine now)
      (fun _ => again.toGenuine) (fun _ => again)
      (fun _ other held kline clash => fresh other held kline ((same_of_entry same.symm).trans clash))
    refine ⟨after, by rw [ksRead_plus recorded old, added, Option.getD_some], sound', ?_, ?_⟩
    · intro timed other held kline temporary
      obtain rfl | held' := (holds other).mp held
      · have lasts : ban.flags.temporary = true := by rwa [← (entry_fields same).1]
        simp [reread, Ban.mark, lasts]
      · exact timed other held' kline temporary
    intro wanted
    unfold Has
    constructor
    · rintro ⟨other, held, kline, shown⟩
      obtain rfl | held' := (holds other).mp held
      · exact .inr ⟨rfl, same.symm.trans shown⟩
      · exact .inl ⟨other, held', kline, shown⟩
    · rintro (⟨other, held, kline, shown⟩ | ⟨-, shown⟩)
      · exact ⟨other, (holds other).mpr (.inr held), kline, shown⟩
      · exact ⟨_, (holds _).mpr (.inl rfl), rfl, same.trans shown⟩

private theorem probe_same (ban : Ban) : Ban.Same ((plain ban).mark { isLocal := true }) ban where
  slot := rfl
  wilduser := rfl
  user := .inr (mycmp_refl _)
  host := mycmp_refl _
  ip := rfl
  mask := rfl

/-- A `-` line takes the K-line with its mask away. -/
theorem Sound.minus (sound : Sound store) (genuine : Genuine ban) (solid : Solid ban) (now : Int) :
    ∃ after, ksRead now store (minusRecord ban) = (after, true) ∧ Sound after ∧
      ∀ other, after.lists.Holds other ↔ store.lists.Holds other ∧ ¬ (isKline other = true ∧ ban.Same other) := by
  have kind := (makeHostbasedBan_kind genuine.read).mark { isLocal := true }
  have agree (other : Ban) : Flags.agree { isLocal := true, conf := true } other.flags
      ((plain ban).mark { isLocal := true }).flags = isKline other := by
    cases isLocal : other.flags.isLocal <;> cases conf : other.flags.conf <;>
      simp [Flags.agree, isKline, Ban.mark, isLocal, conf]
  rw [ksRead_minus solid, ksRemove, genuine.read]
  simp only
  cases found : store.findUserbanExact ((plain ban).mark { isLocal := true }) { isLocal := true, conf := true } with
  | none =>
    refine ⟨store, rfl, sound, fun other => ⟨fun held => ⟨held, ?_⟩, fun held => held.1⟩⟩
    rintro ⟨kline, same⟩
    exact sound.proper.find_none kind found held ((agree other).trans kline) ((probe_same ban).trans same)
  | some existing =>
    obtain ⟨there, same, agreed⟩ := sound.proper.find_some kind found
    have kline : isKline existing = true := (agree existing).symm.trans agreed
    have mine : ban.Same existing := (probe_same ban).symm.trans same
    refine ⟨_, rfl, sound.discard _, fun other => ?_⟩
    rw [sound.proper.holds_remove there]
    constructor
    · rintro ⟨held, other'⟩
      refine ⟨held, ?_⟩
      rintro ⟨kline', same'⟩
      exact other' (sound.unique other existing held there kline' kline (same'.symm.trans mine))
    · rintro ⟨held, other'⟩
      refine ⟨held, ?_⟩
      rintro rfl
      exact other' ⟨kline, mine⟩

/-- The lines of a journal, up to one that is malformed. -/
def readAll (now : Int) : Store → List Text → Store × Bool
  | store, [] => (store, true)
  | store, line :: lines =>
    match ksRead now store line with
    | (store, true) => readAll now store lines
    | (store, false) => (store, false)

theorem readAll_append (read : readAll now store front = (between, true)) :
    readAll now store (front ++ rest) = readAll now between rest := by
  induction front generalizing store with
  | nil =>
    obtain rfl : store = between := by simpa [readAll] using read
    rfl
  | cons line front ih =>
    rw [List.cons_append, readAll]
    rw [readAll] at read
    split at read
    next => exact ih read
    next => cases read

/-- A line that `fgets` takes in one piece. -/
def Whole (line : Text) : Prop := '\n' ∉ line ∧ line.length < 1023

def linesText (lines : List Text) : Text := lines.flatMap fun line => line ++ ['\n']

private theorem fgets_line (whole : Whole line) (rest : Text) :
    fgets 1024 (line ++ '\n' :: rest) = (line ++ ['\n'], rest) := by
  obtain ⟨clean, short⟩ := whole
  have room : (line ++ '\n' :: rest).take 1023 = line ++ '\n' :: rest.take (1022 - line.length) := by
    obtain ⟨left, count⟩ : ∃ left, 1023 - line.length = left + 1 := ⟨1022 - line.length, by omega⟩
    have same : 1022 - line.length = left := by omega
    rw [List.take_append, List.take_of_length_le (Nat.le_of_lt short), count, List.take_succ_cons, same]
  have plain : ∀ c ∈ line, decide (c ≠ '\n') = true := by
    intro c member
    rw [decide_eq_true_eq]
    rintro rfl
    exact clean member
  have taken : (line ++ '\n' :: rest.take (1022 - line.length)).takeWhile (fun c => decide (c ≠ '\n')) = line := by
    rw [List.takeWhile_append_of_pos plain]
    simp
  have left : (line ++ '\n' :: rest).drop (line ++ ['\n']).length = rest := by
    have parts : line ++ '\n' :: rest = (line ++ ['\n']) ++ rest := by simp
    rw [parts, List.drop_left]
  unfold fgets
  simp only [Nat.reduceSub, room]
  rw [if_pos (by simp), taken, left]

/-- The loop over the file reads it line by line. -/
theorem replay_linesText (whole : ∀ line ∈ lines, Whole line) (store : Store) (now : Int)
    (enough : (linesText lines).length ≤ turns) :
    replay now turns store (linesText lines) = (readAll now store lines).1 := by
  induction lines generalizing store turns with
  | nil => cases turns <;> simp [replay, readAll, linesText]
  | cons line lines ih =>
    have text : linesText (line :: lines) = line ++ '\n' :: linesText lines := by simp [linesText]
    obtain ⟨clean, short⟩ := whole line (List.mem_cons_self ..)
    have plain : ∀ c ∈ line, decide (c ≠ '\n') = true := by
      intro c member
      rw [decide_eq_true_eq]
      rintro rfl
      exact clean member
    have taken : (line ++ ['\n']).takeWhile (fun c => decide (c ≠ '\n')) = line := by
      rw [List.takeWhile_append_of_pos plain]
      simp
    rw [text] at enough ⊢
    simp only [List.length_append, List.length_cons] at enough
    cases turns with
    | zero => omega
    | succ turns =>
      rw [replay, if_neg (by simp), fgets_line ⟨clean, short⟩]
      simp only [List.mem_append, List.mem_singleton, or_true, if_true, taken]
      rw [readAll]
      obtain ⟨after, wellFormed⟩ := ksRead now store line
      cases wellFormed with
      | true => exact ih (fun line member => whole line (List.mem_cons_of_mem _ member)) after (by omega)
      | false => rfl

private theorem newline_print (value : Int) : '\n' ∉ Decimal.print value := by
  intro member
  obtain dash | digit := Decimal.mem_print member
  · exact absurd dash (by decide)
  · exact absurd digit (by decide)

theorem plusRecord_whole (recorded : Recorded ban) : Whole (plusRecord ban) := by
  have genuine := recorded.toGenuine
  obtain ⟨text, reason, -, clean⟩ := genuine.reason
  have short := genuine.short
  have lower := expiretime_range genuine
  have upper := recorded.early
  have digits := Decimal.length_print_le lower upper
  unfold Whole plusRecord
  rw [Decimal.toInt_of_small lower upper, reason, Option.getD_some]
  rw [reason, Option.getD_some] at short
  constructor
  · simp [newline_print, genuine.user, genuine.host, clean]
  · simp only [List.length_cons, List.length_append]
    omega

theorem minusRecord_whole (genuine : Genuine ban) : Whole (minusRecord ban) := by
  have short := genuine.short
  unfold Whole minusRecord
  constructor
  · simp [genuine.user, genuine.host]
  · simp only [List.length_cons, List.length_append]
    omega

/-- A list of `+` lines with masks of their own. -/
theorem readAll_plus {bans : List Ban} (sound : Sound store) (recorded : ∀ ban ∈ bans, Recorded ban)
    (apart : bans.Pairwise fun first second => ¬ first.Same second) (now : Int)
    (fresh : ∀ ban ∈ bans, ∀ other, store.lists.Holds other → isKline other = true → ¬ ban.Same other) :
    ∃ after, readAll now store (bans.map plusRecord) = (after, true) ∧ Sound after ∧
      (Timed store now → Timed after now) ∧
      ∀ wanted, Has after wanted ↔
        Has store wanted ∨ ∃ ban ∈ bans, ban.expired now = false ∧ entry ban = wanted := by
  induction bans generalizing store with
  | nil => exact ⟨store, rfl, sound, id, by simp⟩
  | cons ban bans ih =>
    obtain ⟨others, apart'⟩ := List.pairwise_cons.mp apart
    obtain ⟨between, read, sound', timed, has⟩ := sound.plus (recorded ban (List.mem_cons_self ..)) now
      (fresh ban (List.mem_cons_self ..))
    have fresh' : ∀ later ∈ bans, ∀ other, between.lists.Holds other → isKline other = true → ¬ later.Same other := by
      intro later member other held kline same
      obtain ⟨old, held', kline', shown⟩ | ⟨-, shown⟩ := (has (entry other)).mp ⟨other, held, kline, rfl⟩
      · exact fresh later (List.mem_cons_of_mem _ member) old held' kline'
          (same.trans (same_of_entry shown.symm))
      · exact others later member ((same_of_entry shown).trans same.symm)
    obtain ⟨after, rest, sound'', timed', has'⟩ :=
      ih sound' (fun ban member => recorded ban (List.mem_cons_of_mem _ member)) apart' fresh'
    refine ⟨after, by rw [List.map_cons, readAll, read]; exact rest, sound'', timed' ∘ timed, ?_⟩
    intro wanted
    rw [has', has, List.exists_mem_cons_iff, or_assoc]

theorem slot_mem_dumpSlots {ban : Ban} (place : ban.slot = some slot) : slot ∈ dumpSlots := by
  have bucket (hash : Nat) : hash % hashSize < hashSize := Nat.mod_lt _ (by decide)
  have first := octet_lt ban.cidr4ip 0
  have second := octet_lt ban.cidr4ip 1
  unfold Ban.slot at place
  simp only [dumpSlots, List.mem_append, List.mem_flatMap, List.mem_map, List.mem_range, List.mem_cons]
  split at place
  next =>
    obtain rfl := Option.some.inj place
    exact .inl (.inr (.inl rfl))
  next =>
    split at place
    next =>
      obtain rfl := Option.some.inj place
      exact .inl (.inl ⟨_, first, _, second, rfl⟩)
    next =>
      split at place
      next =>
        split at place
        next =>
          obtain rfl := Option.some.inj place
          exact .inl (.inr (.inr (.inr (.inl rfl))))
        next =>
          obtain rfl := Option.some.inj place
          exact .inr ⟨_, bucket _, .inr (.inl rfl)⟩
      next =>
        split at place
        next =>
          split at place
          next =>
            obtain rfl := Option.some.inj place
            exact .inl (.inr (.inr (.inl rfl)))
          next =>
            obtain rfl := Option.some.inj place
            exact .inr ⟨_, bucket _, .inl rfl⟩
        next => cases place

theorem dumpSlots_nodup : dumpSlots.Nodup := by
  have rows : ((List.range 256).flatMap fun i => (List.range 256).map fun j => Slot.cidr4 i j).Nodup := by
    rw [List.nodup_flatMap]
    constructor
    · intro i _
      exact List.nodup_range.map fun j k same => by simpa using same
    · apply List.nodup_range.imp
      intro i j different slot member member'
      simp only [List.mem_map] at member member'
      obtain ⟨_, -, rfl⟩ := member
      obtain ⟨_, -, same⟩ := member'
      simp only [Slot.cidr4.injEq] at same
      exact different same.1.symm
  have buckets : ((List.range hashSize).flatMap fun i => [Slot.hostBucket i, Slot.ipBucket i]).Nodup := by
    rw [List.nodup_flatMap]
    constructor
    · intro i _
      simp
    · apply List.nodup_range.imp
      intro i j different slot member member'
      simp only [List.mem_cons, List.not_mem_nil, or_false] at member member'
      grind
  unfold dumpSlots
  rw [List.nodup_append, List.nodup_append]
  refine ⟨⟨rows, by decide, ?_⟩, buckets, ?_⟩
  · intro slot member other member'
    simp only [List.mem_flatMap, List.mem_map, List.mem_cons, List.not_mem_nil, or_false] at member member'
    grind
  · intro slot member other member'
    simp only [List.mem_append, List.mem_flatMap, List.mem_map, List.mem_cons, List.not_mem_nil, or_false]
      at member member'
    grind

theorem mem_dumped (proper : store.Proper) : ban ∈ dumped store ↔ store.lists.Holds ban ∧ storable ban = true := by
  simp only [dumped, List.mem_flatMap, List.mem_filter]
  constructor
  · rintro ⟨slot, -, member, stored⟩
    exact ⟨⟨slot, member⟩, stored⟩
  · rintro ⟨⟨slot, member⟩, stored⟩
    exact ⟨slot, slot_mem_dumpSlots (proper.filed slot ban member), member, stored⟩

theorem dumped_apart (sound : Sound store) : (dumped store).Pairwise fun first second => ¬ first.Same second := by
  rw [dumped, List.pairwise_flatMap]
  constructor
  · intro slot _
    apply ((sound.proper.nodup slot).filter storable).imp_of_mem
    intro first second member member' different same
    obtain ⟨held, stored⟩ := List.mem_filter.mp member
    obtain ⟨held', stored'⟩ := List.mem_filter.mp member'
    exact different (sound.unique first second ⟨slot, held⟩ ⟨slot, held'⟩ (isKline_of_storable stored)
      (isKline_of_storable stored') same)
  · apply dumpSlots_nodup.imp
    intro slot slot' different first member second member' same
    have place := sound.proper.filed slot first (List.mem_filter.mp member).1
    have place' := sound.proper.filed slot' second (List.mem_filter.mp member').1
    exact different (Option.some.inj (place.symm.trans (same.slot.trans place')))

/-- Read at any later time over bans that are no K-lines, the file gives back the K-lines
to be stored that have not expired. -/
def Replays (file : Text) (store : Store) (now : Int) : Prop :=
  ∃ lines, file = linesText lines ∧ (∀ line ∈ lines, Whole line) ∧
    ∀ base later, Sound base → (∀ ban, base.lists.Holds ban → isKline ban = false) → now ≤ later →
      ∃ after, readAll later base lines = (after, true) ∧ Sound after ∧ Timed after later ∧
        ∀ wanted, Has after wanted ↔
          ∃ ban, store.lists.Holds ban ∧ storable ban = true ∧ ban.expired later = false ∧ entry ban = wanted

theorem timed_of_none (none : ∀ ban, store.lists.Holds ban → isKline ban = false) (now : Int) : Timed store now := by
  intro ban held kline
  simp [none ban held] at kline

private theorem not_has (none : ∀ ban, store.lists.Holds ban → isKline ban = false) (wanted : Entry) :
    ¬ Has store wanted := by
  rintro ⟨ban, held, kline, -⟩
  simp [none ban held] at kline

/-- The file after a compaction. -/
theorem replays_dump (sound : Sound store) (now : Int) : Replays (ksDumpklines store) store now := by
  have recorded : ∀ ban ∈ dumped store, Recorded ban := by
    intro ban member
    obtain ⟨held, stored⟩ := (mem_dumped sound.proper).mp member
    exact sound.recorded ban held stored
  refine ⟨(dumped store).map plusRecord, by simp [ksDumpklines, linesText, List.flatMap_map], ?_, ?_⟩
  · intro line member
    obtain ⟨ban, inside, rfl⟩ := List.mem_map.mp member
    exact plusRecord_whole (recorded ban inside)
  · intro base later soundBase none _
    obtain ⟨after, read, sound', timed, has⟩ := readAll_plus soundBase recorded (dumped_apart sound) later
      fun ban _ other held kline => absurd kline (by simp [none other held])
    refine ⟨after, read, sound', timed (timed_of_none none later), ?_⟩
    intro wanted
    simp only [has, not_has none, false_or, mem_dumped sound.proper, and_assoc]

theorem Replays.later {later : Int} (replays : Replays file store now) (order : now ≤ later) : Replays file store later := by
  obtain ⟨lines, text, whole, gives⟩ := replays
  exact ⟨lines, text, whole, fun base time sound none after => gives base time sound none (Int.le_trans order after)⟩

/-- Only the K-lines to be stored count, and only those that have not expired. -/
theorem Replays.congr (replays : Replays file store now)
    (same : ∀ ban, storable ban = true → ban.expired now = false →
      (other.lists.Holds ban ↔ store.lists.Holds ban)) : Replays file other now := by
  obtain ⟨lines, text, whole, gives⟩ := replays
  refine ⟨lines, text, whole, ?_⟩
  intro base later sound none order
  obtain ⟨after, read, sound', timed, has⟩ := gives base later sound none order
  refine ⟨after, read, sound', timed, ?_⟩
  intro wanted
  rw [has]
  have live {ban : Ban} (young : ban.expired later = false) : ban.expired now = false := by
    cases old : ban.expired now with
    | true => simp [Ban.expired_mono old order] at young
    | false => rfl
  constructor
  · rintro ⟨ban, held, stored, young, shown⟩
    exact ⟨ban, (same ban stored (live young)).mpr held, stored, young, shown⟩
  · rintro ⟨ban, held, stored, young, shown⟩
    exact ⟨ban, (same ban stored (live young)).mp held, stored, young, shown⟩

private theorem linesText_snoc (lines : List Text) (line : Text) :
    linesText lines ++ (line ++ ['\n']) = linesText (lines ++ [line]) := by
  simp [linesText]

/-- A K-line that is added to memory and to the file. -/
theorem Replays.plus (replays : Replays file store now) (recorded : Recorded ban) (stored : storable ban = true)
    (fresh : ∀ old, store.lists.Holds old → isKline old = true → ¬ ban.Same old)
    (holds : ∀ old, other.lists.Holds old ↔ old = { ban with internalEnt := ent } ∨ store.lists.Holds old) :
    Replays (file ++ (plusRecord ban ++ ['\n'])) other now := by
  obtain ⟨lines, rfl, whole, gives⟩ := replays
  refine ⟨lines ++ [plusRecord ban], linesText_snoc lines _, ?_, ?_⟩
  · intro line member
    obtain old | new := List.mem_append.mp member
    · exact whole line old
    · rw [List.mem_singleton.mp new]
      exact plusRecord_whole recorded
  · intro base later sound none order
    obtain ⟨between, read, sound', timed, has⟩ := gives base later sound none order
    obtain ⟨after, last, sound'', timed', has'⟩ := sound'.plus recorded later (by
      intro old held kline same
      obtain ⟨source, held', stored', -, shown⟩ := (has (entry old)).mp ⟨old, held, kline, rfl⟩
      exact fresh source held' (isKline_of_storable stored') (same.trans (same_of_entry shown.symm)))
    refine ⟨after, by rw [readAll_append read, readAll, last]; rfl, sound'', timed' timed, ?_⟩
    intro wanted
    rw [has', has]
    constructor
    · rintro (⟨old, held, rest⟩ | ⟨young, shown⟩)
      · exact ⟨old, (holds old).mpr (.inr held), rest⟩
      · exact ⟨_, (holds _).mpr (.inl rfl), stored, young, shown⟩
    · rintro ⟨old, held, stored', young, shown⟩
      obtain rfl | held' := (holds old).mp held
      · exact .inr ⟨young, shown⟩
      · exact .inl ⟨old, held', stored', young, shown⟩

/-- A K-line that is taken out of memory and out of the file. -/
theorem Replays.minus (replays : Replays file store now) (sound : Sound store) (held : store.lists.Holds existing)
    (kline : isKline existing = true) (solid : Solid existing) :
    Replays (file ++ (minusRecord existing ++ ['\n'])) (store.removeUserban existing.internalEnt) now := by
  have genuine := sound.genuine existing held kline
  obtain ⟨lines, rfl, whole, gives⟩ := replays
  refine ⟨lines ++ [minusRecord existing], linesText_snoc lines _, ?_, ?_⟩
  · intro line member
    obtain old | new := List.mem_append.mp member
    · exact whole line old
    · rw [List.mem_singleton.mp new]
      exact minusRecord_whole genuine
  · intro base later soundBase none order
    obtain ⟨between, read, sound', timed, has⟩ := gives base later soundBase none order
    obtain ⟨after, last, sound'', holds⟩ := sound'.minus genuine solid later
    refine ⟨after, by rw [readAll_append read, readAll, last]; rfl, sound'',
      fun ban held => timed ban ((holds ban).mp held).1, ?_⟩
    intro wanted
    constructor
    · rintro ⟨ban, held', kline', rfl⟩
      obtain ⟨there, apart⟩ := (holds ban).mp held'
      obtain ⟨source, heldSource, stored, young, shown⟩ := (has (entry ban)).mp ⟨ban, there, kline', rfl⟩
      refine ⟨source, (sound.proper.holds_remove held).mpr ⟨heldSource, ?_⟩, stored, young, shown⟩
      rintro rfl
      exact apart ⟨kline', same_of_entry shown⟩
    · rintro ⟨source, heldSource, stored, young, rfl⟩
      obtain ⟨heldSource, other⟩ := (sound.proper.holds_remove held).mp heldSource
      obtain ⟨ban, there, kline', shown⟩ := (has (entry source)).mpr ⟨source, heldSource, stored, young, rfl⟩
      refine ⟨ban, (holds ban).mpr ⟨there, ?_⟩, kline', shown⟩
      rintro ⟨-, same⟩
      exact other (sound.unique source existing heldSource held (isKline_of_storable stored) kline
        (same.trans (same_of_entry shown)).symm)

/-- The store after `klinestore_init` has read the file. -/
theorem Replays.replay {later : Int} (replays : Replays file store now) (sound : Sound base)
    (none : ∀ ban, base.lists.Holds ban → isKline ban = false) (order : now ≤ later) :
    Sound (Kline.replay later file.length base file) ∧ Timed (Kline.replay later file.length base file) later ∧
      ∀ wanted, Has (Kline.replay later file.length base file) wanted ↔
        ∃ ban, store.lists.Holds ban ∧ storable ban = true ∧ ban.expired later = false ∧ entry ban = wanted := by
  obtain ⟨lines, rfl, whole, gives⟩ := replays
  obtain ⟨after, read, sound', timed, has⟩ := gives base later sound none order
  rw [replay_linesText whole base later (Nat.le_refl _), read]
  exact ⟨sound', timed, has⟩

end SolidIrcd.Kline
