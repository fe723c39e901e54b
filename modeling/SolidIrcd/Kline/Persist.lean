import SolidIrcd.Kline.Recovery
import SolidIrcd.Lib.Machine

/-! K-lines over many restarts and rehashes. The journal always agrees with memory about the
K-lines to be stored; a restart keeps them all, unless one of them has less time left than
KLINE_MIN_STORE_TIME. REHASH TKLINES takes K-lines out of memory only. -/

namespace SolidIrcd.Kline

open Scan (Text)
open UserBan

/-- The kill blocks of a configuration. -/
abbrev Conf := List (Option Text × Text × Option Text)

/-- What may happen: the clock, the two commands, the other bans that come and go, REHASH
TKLINES, a rehash by an operator or a signal, which an error in the configuration may abort,
and a new process that reads its configuration and then the journal. -/
inductive Action where
  | tick (seconds : Nat)
  | kline (sptr : Oper) (parv : List Text) (date : Text)
  | unkline (sptr : Oper) (parv : List Text)
  | expire
  | other (user : Option Text) (host : Text) (marks : Marks)
  | dropOthers (gone : Ban → Bool)
  | tklines
  | rehash (sighup aborted : Bool) (conf : Conf)
  | restart (conf : Conf)

def enter (store : Store) (user : Option Text) (host : Text) (marks : Marks) : Store :=
  match makeHostbasedBan user host with
  | none => store
  | some ban => (store.addHostbasedUserban (ban.mark marks)).getD store

/-- `confadd_kill` for every kill block. -/
def confadd (store : Store) (conf : Conf) : Store :=
  conf.foldl (fun store (user, host, reason) =>
    enter store user host { isLocal := true, conf := true, reason := reason }) store

/-- The kill blocks alone. -/
def confStore (conf : Conf) : Store := confadd Store.empty conf

def drop (store : Store) (gone : Ban → Bool) : Store := { store with lists := store.lists.discard gone }

/-- `rehash`, where `conf` are the kill blocks that are read before it is aborted. -/
def Server.rehash (server : Server) (sighup aborted : Bool) (conf : Conf) : Server :=
  let store :=
    if sighup then
      -- remove all but kill {} blocks from conf
      drop (drop server.store (·.flags.network)) isKline
    else server.store
  let store := confadd (drop store fun ban => ban.flags.isLocal && ban.flags.conf) conf
  if aborted then { server with store } else { server with store }.klinestoreInit (!sighup) none

def Server.perform (server : Server) : Action → Server
  | .tick seconds => { server with now := server.now + seconds }
  | .kline sptr parv date => server.mKline sptr parv date none
  | .unkline sptr parv => server.mUnkline sptr parv none
  | .expire => { server with store := server.store.expireUserbans server.now }
  | .other user host marks => { server with store := enter server.store user host marks }
  | .dropOthers gone =>
    { server with
      store := { server.store with lists := server.store.lists.discard fun ban => gone ban && !isKline ban } }
  | .tklines => { server with store := drop server.store fun ban => ban.flags.isLocal && ban.flags.temporary }
  | .rehash sighup aborted conf => server.rehash sighup aborted conf
  | .restart conf =>
    { server with
      store := confStore conf
      isOpen := false
      journalcount := 0 }.klinestoreInit false none

/-- The parameters of a command are from one line, and the date is that of `smalldate`. -/
def Possible (_ : Server) : Action → Prop
  | .kline _ parv date =>
    (∀ param ∈ parv, '\n' ∉ param) ∧ parv.flatten.length ≤ 510 ∧ '\n' ∉ date ∧ date.length < 32
  | .other _ _ marks => marks.isLocal = false ∨ marks.conf = true
  | _ => True

def machine : Machine Server Action := ⟨Server.perform, Possible⟩

def Server.start (now : Nat) : Server := ⟨Store.empty, true, [], 0, now⟩

/-- A K-line to be stored is in memory. -/
def Active (server : Server) (wanted : Entry) : Prop :=
  ∃ ban, server.store.lists.Holds ban ∧ storable ban = true ∧ entry ban = wanted

def Entry.expired (wanted : Entry) (now : Int) : Bool := wanted.expiry.any fun time => decide (time ≤ now)

/-- No K-line has less than KLINE_MIN_STORE_TIME left. -/
def LongLeft (server : Server) : Prop :=
  ∀ ban, server.store.lists.Holds ban → storable ban = true → ban.flags.temporary = true →
    ban.expired server.now = false → server.now + klineMinStoreTime * 60 ≤ ban.timeset + ban.duration

/-- Nothing with a blank in its mask goes to the journal, no expiry time is past the largest
`int`, where the journal is read again no K-line has less than KLINE_MIN_STORE_TIME left, and
no K-line to be stored is taken out of memory only. -/
def Steady (server : Server) : Action → Prop
  | .kline _ parv _ => ∀ minutes target reason, klineParams parv = some (minutes, target, reason) →
      banMinutes minutes = 0 ∨ banMinutes minutes ≥ klineMinStoreTime →
      ' ' ∉ target ∧ (banMinutes minutes ≠ 0 → server.now + banMinutes minutes * 60 ≤ Decimal.intMax)
  | .unkline _ parv => ∀ target ∈ parv.head?, ∀ existing, server.existing target = some existing →
      existing.flags.conf = false → Solid existing
  | .tklines => ∀ ban, server.store.lists.Holds ban → storable ban = true → ban.flags.temporary = true →
      ban.expired server.now = true
  | .rehash true true _ => ∀ ban, server.store.lists.Holds ban → storable ban = true → ban.expired server.now = true
  | .rehash true false _ | .restart _ => LongLeft server
  | _ => True

/-- An UNKLINE that takes this K-line away. -/
def Removes (server : Server) (wanted : Entry) : Action → Prop
  | .unkline sptr parv => sptr.canUnKline = true ∧ ∃ target ∈ parv.head?, ∃ existing,
      server.existing target = some existing ∧ existing.flags.conf = false ∧ entry existing = wanted
  | _ => False

/-- Memory and journal agree. -/
structure Kept (server : Server) : Prop where
  sound : Sound server.store
  opened : server.isOpen = true
  replays : Replays server.file server.store server.now
  clock : 0 ≤ server.now

variable {server : Server}

theorem Kept.start (now : Nat) : Kept (Server.start now) where
  sound := Sound.empty
  opened := rfl
  replays := by
    refine ⟨[], rfl, by simp, ?_⟩
    intro base later sound none _
    refine ⟨base, rfl, sound, timed_of_none none later, ?_⟩
    intro wanted
    constructor
    · rintro ⟨ban, held, kline, -⟩
      simp [none ban held] at kline
    · rintro ⟨ban, held, -⟩
      exact absurd held Shelf.holds_empty
  clock := Int.natCast_nonneg now

/-- A ban that is no K-line leaves the K-lines alone. -/
theorem enter_other {store : Store} (sound : Sound store) (user : Option Text) (host : Text)
    (other : marks.isLocal = false ∨ marks.conf = true) :
    Sound (enter store user host marks) ∧ ∀ ban, isKline ban = true →
      ((enter store user host marks).lists.Holds ban ↔ store.lists.Holds ban) := by
  unfold enter
  cases made : makeHostbasedBan user host with
  | none => exact ⟨sound, fun ban _ => Iff.rfl⟩
  | some ban =>
    have unlike : isKline (ban.mark marks) = false := by
      obtain away | conf := other
      · simp [isKline, Ban.mark, away]
      · simp [isKline, Ban.mark, conf]
    have unstored : ¬ storable (ban.mark marks) = true := by
      intro stored
      simp [isKline_of_storable stored] at unlike
    obtain ⟨after, added, sound', holds⟩ := sound.insert ((makeHostbasedBan_kind made).mark marks)
      (fun kline => absurd kline (by simp [unlike])) (fun stored => absurd stored unstored)
      (fun kline => absurd kline (by simp [unlike]))
    simp only [added, Option.getD_some]
    refine ⟨sound', fun old kline => ?_⟩
    rw [holds]
    constructor
    · rintro (rfl | held)
      · have same : isKline (ban.mark marks) = true := kline
        simp [unlike] at same
      · exact held
    · exact .inr

theorem confadd_other (conf : Conf) {store : Store} (sound : Sound store) :
    Sound (confadd store conf) ∧ ∀ ban, isKline ban = true →
      ((confadd store conf).lists.Holds ban ↔ store.lists.Holds ban) := by
  unfold confadd
  induction conf generalizing store with
  | nil => exact ⟨sound, fun _ _ => Iff.rfl⟩
  | cons block conf ih =>
    obtain ⟨user, host, reason⟩ := block
    have owned : ({ isLocal := true, conf := true, reason := reason } : Marks).isLocal = false ∨
        ({ isLocal := true, conf := true, reason := reason } : Marks).conf = true := .inr rfl
    obtain ⟨sound', holds⟩ := enter_other sound user host owned
    obtain ⟨sound'', holds'⟩ := ih sound'
    exact ⟨sound'', fun ban kline => (holds' ban kline).trans (holds ban kline)⟩

theorem confStore_sound (conf : Conf) : Sound (confStore conf) ∧ ∀ ban,
    (confStore conf).lists.Holds ban → isKline ban = false := by
  obtain ⟨sound, holds⟩ := confadd_other conf Sound.empty
  refine ⟨sound, fun ban held => ?_⟩
  cases kline : isKline ban with
  | false => rfl
  | true => exact absurd ((holds ban kline).mp held) Shelf.holds_empty

/-- What `m_kline` makes of parameters from one line. -/
theorem genuine_kline (made : makeHostbasedBan (some (userHost target).1) (userHost target).2 = some ban)
    (clean : '\n' ∉ target) (reasonClean : '\n' ∉ reason) (dateClean : '\n' ∉ date)
    (short : target.length + reason.length ≤ 521) (shortDate : date.length < 32)
    (positive : ∀ time, lasts = some time → 0 < time.1 + time.2) :
    Genuine (ban.mark { isLocal := true, reason := some (datedReason reason date), lasts := lasts }) := by
  obtain ⟨-, size⟩ := userHost_parts target
  have hostSize := length_hostText_le made
  have userSize : ban.userText.length ≤ (userHost target).1.length + 1 := by
    obtain text | text := userText_cases made <;> simp [text]
  have reasonSize : (datedReason reason date).length ≤ reason.length + date.length + 3 := by
    simp only [datedReason, List.length_take, List.length_append, List.length_cons, List.length_nil]
    have opened : " (".toList.length = 2 := by decide
    omega
  constructor
  case read =>
    have bare : plain (ban.mark { isLocal := true, reason := some (datedReason reason date), lasts := lasts }) = ban :=
      plain_made made
    rw [bare]
    exact makeHostbasedBan_again made
  case owner => rfl
  case reason =>
    refine ⟨datedReason reason date, rfl, ?_, ?_⟩
    · simp [datedReason]
    · intro member
      have inside := List.mem_of_mem_take member
      simp [reasonClean, dateClean] at inside
  case user => exact fun member => clean (mem_target made (by decide) (.inl member))
  case host => exact fun member => clean (mem_target made (by decide) (.inr member))
  case positive =>
    intro temporary
    cases lasts with
    | none => cases temporary
    | some time => exact positive time rfl
  case short =>
    change ban.userText.length + ban.hostText.length + (datedReason reason date).length ≤ 900
    omega

theorem solid_kline (made : makeHostbasedBan (some (userHost target).1) (userHost target).2 = some ban)
    (solid : ' ' ∉ target) : Solid ban where
  user := fun member => solid (mem_target made (by decide) (.inl member))
  host := fun member => solid (mem_target made (by decide) (.inr member))

/-- A record that is right about the new store. -/
theorem Kept.write (sound : Sound server.store) (opened : server.isOpen = true)
    (replays : Replays (server.file ++ (record ++ ['\n'])) server.store server.now) (clock : 0 ≤ server.now) :
    Kept (server.journalWrite record none) := by
  unfold Server.journalWrite
  simp only [opened, if_true]
  split
  · exact ⟨sound, rfl, replays_dump sound server.now, clock⟩
  · exact ⟨sound, rfl, replays, clock⟩

theorem kind_of_genuine (genuine : Genuine ban) : Kind ban :=
  (makeHostbasedBan_kind genuine.read).congr rfl rfl rfl rfl rfl rfl rfl

/-- A new K-line goes to memory, and to the journal if it is to be stored. -/
theorem Kept.enter (kept : Kept server) (genuine : Genuine ban) (recorded : storable ban = true → Recorded ban)
    (fresh : ∀ other, server.store.lists.Holds other → isKline other = true → ¬ ban.Same other) :
    Kept (let after := { server with store := (server.store.addHostbasedUserban ban).getD server.store }
      if storable ban = true then after.klinestoreAdd ban none else after) := by
  obtain ⟨after, added, sound, holds⟩ := kept.sound.insert (kind_of_genuine genuine)
    (fun _ => genuine) recorded (fun _ => fresh)
  simp only [added, Option.getD_some]
  split
  next stored => exact Kept.write sound kept.opened (kept.replays.plus (recorded stored) stored fresh holds) kept.clock
  next unstored =>
    refine ⟨sound, kept.opened, kept.replays.congr ?_, kept.clock⟩
    intro old stored _
    rw [holds]
    constructor
    · rintro (rfl | held)
      · exact absurd stored unstored
      · exact held
    · exact .inr

theorem mKline_cases (server : Server) (sptr : Oper) (parv : List Text) (date : Text) (fault : Option Fault) :
    server.mKline sptr parv date fault = server ∨ ∃ minutes target reason ban,
      klineParams parv = some (minutes, target, reason) ∧
      makeHostbasedBan (some (userHost target).1) (userHost target).2 = some ban ∧
      server.mKline sptr parv date fault =
        server.addKline sptr.client ban (banMinutes minutes) (datedReason reason date) fault := by
  unfold Server.mKline
  simp only
  split
  · exact .inl rfl
  · split
    · exact .inl rfl
    next minutes target reason params =>
      split
      · exact .inl rfl
      · split
        · exact .inl rfl
        next ban made => exact .inr ⟨minutes, target, reason, ban, params, made, rfl⟩

/-- The K-line that `m_kline` adds. -/
def madeKline (ban : Ban) (now tkminutes : Int) (rbuf : Text) : Ban :=
  ban.mark
    { isLocal := true
      reason := some rbuf
      lasts := if tkminutes * 60 ≠ 0 then some (now, tkminutes * 60) else none }

theorem addKline_cases (server : Server) (sptr : Client) (ban : Ban) (tkminutes : Int) (rbuf : Text)
    (fault : Option Fault) :
    server.addKline sptr ban tkminutes rbuf fault = server ∨
      (server.store.findUserbanExact (ban.mark { isLocal := true }) { isLocal := true } = none ∧
        server.addKline sptr ban tkminutes rbuf fault =
          let line := madeKline ban server.now tkminutes rbuf
          let after := { server with store := (server.store.addHostbasedUserban line).getD server.store }
          if tkminutes = 0 ∨ tkminutes ≥ klineMinStoreTime then after.klinestoreAdd line fault else after) := by
  unfold Server.addKline
  split
  · exact .inl rfl
  next missing =>
    split
    · exact .inl rfl
    · exact .inr ⟨missing, rfl⟩

theorem storable_madeKline (ban : Ban) (now : Int) (rbuf : Text) (nonneg : 0 ≤ tkminutes) :
    storable (madeKline ban now tkminutes rbuf) = true ↔ tkminutes = 0 ∨ tkminutes ≥ klineMinStoreTime := by
  by_cases zero : tkminutes = 0
  · simp [storable, isKline, madeKline, Ban.mark, zero]
  · have positive : tkminutes * 60 ≠ 0 := by omega
    simp only [storable, isKline, madeKline, Ban.mark, if_pos positive, zero, false_or, klineMinStoreTime]
    simp
    omega

theorem Kept.kline (kept : Kept server) (sptr : Oper) (possible : Possible server (.kline sptr parv date))
    (steady : Steady server (.kline sptr parv date)) : Kept (server.mKline sptr parv date none) := by
  obtain ⟨clean, size, dateClean, shortDate⟩ := possible
  obtain same | ⟨minutes, target, reason, ban, params, made, same⟩ := mKline_cases server sptr parv date none
  · rw [same]
    exact kept
  rw [same]
  obtain refused | ⟨missing, added⟩ := addKline_cases server sptr.client ban (banMinutes minutes)
    (datedReason reason date) none
  · rw [refused]
    exact kept
  rw [added]
  obtain ⟨targetIn, reasonIn, length⟩ := banParams_parts params
  have nonneg := banMinutes_nonneg minutes
  have clock := kept.clock
  have reasonClean : '\n' ∉ reason := by
    obtain inside | rfl := reasonIn
    · exact clean reason inside
    · decide
  have genuine : Genuine (madeKline ban server.now (banMinutes minutes) (datedReason reason date)) := by
    apply genuine_kline made (clean target targetIn) reasonClean dateClean (by omega) shortDate
    intro time lasts
    split at lasts
    · obtain rfl := Option.some.inj lasts
      simp only
      omega
    · cases lasts
  have recorded (stored : storable (madeKline ban server.now (banMinutes minutes) (datedReason reason date)) = true) :
      Recorded (madeKline ban server.now (banMinutes minutes) (datedReason reason date)) := by
    obtain ⟨solid, early⟩ := steady minutes target reason params ((storable_madeKline _ _ _ nonneg).mp stored)
    refine { genuine with solid := ?_, early := ?_ }
    · obtain ⟨user, host⟩ := solid_kline made solid
      exact ⟨user, host⟩
    · by_cases zero : banMinutes minutes * 60 = 0
      · simp [expiretime, madeKline, Ban.mark, zero, Decimal.intMax]
      · have given := early (by omega)
        simpa [expiretime, madeKline, Ban.mark, zero] using given
  have fresh (old : Ban) (held : server.store.lists.Holds old) (kline : isKline old = true) :
      ¬ (madeKline ban server.now (banMinutes minutes) (datedReason reason date)).Same old := by
    intro clash
    have kind := (makeHostbasedBan_kind made).mark { isLocal := true }
    have agree : Flags.agree { isLocal := true } old.flags (ban.mark { isLocal := true }).flags = true := by
      simp only [isKline, Bool.and_eq_true] at kline
      simp [Flags.agree, Ban.mark, kline.1]
    exact kept.sound.proper.find_none kind missing held agree
      ⟨clash.slot, clash.wilduser, clash.user, clash.host, clash.ip, clash.mask⟩
  have entered := kept.enter genuine recorded fresh
  simpa only [storable_madeKline ban server.now (datedReason reason date) nonneg] using entered

/-- What `m_unkline` finds is a K-line, or a ban of the configuration. -/
theorem existing_held (kept : Kept server) (found : server.existing target = some existing) :
    server.store.lists.Holds existing ∧ existing.flags.isLocal = true := by
  unfold Server.existing at found
  simp only at found
  split at found
  · cases found
  next ban made =>
    obtain ⟨held, -, agree⟩ := kept.sound.proper.find_some ((makeHostbasedBan_kind made).mark _) found
    refine ⟨held, ?_⟩
    simpa [Flags.agree, Ban.mark] using agree

theorem mUnkline_cases (server : Server) (sptr : Oper) (parv : List Text) (fault : Option Fault) :
    server.mUnkline sptr parv fault = server ∨ ∃ target ∈ parv.head?, ∃ existing,
      sptr.canUnKline = true ∧ server.existing target = some existing ∧ existing.flags.conf = false ∧
      server.mUnkline sptr parv fault =
        { server with store := server.store.removeUserban existing.internalEnt }.klinestoreRemove existing fault := by
  unfold Server.mUnkline
  split
  · exact .inl rfl
  next allowed =>
    split
    · exact .inl rfl
    next target rest =>
      split
      · exact .inl rfl
      next existing found =>
        split
        · exact .inl rfl
        next conf =>
          exact .inr ⟨target, rfl, existing, by simpa using allowed, found, by simpa using conf, rfl⟩

theorem Kept.unkline (kept : Kept server) (sptr : Oper) (steady : Steady server (.unkline sptr parv)) :
    Kept (server.mUnkline sptr parv none) := by
  obtain same | ⟨target, first, existing, -, found, conf, same⟩ := mUnkline_cases server sptr parv none
  · rw [same]
    exact kept
  · obtain ⟨held, isLocal⟩ := existing_held kept found
    have kline : isKline existing = true := by simp [isKline, isLocal, conf]
    rw [same]
    exact Kept.write (kept.sound.discard _) kept.opened
      (kept.replays.minus kept.sound held kline (steady target first existing found conf)) kept.clock

theorem Kept.discard (kept : Kept server) (gone : Ban → Bool)
    (others : ∀ ban, server.store.lists.Holds ban → storable ban = true → ban.expired server.now = false → gone ban = false) :
    Kept { server with store := { server.store with lists := server.store.lists.discard gone } } where
  sound := kept.sound.discard gone
  opened := kept.opened
  replays := by
    apply kept.replays.congr
    intro ban stored live
    rw [Shelf.holds_discard]
    exact ⟨fun held => held.1, fun held => ⟨held, others ban held stored live⟩⟩
  clock := kept.clock

/-- The journal brings the K-lines to be stored back, over any bans that are no K-lines. -/
theorem Kept.reload (kept : Kept server) {base : Store} (sound : Sound base)
    (none : ∀ ban, base.lists.Holds ban → isKline ban = false) :
    Kept ({ server with store := base }.klinestoreInit false .none) ∧
      Timed ({ server with store := base }.klinestoreInit false .none).store server.now ∧
      ∀ wanted, Has ({ server with store := base }.klinestoreInit false .none).store wanted ↔
        ∃ ban, server.store.lists.Holds ban ∧ storable ban = true ∧ ban.expired server.now = false ∧
          entry ban = wanted := by
  obtain ⟨sound', timed, has⟩ := kept.replays.replay sound none (Int.le_refl _)
  simp only [Server.klinestoreInit, Bool.and_false, Bool.false_eq_true, if_false]
  exact ⟨⟨sound', rfl, replays_dump sound' server.now, kept.clock⟩, timed, has⟩

theorem restart_eq (server : Server) (conf : Conf) :
    server.perform (.restart conf) = { server with store := confStore conf }.klinestoreInit false none := by
  simp only [Server.perform, Server.klinestoreInit, Bool.and_false, Bool.false_eq_true, if_false]
  rfl

/-- A rehash by an operator leaves the K-lines alone; one by a signal takes all of them out of
memory, and reads the journal unless it is aborted. -/
theorem Kept.rehash_cases (kept : Kept server) (sighup aborted : Bool) (conf : Conf) : ∃ base, Sound base ∧
    (sighup = false ∧ server.rehash sighup aborted conf = { server with store := base } ∧
        (∀ ban, isKline ban = true → (base.lists.Holds ban ↔ server.store.lists.Holds ban)) ∨
      sighup = true ∧ (∀ ban, base.lists.Holds ban → isKline ban = false) ∧
        server.rehash sighup aborted conf =
          if aborted then { server with store := base } else { server with store := base }.klinestoreInit false none) := by
  cases sighup with
  | true =>
    obtain ⟨sound, holds⟩ := confadd_other conf
      (((kept.sound.discard (·.flags.network)).discard isKline).discard fun ban => ban.flags.isLocal && ban.flags.conf)
    refine ⟨_, sound, .inr ⟨rfl, fun ban held => ?_, rfl⟩⟩
    cases kline : isKline ban with
    | false => rfl
    | true =>
      have before := (holds ban kline).mp held
      simp [Shelf.holds_discard, kline] at before
  | false =>
    obtain ⟨sound, holds⟩ := confadd_other conf (kept.sound.discard fun ban => ban.flags.isLocal && ban.flags.conf)
    refine ⟨_, sound, .inl ⟨rfl, ?_, fun ban kline => (holds ban kline).trans ?_⟩⟩
    · have opened := kept.opened
      cases aborted with
      | true => rfl
      | false => simp [Server.rehash, Server.klinestoreInit, drop, opened]
    · have blocks : (ban.flags.isLocal && ban.flags.conf) = false := by
        revert kline
        unfold isKline
        cases ban.flags.isLocal <;> cases ban.flags.conf <;> decide
      simp [Shelf.holds_discard, blocks]

theorem Kept.rehash (kept : Kept server) {sighup aborted : Bool} {conf : Conf}
    (steady : Steady server (.rehash sighup aborted conf)) : Kept (server.rehash sighup aborted conf) := by
  obtain ⟨base, sound, ⟨rfl, same, holds⟩ | ⟨rfl, none, same⟩⟩ := kept.rehash_cases sighup aborted conf
  · rw [same]
    exact ⟨sound, kept.opened, kept.replays.congr fun ban stored _ => holds ban (isKline_of_storable stored), kept.clock⟩
  rw [same]
  cases aborted with
  | true =>
    refine ⟨sound, kept.opened, kept.replays.congr fun ban stored live => ?_, kept.clock⟩
    constructor
    · intro held
      have kline := isKline_of_storable stored
      rw [none ban held] at kline
      cases kline
    · intro held
      rw [steady ban held stored] at live
      cases live
  | false => exact (kept.reload sound none).1

/-- What TKLINES takes away comes back with the next restart. -/
theorem Kept.tklines_undone (kept : Kept server) (conf : Conf) (wanted : Entry) :
    Has ((server.perform .tklines).perform (.restart conf)).store wanted ↔
      ∃ ban, server.store.lists.Holds ban ∧ storable ban = true ∧ ban.expired server.now = false ∧ entry ban = wanted := by
  obtain ⟨base, none⟩ := confStore_sound conf
  have same : (server.perform .tklines).perform (.restart conf) = server.perform (.restart conf) := rfl
  rw [same, restart_eq]
  exact (kept.reload base none).2.2 wanted

theorem Kept.perform (kept : Kept server) (possible : Possible server action) (steady : Steady server action) :
    Kept (server.perform action) := by
  cases action with
  | tick seconds =>
    have clock := kept.clock
    have later : server.now ≤ server.now + seconds := by omega
    exact ⟨kept.sound, kept.opened, kept.replays.later later, Int.le_trans clock later⟩
  | kline sptr parv date => exact kept.kline sptr possible steady
  | unkline sptr parv => exact kept.unkline sptr steady
  | expire => exact kept.discard _ fun _ _ _ live => live
  | other user host marks =>
    obtain ⟨sound, holds⟩ := enter_other kept.sound user host possible
    exact ⟨sound, kept.opened, kept.replays.congr fun ban stored _ => holds ban (isKline_of_storable stored), kept.clock⟩
  | dropOthers gone => exact kept.discard _ fun ban _ stored _ => by simp [isKline_of_storable stored]
  | tklines =>
    refine kept.discard _ fun ban held stored live => ?_
    cases temporary : ban.flags.temporary with
    | false => simp
    | true =>
      rw [steady ban held stored temporary] at live
      cases live
  | rehash sighup aborted conf => exact kept.rehash steady
  | restart conf =>
    obtain ⟨base, none⟩ := confStore_sound conf
    rw [restart_eq]
    exact (kept.reload base none).1

theorem Kept.run (run : machine.Run Steady (Server.start now) server) : Kept server :=
  run.invariant Kept (fun _ _ possible steady kept => kept.perform possible steady) (Kept.start now)

theorem expired_entry (ban : Ban) (now : Int) : (entry ban).expired now = ban.expired now := by
  unfold Entry.expired entry Ban.expired
  cases ban.flags.temporary <;> simp

/-- What was read back has its whole remaining time as its duration. -/
theorem active_of_timed (timed : Timed server.store now) : Active server wanted ↔
    Has server.store wanted ∧ ∀ time, wanted.expiry = some time → now + klineMinStoreTime * 60 ≤ time := by
  have long {ban : Ban} (held : server.store.lists.Holds ban) (kline : isKline ban = true) :
      storable ban = true ↔ ∀ time, (entry ban).expiry = some time → now + klineMinStoreTime * 60 ≤ time := by
    have set := timed ban held kline
    cases temporary : ban.flags.temporary with
    | false => simp [storable, kline, entry, temporary]
    | true =>
      have start := set temporary
      simp [storable, kline, entry, temporary]
      omega
  constructor
  · rintro ⟨ban, held, stored, rfl⟩
    have kline := isKline_of_storable stored
    exact ⟨⟨ban, held, kline, rfl⟩, (long held kline).mp stored⟩
  · rintro ⟨⟨ban, held, kline, rfl⟩, left⟩
    exact ⟨ban, held, (long held kline).mpr left, rfl⟩

/-- Reading the journal keeps the K-lines to be stored exactly when none of them is short of time. -/
theorem Kept.reload_active (kept : Kept server) {base : Store} (sound : Sound base)
    (none : ∀ ban, base.lists.Holds ban → isKline ban = false) :
    (∀ wanted, Active ({ server with store := base }.klinestoreInit false .none) wanted ↔
      Active server wanted ∧ wanted.expired server.now = false) ↔ LongLeft server := by
  obtain ⟨-, timed, has⟩ := kept.reload sound none
  constructor
  · intro same ban held stored temporary live
    have active := (same (entry ban)).mpr ⟨⟨ban, held, stored, rfl⟩, by rw [expired_entry, live]⟩
    exact ((active_of_timed timed).mp active).2 _ (by simp [entry, temporary])
  · intro enough wanted
    rw [active_of_timed timed, has]
    constructor
    · rintro ⟨⟨ban, held, stored, live, rfl⟩, -⟩
      exact ⟨⟨ban, held, stored, rfl⟩, by rw [expired_entry, live]⟩
    · rintro ⟨⟨ban, held, stored, rfl⟩, live⟩
      rw [expired_entry] at live
      refine ⟨⟨ban, held, stored, live, rfl⟩, ?_⟩
      intro time expiry
      cases temporary : ban.flags.temporary with
      | false => simp [entry, temporary] at expiry
      | true =>
        obtain rfl : ban.timeset + ban.duration = time := by simpa [entry, temporary] using expiry
        exact enough ban held stored temporary live

/-- So does a restart. -/
theorem Kept.restart_active (kept : Kept server) (conf : Conf) :
    (∀ wanted, Active (server.perform (.restart conf)) wanted ↔
      Active server wanted ∧ wanted.expired server.now = false) ↔ Steady server (.restart conf) := by
  obtain ⟨base, none⟩ := confStore_sound conf
  rw [restart_eq]
  exact kept.reload_active base none

theorem mKline_now (server : Server) (sptr : Oper) (parv : List Text) (date : Text) (fault : Option Fault) :
    (server.mKline sptr parv date fault).now = server.now := by
  obtain same | ⟨minutes, target, reason, ban, -, -, same⟩ := mKline_cases server sptr parv date fault
  · rw [same]
  · rw [same]
    obtain refused | ⟨-, added⟩ := addKline_cases server sptr.client ban (banMinutes minutes)
      (datedReason reason date) fault
    · rw [refused]
    · rw [added]
      simp only [Server.klinestoreAdd]
      split <;> simp

/-- `m_kline` takes nothing out of memory. -/
theorem mKline_holds (sptr : Oper) (parv : List Text) (date : Text) (fault : Option Fault)
    (held : server.store.lists.Holds ban) : (server.mKline sptr parv date fault).store.lists.Holds ban := by
  obtain same | ⟨minutes, target, reason, new, -, -, same⟩ := mKline_cases server sptr parv date fault
  · rwa [same]
  · rw [same]
    obtain refused | ⟨-, added⟩ := addKline_cases server sptr.client new (banMinutes minutes)
      (datedReason reason date) fault
    · rwa [refused]
    · have stays : ((server.store.addHostbasedUserban (madeKline new server.now (banMinutes minutes)
          (datedReason reason date))).getD server.store).lists.Holds ban := by
        unfold Store.addHostbasedUserban
        cases (madeKline new server.now (banMinutes minutes) (datedReason reason date)).slot with
        | none => exact held
        | some slot => exact Shelf.holds_put.mpr (.inr held)
      rw [added]
      simp only [Server.klinestoreAdd]
      split
      · rwa [journalWrite_store]
      · exact stays

@[simp] theorem klinestoreInit_now (server : Server) (noreload : Bool) (fault : Option Fault) :
    (server.klinestoreInit noreload fault).now = server.now := by
  unfold Server.klinestoreInit
  split
  · rfl
  · rw [compact_now]

theorem rehash_now (server : Server) (sighup aborted : Bool) (conf : Conf) :
    (server.rehash sighup aborted conf).now = server.now := by
  unfold Server.rehash
  dsimp only
  split
  · rfl
  · rw [klinestoreInit_now]

theorem now_le_perform (server : Server) (action : Action) : server.now ≤ (server.perform action).now := by
  cases action with
  | tick seconds =>
    simp only [Server.perform]
    omega
  | kline sptr parv date => exact Int.le_of_eq (mKline_now server sptr parv date none).symm
  | unkline sptr parv =>
    apply Int.le_of_eq
    obtain same | ⟨_, _, _, _, _, _, same⟩ := mUnkline_cases server sptr parv none
    · rw [Server.perform, same]
    · rw [Server.perform, same, Server.klinestoreRemove, journalWrite_now]
  | expire => exact Int.le_refl _
  | other user host marks => exact Int.le_refl _
  | dropOthers gone => exact Int.le_refl _
  | tklines => exact Int.le_refl _
  | rehash sighup aborted conf => exact Int.le_of_eq (rehash_now server sighup aborted conf).symm
  | restart conf => exact Int.le_refl _

theorem Active.rehash (active : Active server wanted) (kept : Kept server) {sighup aborted : Bool} {conf : Conf}
    (steady : Steady server (.rehash sighup aborted conf)) (live : wanted.expired server.now = false) :
    Active (server.rehash sighup aborted conf) wanted := by
  obtain ⟨base, sound, ⟨rfl, same, holds⟩ | ⟨rfl, none, same⟩⟩ := kept.rehash_cases sighup aborted conf
  · obtain ⟨ban, held, stored, shown⟩ := active
    rw [same]
    exact ⟨ban, (holds ban (isKline_of_storable stored)).mpr held, stored, shown⟩
  rw [same]
  cases aborted with
  | true =>
    obtain ⟨ban, held, stored, rfl⟩ := active
    rw [expired_entry, steady ban held stored] at live
    cases live
  | false => exact ((kept.reload_active sound none).mpr steady _).mpr ⟨active, live⟩

/-- One step keeps a K-line that it does not remove and that does not expire. -/
theorem Active.perform (active : Active server wanted) (kept : Kept server) (possible : Possible server action)
    (steady : Steady server action) (stays : ¬ Removes server wanted action)
    (live : wanted.expired server.now = false) : Active (server.perform action) wanted := by
  have held := active
  obtain ⟨ban, there, stored, rfl⟩ := held
  have kline := isKline_of_storable stored
  cases action with
  | tick seconds => exact active
  | kline sptr parv date => exact ⟨ban, mKline_holds sptr parv date none there, stored, rfl⟩
  | unkline sptr parv =>
    obtain same | ⟨target, first, existing, allowed, found, conf, same⟩ := mUnkline_cases server sptr parv none
    · rw [Server.perform, same]
      exact active
    · refine ⟨ban, ?_, stored, rfl⟩
      rw [Server.perform, same, Server.klinestoreRemove, journalWrite_store]
      refine (kept.sound.proper.holds_remove (existing_held kept found).1).mpr ⟨there, ?_⟩
      rintro rfl
      exact stays ⟨allowed, target, first, ban, found, conf, rfl⟩
  | expire =>
    rw [expired_entry] at live
    exact ⟨ban, Shelf.holds_discard.mpr ⟨there, live⟩, stored, rfl⟩
  | other user host marks =>
    exact ⟨ban, ((enter_other kept.sound user host possible).2 ban kline).mpr there, stored, rfl⟩
  | dropOthers gone => exact ⟨ban, Shelf.holds_discard.mpr ⟨there, by simp [kline]⟩, stored, rfl⟩
  | tklines =>
    refine ⟨ban, Shelf.holds_discard.mpr ⟨there, ?_⟩, stored, rfl⟩
    cases temporary : ban.flags.temporary with
    | false => simp
    | true =>
      rw [expired_entry, steady ban there stored temporary] at live
      cases live
  | rehash sighup aborted conf => exact active.rehash kept steady live
  | restart conf => exact ((kept.restart_active conf).mpr steady _).mpr ⟨active, live⟩

theorem Entry.expired_mono {wanted : Entry} (live : wanted.expired later = false) (order : now ≤ later) :
    wanted.expired now = false := by
  unfold Entry.expired at *
  cases expiry : wanted.expiry with
  | none => rfl
  | some time =>
    simp [expiry] at live ⊢
    omega

theorem Active.run (run : machine.Run (fun state action => Steady state action ∧ ¬ Removes state wanted action) server final)
    (kept : Kept server) (active : Active server wanted) (live : wanted.expired final.now = false) :
    Kept final ∧ Active final wanted := by
  induction run with
  | refl => exact ⟨kept, active⟩
  | @tail state action before possible met ih =>
    have live' := Entry.expired_mono live (now_le_perform state action)
    obtain ⟨kept', active'⟩ := ih live'
    exact ⟨kept'.perform possible met.1, active'.perform kept' possible met.1 met.2 live'⟩

/-- In every run of steady actions, a restart keeps the K-lines to be stored exactly when
none of them is short of time; and over a steady run, restarts included, such a K-line
stays until it expires or is removed. -/
theorem klines_persist (run : machine.Run Steady (Server.start now) server) :
    (∀ conf, (∀ wanted, Active (server.perform (.restart conf)) wanted ↔
      Active server wanted ∧ wanted.expired server.now = false) ↔ Steady server (.restart conf)) ∧
    ∀ wanted final, Active server wanted →
      machine.Run (fun state action => Steady state action ∧ ¬ Removes state wanted action) server final →
      wanted.expired final.now = false → Active final wanted := by
  have kept := Kept.run run
  exact ⟨kept.restart_active, fun wanted final active onward live => (active.run onward kept live).2⟩

theorem mKline_eq (allowed : sptr.canKline = true) (params : klineParams parv = some (minutes, target, reason))
    (narrow : tooWide (userHost target).1 (userHost target).2 = false)
    (made : makeHostbasedBan (some (userHost target).1) (userHost target).2 = some ban) (server : Server) (date : Text)
    (fault : Option Fault) : server.mKline sptr parv date fault =
      server.addKline sptr.client ban (banMinutes minutes) (datedReason reason date) fault := by
  simp only [Server.mKline, allowed, Bool.not_true, Bool.false_eq_true, if_false, params, narrow, made]

/-- `KLINE 180 a.b :spam`, at time 0. -/
def spamKline : Action :=
  .kline ⟨⟨"o".toList, "o.net".toList, 0⟩, true, true⟩ ["180".toList, "a.b".toList, "spam".toList] "d".toList

def spamBan (timeset : Int) (duration : Int) : Ban :=
  { flags := { isLocal := true, host := true, temporary := true, wilduser := true }
    u := none
    h := some "a.b".toList
    cidr4ip := 0
    cidr4mask := 0
    reason := some "spam (d)".toList
    timeset := timeset
    duration := duration
    internalEnt := 0 }

def spamStore (timeset : Int) (duration : Int) : Store :=
  ⟨Shelf.empty.put (.hostBucket 1) (spamBan timeset duration), 1⟩

def spamServer : Server := ⟨spamStore 0 10800, true, "+ 10800 * a.b spam (d)\n".toList, 1, 0⟩

theorem perform_spamKline : machine.perform (Server.start 0) spamKline = spamServer := by
  have narrow : tooWide ['*'] "a.b".toList = false := tooWide_of_head (by decide) (by decide) (by decide) _ _
  have params : klineParams ["180".toList, "a.b".toList, "spam".toList] =
      some (180, "a.b".toList, "spam".toList) := by decide +kernel
  have made : makeHostbasedBan (some ['*']) "a.b".toList =
      some ((makeHostbasedBan (some ['*']) "a.b".toList).get (by decide)) := by decide +kernel
  change (Server.start 0).mKline ⟨⟨"o".toList, "o.net".toList, 0⟩, true, true⟩
    ["180".toList, "a.b".toList, "spam".toList] "d".toList none = spamServer
  rw [mKline_eq rfl params narrow made]
  rfl

theorem spamStore_holds : (spamStore timeset duration).lists.Holds ban ↔ ban = spamBan timeset duration := by
  simp only [spamStore, Shelf.holds_put, Shelf.holds_empty, or_false]

theorem spamKline_possible : Possible (Server.start 0) spamKline := by
  refine ⟨?_, by decide, by decide, by decide⟩
  decide

theorem spamServer_run : machine.Run Steady (Server.start 0) spamServer := by
  have steady : Steady (Server.start 0) spamKline := by
    intro minutes target reason params _
    obtain ⟨rfl, rfl, rfl⟩ : (180 : Int) = minutes ∧ "a.b".toList = target ∧ "spam".toList = reason := by
      have known : klineParams ["180".toList, "a.b".toList, "spam".toList] =
          some (180, "a.b".toList, "spam".toList) := by decide +kernel
      have same := Option.some.inj (known.symm.trans params)
      exact ⟨congrArg Prod.fst same, congrArg (fun given => given.2.1) same, congrArg (fun given => given.2.2) same⟩
    decide
  have run : machine.Run Steady (Server.start 0) (machine.perform (Server.start 0) spamKline) :=
    .tail (.refl _) spamKline_possible steady
  rwa [perform_spamKline] at run

/-- Three hours are left, so a restart keeps the K-line. -/
theorem spamServer_restart : Active (spamServer.perform (.restart [])) (entry (spamBan 0 10800)) := by
  have enough : Steady spamServer (.restart []) := by
    intro ban held _ _ _
    obtain rfl := spamStore_holds.mp held
    decide
  have active : Active spamServer (entry (spamBan 0 10800)) :=
    ⟨spamBan 0 10800, spamStore_holds.mpr rfl, by decide, rfl⟩
  exact (((klines_persist spamServer_run).1 []).mpr enough _).mpr ⟨active, by decide⟩

theorem restart_file (server : Server) (conf : List (Option Text × Text × Option Text)) :
    (server.perform (.restart conf)).file = ksDumpklines (server.perform (.restart conf)).store := rfl

theorem dumped_eq_nil {store : Store} (none : ∀ ban, store.lists.Holds ban → storable ban = false) :
    dumped store = [] := by
  rw [dumped, List.flatMap_eq_nil_iff]
  intro slot _
  rw [List.filter_eq_nil_iff]
  intro ban member
  simp [none ban ⟨slot, member⟩]

/-- A second less, and the K-line is not written again: it does not live through the
restart after that. -/
theorem spamKline_lost : ∃ server wanted, machine.Run Machine.Any (Server.start 0) server ∧ Active server wanted ∧
    wanted.expired server.now = false ∧ ¬ Active (server.perform (.restart [])) wanted ∧
    ¬ Has ((server.perform (.restart [])).perform (.restart [])).store wanted := by
  have run : machine.Run Machine.Any (Server.start 0) (machine.perform (Server.start 0) spamKline) :=
    .tail (.refl _) spamKline_possible trivial
  rw [perform_spamKline] at run
  have waited : machine.Run Machine.Any (Server.start 0) (machine.perform spamServer (.tick 1)) :=
    .tail run trivial trivial
  have reread : ((machine.perform spamServer (.tick 1)).perform (.restart [])).store = spamStore 1 10799 := by rfl
  have unstored : storable (spamBan 1 10799) = false := by decide
  have file : ((machine.perform spamServer (.tick 1)).perform (.restart [])).file = [] := by
    rw [restart_file, reread, ksDumpklines, dumped_eq_nil, List.flatMap_nil]
    intro ban held
    rw [spamStore_holds.mp held, unstored]
  refine ⟨_, entry (spamBan 0 10800), waited, ⟨spamBan 0 10800, spamStore_holds.mpr rfl, by decide, rfl⟩,
    by decide, ?_, ?_⟩
  · rintro ⟨ban, held, stored, -⟩
    rw [reread] at held
    rw [spamStore_holds.mp held, unstored] at stored
    cases stored
  · rintro ⟨ban, held, -⟩
    simp only [Server.perform, Server.klinestoreInit, Bool.false_and, Bool.false_eq_true, if_false,
      compact_store] at held file
    simp only [file] at held
    exact Shelf.holds_empty held

end SolidIrcd.Kline
