import SolidIrcd.Channel.Listing
import SolidIrcd.Lib.Decimal
import SolidIrcd.Lib.Token
import Mathlib.Data.List.Induction

/-! The options of LIST: what `m_list` of `channel.c` makes of them, and what the usage text
says they are for. -/

namespace SolidIrcd.Channel.Listing

open Decimal (atoi toInt print)
open Scan (Text tokens)

/-- The local variables of `m_list`. -/
structure Locals where
  usermax : Int
  usermin : Int
  error : Bool
  doall : Bool
  onlyListed : Bool
  chantimemin : Int
  chantimemax : Int
  topictimemin : Int
  topictimemax : Int
  yeslist : List Text
  nolist : List Text

def Locals.start (currenttime : Int) : Locals :=
  ⟨-1, 0, false, false, true, 0, currenttime + 86400, 0, currenttime + 86400, [], []⟩

/-- `currenttime - 60 * atoi(name)`; the product is an `int`. -/
def minutesAgo (currenttime : Int) (name : Text) : Int := currenttime - toInt (60 * atoi name)

def readCreated (currenttime : Int) (locals : Locals) : Text → Locals
  | '<' :: name => { locals with chantimemax := minutesAgo currenttime name, doall := true }
  | '>' :: name => { locals with chantimemin := minutesAgo currenttime name, doall := true }
  | _ => { locals with error := true }

def readTopic (currenttime : Int) (locals : Locals) : Text → Locals
  | '<' :: name => { locals with topictimemax := minutesAgo currenttime name, doall := true }
  | '>' :: name => { locals with topictimemin := minutesAgo currenttime name, doall := true }
  | _ => { locals with error := true }

/-- The `default` label; a channel without wildcards is answered at once. -/
def readChannel (locals : Locals) (name : Text) : Locals :=
  if name.head? = some '!' then { locals with doall := true, nolist := name.drop 1 :: locals.nolist }
  else if name.contains '*' || name.contains '?' then { locals with doall := true, yeslist := name :: locals.yeslist }
  else locals

/-- The `switch` of `m_list`. -/
def readOption (build : Build) (currenttime : Int) (locals : Locals) (name : Text) : Locals :=
  match name with
  | '<' :: rest => { locals with usermax := toInt (atoi rest - 1), doall := true }
  | '>' :: rest => { locals with usermin := toInt (atoi rest + 1), doall := true }
  | 'C' :: rest => readCreated currenttime locals rest
  | 'c' :: rest => readCreated currenttime locals rest
  | 'T' :: rest => readTopic currenttime locals rest
  | 't' :: rest => readTopic currenttime locals rest
  | '-' :: rest =>
    if build.chanmodeL then
      if mycmp rest "all".toList then { locals with onlyListed := false, doall := true } else locals
    else readChannel locals name
  | _ => readChannel locals name

/-- The loop through the options, which an error ends. -/
def readOptions (build : Build) (currenttime : Int) : Locals → List Text → Locals
  | locals, [] => locals
  | locals, name :: names =>
    if locals.error then locals else readOptions build currenttime (readOption build currenttime locals name) names

/-- What `m_list` keeps of the local variables; `usermin` becomes an `unsigned short`. -/
def Locals.options (locals : Locals) : LOpts :=
  ⟨locals.yeslist, locals.nolist, 0, false, locals.onlyListed, locals.usermin % 65536, locals.usermax,
    locals.chantimemin, locals.chantimemax, locals.topictimemin, locals.topictimemax⟩

/-- `m_list` with options: what it leaves for `send_list`, if anything. A lone `?` asks for the
usage text. -/
def mList (build : Build) (currenttime : Int) (parv : Text) : Option LOpts :=
  if parv = ['?'] then none else
    let locals := readOptions build currenttime (.start currenttime) (tokens ',' parv)
    if locals.doall then some locals.options else none

/-- The options of the usage text. -/
inductive Opt where
  /-- `>number` -/
  | more (n : Int)
  /-- `<number` -/
  | fewer (n : Int)
  /-- `C>number` -/
  | createdSince (n : Int)
  /-- `C<number` -/
  | createdBefore (n : Int)
  /-- `T>number` -/
  | topicBefore (n : Int)
  /-- `T<number` -/
  | topicSince (n : Int)
  /-- `*mask*` -/
  | mask (wild : Text)
  /-- `!*mask*` -/
  | notMask (wild : Text)
  deriving DecidableEq

def Opt.text : Opt → Text
  | .more n => '>' :: print n
  | .fewer n => '<' :: print n
  | .createdSince n => 'C' :: '>' :: print n
  | .createdBefore n => 'C' :: '<' :: print n
  | .topicBefore n => 'T' :: '>' :: print n
  | .topicSince n => 'T' :: '<' :: print n
  | .mask wild => wild
  | .notMask wild => '!' :: wild

/-- What the usage text says which channels an option is for. -/
def Opt.means (now : Int) (chptr : Room) : Opt → Prop
  /- "List channels with more than <number> people." -/
  | .more n => n < chptr.users
  /- "List channels with less than <number> people." -/
  | .fewer n => (chptr.users : Int) < n
  /- "List channels created between now and <number> minutes ago." -/
  | .createdSince n => now - 60 * n ≤ chptr.channelts ∧ chptr.channelts ≤ now
  /- "List channels created earlier than <number> minutes ago." -/
  | .createdBefore n => chptr.channelts < now - 60 * n
  /- "List channels whose topics are older than <number> minutes" -/
  | .topicBefore n => chptr.topicTime < now - 60 * n
  /- "List channels whose topics are not older than <number> minutes." -/
  | .topicSince n => now - 60 * n ≤ chptr.topicTime
  /- "List channels that match *mask*" -/
  | .mask wild => Mask.matchMask wild chptr.chname = true
  /- "List channels that do not match *mask*" -/
  | .notMask wild => Mask.matchMask wild chptr.chname = false

/-- What `m_list` can tell from the other options, and `strtoken` does not cut. -/
def Opt.WellFormed (build : Build) : Opt → Prop
  | .mask wild => (wild.contains '*' || wild.contains '?') = true ∧ ',' ∉ wild ∧
      (∀ c ∈ wild.head?, c ∉ ['<', '>', 'C', 'c', 'T', 't', '!']) ∧
      (wild.head? = some '-' → build.chanmodeL = false)
  | .notMask wild => ',' ∉ wild
  | _ => True

/-- What `atoi` makes of a number. -/
def reads (n : Int) : Int := toInt (Decimal.clamp n)

/-- What an option does to the local variables. -/
def Opt.enter (currenttime : Int) (locals : Locals) : Opt → Locals
  | .more n => { locals with usermin := toInt (reads n + 1), doall := true }
  | .fewer n => { locals with usermax := toInt (reads n - 1), doall := true }
  | .createdSince n => { locals with chantimemin := currenttime - toInt (60 * reads n), doall := true }
  | .createdBefore n => { locals with chantimemax := currenttime - toInt (60 * reads n), doall := true }
  | .topicBefore n => { locals with topictimemin := currenttime - toInt (60 * reads n), doall := true }
  | .topicSince n => { locals with topictimemax := currenttime - toInt (60 * reads n), doall := true }
  | .mask wild => { locals with doall := true, yeslist := wild :: locals.yeslist }
  | .notMask wild => { locals with doall := true, nolist := wild :: locals.nolist }

theorem readOption_plain (build : Build) (currenttime : Int) (locals : Locals)
    (plain : ∀ c ∈ List.head? name, c ∉ ['<', '>', 'C', 'c', 'T', 't'])
    (dash : name.head? = some '-' → build.chanmodeL = false) :
    readOption build currenttime locals name = readChannel locals name := by
  cases name with
  | nil => rfl
  | cons c rest =>
    have other : c ∉ ['<', '>', 'C', 'c', 'T', 't'] := plain c rfl
    simp only [List.mem_cons, List.not_mem_nil, or_false, not_or] at other
    unfold readOption
    split
    next same => exact absurd (List.cons.inj same).1 other.1
    next same => exact absurd (List.cons.inj same).1 other.2.1
    next same => exact absurd (List.cons.inj same).1 other.2.2.1
    next same => exact absurd (List.cons.inj same).1 other.2.2.2.1
    next same => exact absurd (List.cons.inj same).1 other.2.2.2.2.1
    next same => exact absurd (List.cons.inj same).1 other.2.2.2.2.2
    next same =>
      have off : build.chanmodeL = false := dash (by rw [(List.cons.inj same).1]; rfl)
      rw [off]
      rfl
    next => rfl

/-- Every option of the usage text is read as it was written. -/
theorem readOption_text (build : Build) (currenttime : Int) (locals : Locals) (option : Opt)
    (wellFormed : option.WellFormed build) :
    readOption build currenttime locals option.text = option.enter currenttime locals := by
  cases option with
  | more n => simp only [Opt.text, readOption, Opt.enter, Decimal.atoi_print_clamp, reads]
  | fewer n => simp only [Opt.text, readOption, Opt.enter, Decimal.atoi_print_clamp, reads]
  | createdSince n =>
    simp only [Opt.text, readOption, readCreated, minutesAgo, Opt.enter, Decimal.atoi_print_clamp, reads]
  | createdBefore n =>
    simp only [Opt.text, readOption, readCreated, minutesAgo, Opt.enter, Decimal.atoi_print_clamp, reads]
  | topicBefore n =>
    simp only [Opt.text, readOption, readTopic, minutesAgo, Opt.enter, Decimal.atoi_print_clamp, reads]
  | topicSince n =>
    simp only [Opt.text, readOption, readTopic, minutesAgo, Opt.enter, Decimal.atoi_print_clamp, reads]
  | mask wild =>
    obtain ⟨marked, -, plain, dash⟩ := wellFormed
    have bang : wild.head? ≠ some '!' := by
      intro head
      exact absurd (plain '!' head) (by decide)
    have other : ∀ c ∈ wild.head?, c ∉ ['<', '>', 'C', 'c', 'T', 't'] := by
      intro c head member
      apply plain c head
      simp only [List.mem_cons, List.not_mem_nil, or_false] at member ⊢
      tauto
    rw [Opt.text, readOption_plain build currenttime locals other dash, readChannel, if_neg bang, if_pos marked]
    rfl
  | notMask wild =>
    rw [Opt.text, readOption_plain build currenttime locals]
    · rfl
    · intro c head
      cases head
      decide
    · intro head
      cases head

theorem text_token (option : Opt) (wellFormed : option.WellFormed build) :
    option.text ≠ [] ∧ ',' ∉ option.text := by
  have number : ∀ n, ',' ∉ print n := by
    intro n member
    rcases Decimal.mem_print member with dash | digit
    · cases dash
    · cases digit
  cases option with
  | mask wild =>
    refine ⟨?_, wellFormed.2.1⟩
    rintro rfl
    exact absurd wellFormed.1 (by decide)
  | notMask wild =>
    have absent : ',' ∉ wild := wellFormed
    simp [Opt.text, absent]
  | _ => simp [Opt.text, number]

@[simp] theorem enter_error (currenttime : Int) (locals : Locals) (option : Opt) :
    (option.enter currenttime locals).error = locals.error := by cases option <;> rfl

theorem enter_doall (currenttime : Int) (locals : Locals) (option : Opt) :
    (option.enter currenttime locals).doall = true := by cases option <;> rfl

@[simp] theorem enter_onlyListed (currenttime : Int) (locals : Locals) (option : Opt) :
    (option.enter currenttime locals).onlyListed = locals.onlyListed := by cases option <;> rfl

theorem readOptions_text (build : Build) (currenttime : Int) (locals : Locals) (clean : locals.error = false)
    (options : List Opt) (wellFormed : ∀ option ∈ options, option.WellFormed build) :
    readOptions build currenttime locals (options.map Opt.text) =
      options.foldl (Opt.enter currenttime) locals := by
  induction options generalizing locals with
  | nil => rfl
  | cons option options ih =>
    rw [List.map_cons, readOptions, if_neg (by simp [clean]),
      readOption_text build currenttime locals option (wellFormed option (List.mem_cons_self ..)), List.foldl_cons]
    exact ih _ (by simp [clean]) fun other member => wellFormed other (List.mem_cons_of_mem _ member)

inductive Kind where
  | more | fewer | createdSince | createdBefore | topicBefore | topicSince | mask | notMask
  deriving DecidableEq

def Opt.kind : Opt → Kind
  | .more _ => .more
  | .fewer _ => .fewer
  | .createdSince _ => .createdSince
  | .createdBefore _ => .createdBefore
  | .topicBefore _ => .topicBefore
  | .topicSince _ => .topicSince
  | .mask _ => .mask
  | .notMask _ => .notMask

def Opt.number : Opt → Int
  | .more n | .fewer n | .createdSince n | .createdBefore n | .topicBefore n | .topicSince n => n
  | _ => 0

/-- The numbers that are given with a kind of option. -/
def numbers (kind : Kind) (options : List Opt) : List Int := (options.filter (·.kind = kind)).map Opt.number

/-- The last of them. -/
def latest (kind : Kind) (options : List Opt) : Option Int := (numbers kind options).getLast?

/-- The bounds in time that are kept for a number, and those without any. -/
def bound (now : Int) (default : Int) (number : Option Int) : Int :=
  number.elim default fun n => now - toInt (60 * reads n)

/-- The numbers of a channel that options are about. What may not be too high is taken with the other sign, so that all
of them are to be high enough. -/
inductive Test where
  | usersLow | usersHigh | createdLow | createdHigh | topicLow | topicHigh | masks | notMasks
  deriving DecidableEq

def Opt.matches (chptr : Room) : Opt → Bool
  | .mask wild | .notMask wild => Mask.matchMask wild chptr.chname
  | _ => false

def Test.value (options : List Opt) (chptr : Room) : Test → Int
  | .usersLow => chptr.users
  | .usersHigh => -chptr.users
  | .createdLow => chptr.channelts
  | .createdHigh => -chptr.channelts
  | .topicLow => chptr.topicTime
  | .topicHigh => -chptr.topicTime
  | .masks => (options.filter (·.kind = .mask)).countP (Opt.matches chptr)
  | .notMasks => -((options.filter (·.kind = .notMask)).countP (Opt.matches chptr) : Int)

/-- How high the number has to be by the usage text. -/
def Test.asked (now : Int) (options : List Opt) : Test → List Int
  | .usersLow => (numbers .more options).map fun n => n + 1
  | .usersHigh => (numbers .fewer options).map fun n => -(n - 1)
  | .createdLow => (numbers .createdSince options).map fun n => now - 60 * n
  | .createdHigh => (numbers .createdSince options).map (fun _ => -now) ++
      (numbers .createdBefore options).map fun n => -(now - 60 * n - 1)
  | .topicLow => (numbers .topicSince options).map fun n => now - 60 * n
  | .topicHigh => (numbers .topicBefore options).map fun n => -(now - 60 * n - 1)
  | .masks => [(options.filter (·.kind = .mask)).length]
  | .notMasks => [0]

/-- How high it has to be in `send_list`: only the last number of a kind counts, one option `T` does what the other is
for, and one mask is enough. -/
def Test.kept (now : Int) (options : List Opt) : Test → List Int
  | .usersLow => [(latest .more options).elim 0 fun n => toInt (reads n + 1) % 65536]
  | .usersHigh => ((latest .fewer options).filter fun n => 0 ≤ toInt (reads n - 1)).toList.map fun n =>
      -toInt (reads n - 1)
  | .createdLow => [bound now 0 (latest .createdSince options)]
  | .createdHigh => [-bound now (now + 86400) (latest .createdBefore options)]
  | .topicLow => [bound now 0 (latest .topicBefore options)]
  | .topicHigh => [-bound now (now + 86400) (latest .topicSince options)]
  | .masks => [min 1 (options.filter (·.kind = .mask)).length]
  | .notMasks => [0]

/-- The channel has less than is asked, but as much as is kept. -/
def Test.LetsIn (now : Int) (options : List Opt) (chptr : Room) (test : Test) : Prop :=
  (∀ least ∈ test.kept now options, least ≤ test.value options chptr) ∧
    ∃ least ∈ test.asked now options, test.value options chptr < least

/-- It has as much as is asked, but less than is kept. -/
def Test.LeavesOut (now : Int) (options : List Opt) (chptr : Room) (test : Test) : Prop :=
  (∃ least ∈ test.kept now options, test.value options chptr < least) ∧
    ∀ least ∈ test.asked now options, least ≤ test.value options chptr

/-- It has less than either. -/
def Test.Refuses (now : Int) (options : List Opt) (chptr : Room) (test : Test) : Prop :=
  (∃ least ∈ test.kept now options, test.value options chptr < least) ∧
    ∃ least ∈ test.asked now options, test.value options chptr < least

theorem foldl_latest (field : Locals → Int) (kind : Kind) (store : Int → Int) (now : Int)
    (entered : ∀ locals option, field (Opt.enter now locals option) =
      if option.kind = kind then store option.number else field locals) (options : List Opt) (locals : Locals) :
    field (options.foldl (Opt.enter now) locals) =
      (latest kind options).elim (field locals) store := by
  induction options generalizing locals with
  | nil => rfl
  | cons option options ih =>
    rw [List.foldl_cons, ih, entered, latest, latest, numbers, numbers]
    by_cases same : option.kind = kind
    · rw [if_pos same, List.filter_cons_of_pos (by simpa using same), List.map_cons, List.getLast?_cons]
      cases ((options.filter (·.kind = kind)).map Opt.number).getLast? <;> rfl
    · rw [if_neg same, List.filter_cons_of_neg (by simpa using same)]

theorem foldl_yeslist (now : Int) (options : List Opt) (locals : Locals) (wild : Text) :
    wild ∈ (options.foldl (Opt.enter now) locals).yeslist ↔
      .mask wild ∈ options ∨ wild ∈ locals.yeslist := by
  induction options generalizing locals with
  | nil => simp
  | cons option options ih =>
    rw [List.foldl_cons, ih]
    cases option <;> simp [Opt.enter, or_assoc, or_left_comm]

theorem foldl_nolist (now : Int) (options : List Opt) (locals : Locals) (wild : Text) :
    wild ∈ (options.foldl (Opt.enter now) locals).nolist ↔
      .notMask wild ∈ options ∨ wild ∈ locals.nolist := by
  induction options generalizing locals with
  | nil => simp
  | cons option options ih =>
    rw [List.foldl_cons, ih]
    cases option <;> simp [Opt.enter, or_assoc, or_left_comm]

theorem foldl_onlyListed (now : Int) (options : List Opt) (locals : Locals) :
    (options.foldl (Opt.enter now) locals).onlyListed = locals.onlyListed := by
  induction options generalizing locals with
  | nil => rfl
  | cons option options ih => rw [List.foldl_cons, ih, enter_onlyListed]

theorem foldl_doall (now : Int) {options : List Opt} (some : options ≠ []) (locals : Locals) :
    (options.foldl (Opt.enter now) locals).doall = true := by
  induction options using List.reverseRecOn with
  | nil => exact absurd rfl some
  | append_singleton options option _ => rw [List.foldl_append, List.foldl_cons, List.foldl_nil, enter_doall]

theorem mList_text (build : Build) (now : Int) {options : List Opt} (some : options ≠ [])
    (wellFormed : ∀ option ∈ options, option.WellFormed build) (accepted : options ≠ [.mask ['?']]) :
    mList build now ([','].intercalate (options.map Opt.text)) =
      Option.some (options.foldl (Opt.enter now) (Locals.start now)).options := by
  have pieces : tokens ',' ([','].intercalate (options.map Opt.text)) = options.map Opt.text := by
    apply Scan.tokens_intercalate
    intro piece member
    obtain ⟨option, inside, rfl⟩ := List.mem_map.mp member
    exact text_token option (wellFormed option inside)
  have other : [','].intercalate (options.map Opt.text) ≠ ['?'] := by
    intro usage
    rw [usage, show tokens ',' ['?'] = [['?']] by decide] at pieces
    obtain ⟨option, rest, rfl⟩ := List.exists_cons_of_ne_nil some
    obtain ⟨text, empty⟩ := List.cons.inj pieces
    rw [List.map_eq_nil_iff.mp empty.symm] at accepted
    cases option with
    | mask wild => exact accepted (by rw [text, Opt.text])
    | _ => simp [Opt.text] at text
  rw [mList, if_neg other, pieces, readOptions_text build now (.start now) rfl options wellFormed]
  exact if_pos (foldl_doall now some _)

theorem findStrLink_iff (lp : List Text) (charptr : Text) :
    findStrLink lp charptr = true ↔ ∃ wild ∈ lp, Mask.matchMask wild charptr = true := List.any_eq_true

theorem conditions (lopt : LOpts) (chptr : Room) :
    lopt.passes chptr = true ↔ lopt.usermin ≤ chptr.users ∧
      (lopt.usermax < 0 ∨ (chptr.users : Int) ≤ lopt.usermax) ∧ lopt.chantimemin ≤ chptr.channelts ∧
      lopt.topictimemin ≤ chptr.topicTime ∧ chptr.channelts ≤ lopt.chantimemax ∧
      chptr.topicTime ≤ lopt.topictimemax ∧ findStrLink lopt.nolist chptr.chname = false ∧
      (lopt.yeslist = [] ∨ findStrLink lopt.yeslist chptr.chname = true) := by
  simp only [LOpts.passes, Bool.not_eq_true', Bool.or_eq_false_iff, Bool.and_eq_false_iff, decide_eq_false_iff_not,
    Int.not_lt, ge_iff_le, gt_iff_lt, Int.not_le, Bool.not_eq_false', List.isEmpty_iff, and_assoc]

/-- The option of a kind with a number. -/
def Kind.opt (n : Int) : Kind → Option Opt
  | .more => some (.more n)
  | .fewer => some (.fewer n)
  | .createdSince => some (.createdSince n)
  | .createdBefore => some (.createdBefore n)
  | .topicBefore => some (.topicBefore n)
  | .topicSince => some (.topicSince n)
  | .mask => none
  | .notMask => none

theorem mem_numbers {options : List Opt} (kind : Kind) (named : kind.opt n = some option) :
    n ∈ numbers kind options ↔ option ∈ options := by
  rw [numbers, List.mem_map]
  constructor
  · rintro ⟨other, member, rfl⟩
    obtain ⟨inside, same⟩ := List.mem_filter.mp member
    obtain rfl := of_decide_eq_true same
    have own : other = option := by
      cases other with
      | mask wild => cases named
      | notMask wild => cases named
      | _ => exact Option.some.inj named
    exact own ▸ inside
  · intro inside
    refine ⟨option, List.mem_filter.mpr ⟨inside, ?_⟩, ?_⟩
    · cases kind with
      | mask => cases named
      | notMask => cases named
      | _ => exact decide_eq_true (Option.some.inj named ▸ rfl)
    · cases kind with
      | mask => cases named
      | notMask => cases named
      | _ => exact Option.some.inj named ▸ rfl

/-- Of the masks that are given, one matches. -/
theorem masks_some (options : List Opt) (chptr : Room) :
    min 1 ((options.filter (·.kind = .mask)).length : Int) ≤ Test.value options chptr .masks ↔
      ((∃ wild, .mask wild ∈ options) → ∃ wild, .mask wild ∈ options ∧ Mask.matchMask wild chptr.chname = true) := by
  have given : 0 < (options.filter (·.kind = .mask)).length ↔ ∃ wild, .mask wild ∈ options := by
    rw [List.length_pos_iff_exists_mem]
    constructor
    · rintro ⟨option, member⟩
      obtain ⟨inside, kind⟩ := List.mem_filter.mp member
      cases option with
      | mask wild => exact ⟨wild, inside⟩
      | _ => cases of_decide_eq_true kind
    · rintro ⟨wild, inside⟩
      exact ⟨_, List.mem_filter.mpr ⟨inside, rfl⟩⟩
  have found : 0 < (options.filter (·.kind = .mask)).countP (Opt.matches chptr) ↔
      ∃ wild, .mask wild ∈ options ∧ Mask.matchMask wild chptr.chname = true := by
    rw [List.countP_pos_iff]
    constructor
    · rintro ⟨option, member, same⟩
      obtain ⟨inside, kind⟩ := List.mem_filter.mp member
      cases option with
      | mask wild => exact ⟨wild, inside, same⟩
      | _ => cases of_decide_eq_true kind
    · rintro ⟨wild, inside, same⟩
      exact ⟨_, List.mem_filter.mpr ⟨inside, rfl⟩, same⟩
  rw [← given, ← found, Test.value]
  omega

/-- No mask matches that is not to. -/
theorem notMasks_none (options : List Opt) (chptr : Room) :
    0 ≤ Test.value options chptr .notMasks ↔
      ∀ wild, .notMask wild ∈ options → Mask.matchMask wild chptr.chname = false := by
  have none : (options.filter (·.kind = .notMask)).countP (Opt.matches chptr) = 0 ↔
      ∀ wild, .notMask wild ∈ options → Mask.matchMask wild chptr.chname = false := by
    rw [List.countP_eq_zero]
    constructor
    · intro all wild inside
      exact Bool.eq_false_iff.mpr (all _ (List.mem_filter.mpr ⟨inside, rfl⟩))
    · intro all option member
      obtain ⟨inside, kind⟩ := List.mem_filter.mp member
      cases option with
      | notMask wild => exact Bool.eq_false_iff.mp (all wild inside)
      | _ => cases of_decide_eq_true kind
  rw [← none, Test.value]
  omega

theorem passes_iff (now : Int) (options : List Opt) (chptr : Room) :
    (options.foldl (Opt.enter now) (Locals.start now)).options.passes chptr = true ↔
      ∀ test : Test, ∀ least ∈ test.kept now options, least ≤ test.value options chptr := by
  generalize final : options.foldl (Opt.enter now) (.start now) = locals
  have usermin : locals.usermin = (latest .more options).elim 0 fun n => toInt (reads n + 1) := by
    rw [← final]
    exact foldl_latest Locals.usermin .more _ now (by rintro locals (_ | _) <;> rfl) options (.start now)
  have usermax : locals.usermax = (latest .fewer options).elim (-1) fun n => toInt (reads n - 1) := by
    rw [← final]
    exact foldl_latest Locals.usermax .fewer _ now (by rintro locals (_ | _) <;> rfl) options (.start now)
  have chantimemin : locals.chantimemin = bound now 0 (latest .createdSince options) := by
    rw [← final]
    exact foldl_latest Locals.chantimemin .createdSince _ now (by rintro locals (_ | _) <;> rfl) options (.start now)
  have chantimemax : locals.chantimemax = bound now (now + 86400) (latest .createdBefore options) := by
    rw [← final]
    exact foldl_latest Locals.chantimemax .createdBefore _ now (by rintro locals (_ | _) <;> rfl) options (.start now)
  have topictimemin : locals.topictimemin = bound now 0 (latest .topicBefore options) := by
    rw [← final]
    exact foldl_latest Locals.topictimemin .topicBefore _ now (by rintro locals (_ | _) <;> rfl) options (.start now)
  have topictimemax : locals.topictimemax = bound now (now + 86400) (latest .topicSince options) := by
    rw [← final]
    exact foldl_latest Locals.topictimemax .topicSince _ now (by rintro locals (_ | _) <;> rfl) options (.start now)
  have yeslist : ∀ wild, wild ∈ locals.yeslist ↔ .mask wild ∈ options := by
    intro wild
    rw [← final, foldl_yeslist]
    simp [Locals.start]
  have nolist : ∀ wild, wild ∈ locals.nolist ↔ .notMask wild ∈ options := by
    intro wild
    rw [← final, foldl_nolist]
    simp [Locals.start]
  have masks : (locals.yeslist = [] ∨ findStrLink locals.yeslist chptr.chname = true) ↔
      ∀ least ∈ Test.kept now options .masks, least ≤ Test.value options chptr .masks := by
    rw [findStrLink_iff, Test.kept, List.forall_mem_singleton, masks_some]
    simp only [← yeslist]
    constructor
    · rintro (empty | found) ⟨wild, member⟩
      · exact absurd member (by simp [empty])
      · exact found
    · intro found
      rcases List.eq_nil_or_concat locals.yeslist with empty | ⟨front, wild, shape⟩
      · exact .inl empty
      · exact .inr (found ⟨wild, by simp [shape]⟩)
  have notMasks : findStrLink locals.nolist chptr.chname = false ↔
      ∀ least ∈ Test.kept now options .notMasks, least ≤ Test.value options chptr .notMasks := by
    rw [Test.kept, List.forall_mem_singleton, notMasks_none]
    simp only [Bool.eq_false_iff, ne_eq, findStrLink_iff, ← nolist, not_exists, not_and]
  have fewer : (locals.usermax < 0 ∨ (chptr.users : Int) ≤ locals.usermax) ↔
      ∀ least ∈ Test.kept now options .usersHigh, least ≤ Test.value options chptr .usersHigh := by
    rw [usermax, Test.kept, Test.value]
    cases latest .fewer options with
    | none => simp
    | some n =>
      by_cases low : 0 ≤ toInt (reads n - 1)
      · simp [Option.filter, low, Int.not_lt.mpr low]
      · simp [Option.filter, low, Int.not_le.mp low]
  have single (test : Test) (least : Int) (kept : test.kept now options = [least]) :
      (∀ other ∈ test.kept now options, other ≤ test.value options chptr) ↔ least ≤ test.value options chptr := by
    rw [kept, List.forall_mem_singleton]
  have narrow : ((latest .more options).elim 0 fun n => toInt (reads n + 1)) % 65536 =
      (latest .more options).elim 0 fun n => toInt (reads n + 1) % 65536 := by
    cases latest .more options <;> rfl
  rw [conditions]
  simp only [Locals.options]
  rw [masks, notMasks, fewer, usermin, chantimemin, chantimemax, topictimemin, topictimemax]
  constructor
  · rintro ⟨more, fewer, createdSince, topicBefore, createdBefore, topicSince, notMask, mask⟩ test
    cases test with
    | usersLow =>
      refine (single _ _ rfl).mpr ?_
      rw [← narrow]
      exact more
    | usersHigh => exact fewer
    | createdLow => exact (single _ _ rfl).mpr createdSince
    | createdHigh => exact (single _ _ rfl).mpr (Int.neg_le_neg createdBefore)
    | topicLow => exact (single _ _ rfl).mpr topicBefore
    | topicHigh => exact (single _ _ rfl).mpr (Int.neg_le_neg topicSince)
    | masks => exact mask
    | notMasks => exact notMask
  · intro kept
    refine ⟨narrow ▸ (single .usersLow _ rfl).mp (kept _), kept .usersHigh,
      (single .createdLow _ rfl).mp (kept _), (single .topicLow _ rfl).mp (kept _),
      Int.le_of_neg_le_neg ((single .createdHigh _ rfl).mp (kept _)),
      Int.le_of_neg_le_neg ((single .topicHigh _ rfl).mp (kept _)), kept .notMasks, kept .masks⟩

/-- What the usage text asks of a channel. -/
theorem means_iff (now : Int) (options : List Opt) (chptr : Room) :
    (∀ option ∈ options, option.means now chptr) ↔
      ∀ test : Test, ∀ least ∈ test.asked now options, least ≤ test.value options chptr := by
  constructor
  · intro means test least member
    cases test with
    | usersLow =>
      obtain ⟨n, given, rfl⟩ := List.mem_map.mp member
      exact means _ ((mem_numbers .more rfl).mp given)
    | usersHigh =>
      obtain ⟨n, given, rfl⟩ := List.mem_map.mp member
      exact Int.neg_le_neg (Int.le_sub_one_of_lt (means _ ((mem_numbers .fewer rfl).mp given)))
    | createdLow =>
      obtain ⟨n, given, rfl⟩ := List.mem_map.mp member
      exact (means _ ((mem_numbers .createdSince rfl).mp given)).1
    | createdHigh =>
      rcases List.mem_append.mp member with since | before
      · obtain ⟨n, given, rfl⟩ := List.mem_map.mp since
        exact Int.neg_le_neg (means _ ((mem_numbers .createdSince rfl).mp given)).2
      · obtain ⟨n, given, rfl⟩ := List.mem_map.mp before
        exact Int.neg_le_neg (Int.le_sub_one_of_lt (means _ ((mem_numbers .createdBefore rfl).mp given)))
    | topicLow =>
      obtain ⟨n, given, rfl⟩ := List.mem_map.mp member
      exact means _ ((mem_numbers .topicSince rfl).mp given)
    | topicHigh =>
      obtain ⟨n, given, rfl⟩ := List.mem_map.mp member
      exact Int.neg_le_neg (Int.le_sub_one_of_lt (means _ ((mem_numbers .topicBefore rfl).mp given)))
    | masks =>
      obtain rfl := List.mem_singleton.mp member
      have all : (options.filter (·.kind = .mask)).countP (Opt.matches chptr) =
          (options.filter (·.kind = .mask)).length := by
        refine List.countP_eq_length.mpr fun option chosen => ?_
        obtain ⟨inside, kind⟩ := List.mem_filter.mp chosen
        cases option with
        | mask wild => exact means _ inside
        | _ => cases of_decide_eq_true kind
      exact Int.le_of_eq (by rw [Test.value, all])
    | notMasks =>
      obtain rfl := List.mem_singleton.mp member
      exact (notMasks_none options chptr).mpr fun wild inside => means _ inside
  · intro asked option inside
    cases option with
    | more n => exact asked .usersLow _ (List.mem_map_of_mem ((mem_numbers .more rfl).mpr inside))
    | fewer n =>
      have least := asked .usersHigh _ (List.mem_map_of_mem ((mem_numbers .fewer rfl).mpr inside))
      exact Int.lt_of_le_sub_one (Int.le_of_neg_le_neg least)
    | createdSince n =>
      have since := (mem_numbers .createdSince rfl).mpr inside
      refine ⟨asked .createdLow _ (List.mem_map_of_mem since), ?_⟩
      have least := asked .createdHigh (-now) (List.mem_append_left _ (List.mem_map.mpr ⟨n, since, rfl⟩))
      exact Int.le_of_neg_le_neg least
    | createdBefore n =>
      have least := asked .createdHigh _ (List.mem_append_right _
        (List.mem_map_of_mem ((mem_numbers .createdBefore rfl).mpr inside)))
      exact Int.lt_of_le_sub_one (Int.le_of_neg_le_neg least)
    | topicBefore n =>
      have least := asked .topicHigh _ (List.mem_map_of_mem ((mem_numbers .topicBefore rfl).mpr inside))
      exact Int.lt_of_le_sub_one (Int.le_of_neg_le_neg least)
    | topicSince n => exact asked .topicLow _ (List.mem_map_of_mem ((mem_numbers .topicSince rfl).mpr inside))
    | mask wild =>
      have least := asked .masks _ (List.mem_singleton_self _)
      have all : (options.filter (·.kind = .mask)).countP (Opt.matches chptr) =
          (options.filter (·.kind = .mask)).length :=
        Nat.le_antisymm List.countP_le_length (Int.ofNat_le.mp least)
      exact List.countP_eq_length.mp all _ (List.mem_filter.mpr ⟨inside, rfl⟩)
    | notMask wild =>
      exact (notMasks_none options chptr).mp (asked .notMasks 0 (List.mem_singleton_self _)) wild inside

/-- An `int` holds the number. -/
def Fits (n : Int) : Prop := -Decimal.intMax - 1 ≤ n ∧ n ≤ Decimal.intMax

private theorem toInt_self (small : Fits value) : toInt value = value := by
  unfold Fits Decimal.intMax at small
  apply Int.bmod_eq_of_le_mul_two <;> omega

theorem reads_self (small : Fits n) : reads n = n := by
  have wide : -Decimal.longMax - 1 ≤ n ∧ n ≤ Decimal.longMax := by
    unfold Fits Decimal.intMax at small
    unfold Decimal.longMax
    omega
  rw [reads, Decimal.clamp_self wide.1 wide.2, toInt_self small]

theorem minutes_self (small : Fits (60 * n)) : toInt (60 * reads n) = 60 * n := by
  have smaller : Fits n := by
    unfold Fits Decimal.intMax at small ⊢
    omega
  rw [reads_self smaller, toInt_self small]

variable {options : List Opt}

theorem latest_once (once : numbers kind options = [n]) : latest kind options = some n := by
  rw [latest, once]
  rfl

theorem latest_none (absent : numbers kind options = []) : latest kind options = none := by
  rw [latest, absent]
  rfl

/-- Where channels have to be listed by their mode, this one is not. -/
def Room.unlisted (build : Build) (chptr : Room) : Bool := build.chanmodeL && !chptr.listed

theorem shows_iff (build : Build) (admin : Bool) (now : Int) (chptr : Room) (visible : chptr.hidden admin = false) :
    (options.foldl (Opt.enter now) (Locals.start now)).options.shows build admin chptr = true ↔
      chptr.unlisted build = false ∧ ∀ test : Test, ∀ least ∈ test.kept now options,
        least ≤ test.value options chptr := by
  have only : (options.foldl (Opt.enter now) (Locals.start now)).options.onlyListed = true :=
    foldl_onlyListed now options _
  have filtered : (options.foldl (Opt.enter now) (Locals.start now)).options.showall = false := rfl
  rw [← passes_iff, LOpts.shows, visible, only, filtered, Bool.and_true, Bool.false_or, Bool.and_eq_true,
    Bool.and_eq_true, Bool.not_eq_true', Bool.not_eq_true']
  exact and_congr_left fun _ => and_iff_right rfl

/-- Options and a channel that the usage text and the code agree about: no option is given twice and none about topics,
the numbers fit where they are kept, and neither the channel nor its topic is of the future. -/
structure Plain (build : Build) (now : Int) (options : List Opt) (chptr : Room) : Prop where
  listed : chptr.unlisted build = false
  once : ∀ kind, kind ≠ .notMask → (options.filter (·.kind = kind)).length ≤ 1
  more : ∀ n ∈ numbers .more options, -1 ≤ n ∧ n < 65535
  fewer : ∀ n ∈ numbers .fewer options, 1 ≤ n ∧ n ≤ Decimal.intMax
  since : ∀ n ∈ numbers .createdSince options, Fits (60 * n)
  before : ∀ n ∈ numbers .createdBefore options, Fits (60 * n) ∧ chptr.channelts ≠ now - 60 * n
  noTopic : numbers .topicBefore options = [] ∧ numbers .topicSince options = []
  created : 0 ≤ chptr.channelts ∧ chptr.channelts ≤ now
  topic : 0 ≤ chptr.topicTime ∧ chptr.topicTime ≤ now + 86400

/-- A number that is given once at most. -/
theorem Plain.single (plain : Plain build now options chptr) (kind : Kind) (other : kind ≠ .notMask) :
    numbers kind options = [] ∨ ∃ n, numbers kind options = [n] := by
  have short : (numbers kind options).length ≤ 1 := by
    rw [numbers, List.length_map]
    exact plain.once kind other
  rw [← List.length_eq_zero_iff, ← List.length_eq_one_iff]
  omega

theorem Plain.agrees (plain : Plain build now options chptr) (test : Test) :
    ¬ test.LetsIn now options chptr ∧ ¬ test.LeavesOut now options chptr := by
  suffices same : (∀ least ∈ test.kept now options, least ≤ test.value options chptr) ↔
      ∀ least ∈ test.asked now options, least ≤ test.value options chptr by
    constructor
    · rintro ⟨kept, least, member, short⟩
      exact Int.not_le.mpr short (same.mp kept least member)
    · rintro ⟨⟨least, member, short⟩, asked⟩
      exact Int.not_le.mpr short (same.mpr asked least member)
  obtain ⟨old, new⟩ := plain.created
  cases test with
  | usersLow =>
    rcases plain.single .more (by decide) with absent | ⟨n, once⟩
    · simp [Test.kept, Test.asked, Test.value, latest_none absent, absent]
    · obtain ⟨low, high⟩ := plain.more n (by simp [once])
      have least : toInt (reads n + 1) % 65536 = n + 1 := by
        rw [reads_self (by unfold Fits Decimal.intMax; omega), toInt_self (by unfold Fits Decimal.intMax; omega)]
        omega
      simp [Test.kept, Test.asked, latest_once once, once, least]
  | usersHigh =>
    rcases plain.single .fewer (by decide) with absent | ⟨n, once⟩
    · simp [Test.kept, Test.asked, latest_none absent, absent]
    · obtain ⟨low, high⟩ := plain.fewer n (by simp [once])
      unfold Decimal.intMax at high
      have most : toInt (reads n - 1) = n - 1 := by
        rw [reads_self (by unfold Fits Decimal.intMax; omega), toInt_self (by unfold Fits Decimal.intMax; omega)]
      have kept : 0 ≤ n - 1 := by omega
      simp only [Test.kept, Test.asked, latest_once once, once, Option.filter, most, kept, decide_true, if_true,
        Option.toList_some, List.map_cons, List.map_nil]
  | createdLow =>
    rcases plain.single .createdSince (by decide) with absent | ⟨n, once⟩
    · simp [Test.kept, Test.asked, Test.value, latest_none absent, absent, bound, old]
    · simp [Test.kept, Test.asked, latest_once once, once, bound, minutes_self (plain.since n (by simp [once]))]
  | createdHigh =>
    have future : ∀ least ∈ (numbers .createdSince options).map (fun _ => -now), least ≤ -chptr.channelts := by
      intro least member
      obtain ⟨n, -, rfl⟩ := List.mem_map.mp member
      omega
    rcases plain.single .createdBefore (by decide) with absent | ⟨n, once⟩
    · have day : chptr.channelts ≤ now + 86400 := by omega
      simp [Test.kept, Test.asked, Test.value, latest_none absent, absent, bound, day, new]
    · obtain ⟨small, other⟩ := plain.before n (by simp [once])
      simp only [Test.kept, Test.asked, Test.value, latest_once once, once, bound, Option.elim_some, minutes_self small,
        List.forall_mem_singleton, List.forall_mem_append, List.map_cons, List.map_nil]
      constructor
      · intro kept
        exact ⟨future, by omega⟩
      · rintro ⟨-, asked⟩
        omega
  | topicLow =>
    simp [Test.kept, Test.asked, Test.value, latest_none plain.noTopic.1, plain.noTopic.2, bound, plain.topic.1]
  | topicHigh =>
    simp [Test.kept, Test.asked, Test.value, latest_none plain.noTopic.2, plain.noTopic.1, bound, plain.topic.2]
  | masks =>
    have short := plain.once .mask (by decide)
    simp only [Test.kept, Test.asked, List.forall_mem_singleton]
    omega
  | notMasks => exact Iff.rfl

/-- `T>` keeps what it is said to leave out, and leaves out the others. -/
theorem topic_swapped (once : numbers .topicBefore options = [n]) (absent : numbers .topicSince options = [])
    (small : Fits (60 * n)) (known : chptr.topicTime ≤ now + 86400) :
    (chptr.topicTime < now - 60 * n → Test.LeavesOut now options chptr .topicLow) ∧
      (now - 60 * n ≤ chptr.topicTime → Test.LetsIn now options chptr .topicHigh) := by
  constructor
  · intro older
    refine ⟨⟨_, List.mem_singleton_self _, ?_⟩, by simp [Test.asked, absent]⟩
    rwa [latest_once once, bound, Option.elim_some, minutes_self small]
  · intro newer
    refine ⟨?_, -(now - 60 * n - 1), by simp [Test.asked, once], ?_⟩
    · simpa [Test.kept, Test.value, latest_none absent, bound] using known
    · simp only [Test.value]
      omega

/-- Two readings give the same when each test comes out alike, or one fails in both, or each of them fails somewhere. -/
theorem agree_iff {ι : Type} {unlisted : Prop} {kept asked : ι → Prop} :
    ((¬ unlisted ∧ ∀ i, kept i) ↔ ∀ i, asked i) ↔
      (¬ unlisted ∧ ∀ i, ¬ (kept i ∧ ¬ asked i) ∧ ¬ (¬ kept i ∧ asked i)) ∨ (∃ i, ¬ kept i ∧ ¬ asked i) ∨
        (unlisted ∨ ∃ i, ¬ kept i ∧ asked i) ∧ ∃ i, kept i ∧ ¬ asked i := by
  constructor
  · intro same
    by_cases asks : ∀ i, asked i
    · obtain ⟨shown, keeps⟩ := same.mpr asks
      exact .inl ⟨shown, fun i => ⟨fun slip => slip.2 (asks i), fun slip => slip.1 (keeps i)⟩⟩
    · obtain ⟨i, missed⟩ := not_forall.mp asks
      by_cases keeps : kept i
      · refine .inr ?_
        by_cases shown : unlisted
        · exact .inr ⟨.inl shown, i, keeps, missed⟩
        · obtain ⟨k, refused⟩ := not_forall.mp fun all => asks (same.mp ⟨shown, all⟩)
          by_cases asks' : asked k
          · exact .inr ⟨.inr ⟨k, refused, asks'⟩, i, keeps, missed⟩
          · exact .inl ⟨k, refused, asks'⟩
      · exact .inr (.inl ⟨i, keeps, missed⟩)
  · rintro (⟨shown, alike⟩ | ⟨i, refused, missed⟩ | ⟨out, i, -, missed⟩)
    · refine (and_iff_right shown).trans (forall_congr' fun i => ?_)
      exact ⟨fun keeps => not_not.mp fun missed => (alike i).1 ⟨keeps, missed⟩,
        fun asks => not_not.mp fun refused => (alike i).2 ⟨refused, asks⟩⟩
    · exact ⟨fun shown => absurd (shown.2 i) refused, fun asks => absurd (asks i) missed⟩
    · refine ⟨fun shown => ?_, fun asks => absurd (asks i) missed⟩
      rcases out with unlisted | ⟨k, refused, -⟩
      · exact absurd unlisted shown.1
      · exact absurd (shown.2 k) refused

/-- LIST gives what its usage text says exactly when no number of the channel lies between what is asked and what is
kept, or one of them is below both, or the channel is let in for one and left out for another. So it is for options and
channels that are plain. -/
theorem list_filters (options : List Opt) (build : Build) (admin : Bool) (now : Int) (chptr : Room)
    (visible : chptr.hidden admin = false) (some : options ≠ [])
    (wellFormed : ∀ option ∈ options, option.WellFormed build) (accepted : options ≠ [.mask ['?']]) :
    ∃ lopt, mList build now ([','].intercalate (options.map Opt.text)) = Option.some lopt ∧
      ((lopt.shows build admin chptr = true ↔ ∀ option ∈ options, option.means now chptr) ↔
        (¬ chptr.unlisted build = true ∧
          ∀ test : Test, ¬ test.LetsIn now options chptr ∧ ¬ test.LeavesOut now options chptr) ∨
        (∃ test : Test, test.Refuses now options chptr) ∨
        (chptr.unlisted build = true ∨ ∃ test : Test, test.LeavesOut now options chptr) ∧
          ∃ test : Test, test.LetsIn now options chptr) ∧
      (Plain build now options chptr →
        (lopt.shows build admin chptr = true ↔ ∀ option ∈ options, option.means now chptr)) := by
  have exactly : ((options.foldl (Opt.enter now) (Locals.start now)).options.shows build admin chptr = true ↔
      ∀ option ∈ options, option.means now chptr) ↔
        (¬ chptr.unlisted build = true ∧
          ∀ test : Test, ¬ test.LetsIn now options chptr ∧ ¬ test.LeavesOut now options chptr) ∨
        (∃ test : Test, test.Refuses now options chptr) ∨
        (chptr.unlisted build = true ∨ ∃ test : Test, test.LeavesOut now options chptr) ∧
          ∃ test : Test, test.LetsIn now options chptr := by
    have letsIn (test : Test) : test.LetsIn now options chptr ↔
        (∀ least ∈ test.kept now options, least ≤ test.value options chptr) ∧
          ¬ ∀ least ∈ test.asked now options, least ≤ test.value options chptr := by
      simp [Test.LetsIn]
    have leavesOut (test : Test) : test.LeavesOut now options chptr ↔
        (¬ ∀ least ∈ test.kept now options, least ≤ test.value options chptr) ∧
          ∀ least ∈ test.asked now options, least ≤ test.value options chptr := by
      simp [Test.LeavesOut]
    have refuses (test : Test) : test.Refuses now options chptr ↔
        (¬ ∀ least ∈ test.kept now options, least ≤ test.value options chptr) ∧
          ¬ ∀ least ∈ test.asked now options, least ≤ test.value options chptr := by
      simp [Test.Refuses]
    rw [shows_iff build admin now chptr visible, means_iff, ← Bool.not_eq_true]
    simp only [letsIn, leavesOut, refuses]
    exact agree_iff
  refine ⟨_, mList_text build now some wellFormed accepted, exactly, fun plain => exactly.mpr (.inl ⟨?_, plain.agrees⟩)⟩
  rw [Bool.not_eq_true]
  exact plain.listed

/-- A channel whose topic is two hours old. -/
private def quiet : Room := ⟨0, "#quiet".toList, 5, 900000, 992800, false, true, false⟩

theorem list_filters_quiet : ∃ lopt, mList ⟨false, false, false⟩ 1000000 ">3,C<60".toList = some lopt ∧
    (lopt.shows ⟨false, false, false⟩ false quiet = true ↔
      ∀ option ∈ [Opt.more 3, .createdBefore 60], option.means 1000000 quiet) := by
  have wellFormed : ∀ option ∈ [Opt.more 3, .createdBefore 60], option.WellFormed ⟨false, false, false⟩ := by
    intro option member
    rcases List.mem_pair.mp member with rfl | rfl <;> trivial
  obtain ⟨lopt, given, -, plain⟩ := list_filters [.more 3, .createdBefore 60] ⟨false, false, false⟩ false 1000000 quiet
    rfl (List.cons_ne_nil _ _) wellFormed (by decide)
  refine ⟨lopt, given, plain ⟨rfl, ?_, ?_, ?_, ?_, ?_, ⟨rfl, rfl⟩, by decide, by decide⟩⟩
  · intro kind _
    cases kind <;> decide
  · decide
  · decide
  · nofun
  · intro n member
    obtain rfl := List.mem_singleton.mp member
    unfold Fits
    decide

/-- It is older than an hour, and `T>60` leaves it out. -/
theorem old_topic_left_out : ∃ lopt, mList ⟨false, false, false⟩ 1000000 "T>60".toList = some lopt ∧
    quiet.hidden false = false ∧ ¬ (lopt.shows ⟨false, false, false⟩ false quiet = true ↔
      ∀ option ∈ [Opt.topicBefore 60], option.means 1000000 quiet) := by
  have wellFormed : ∀ option ∈ [Opt.topicBefore 60], option.WellFormed ⟨false, false, false⟩ := by
    intro option member
    rw [List.mem_singleton.mp member]
    trivial
  refine ⟨_, mList_text ⟨false, false, false⟩ 1000000 (List.cons_ne_nil _ _) wellFormed (by decide), rfl, ?_⟩
  rw [shows_iff _ _ _ _ rfl]
  intro same
  have means : ∀ option ∈ [Opt.topicBefore 60], option.means 1000000 quiet := by
    intro option member
    rw [List.mem_singleton.mp member, Opt.means]
    decide
  have once : numbers .topicBefore [.topicBefore 60] = [60] := rfl
  have older : Test.LeavesOut 1000000 [.topicBefore 60] quiet .topicLow :=
    (topic_swapped once rfl (by unfold Fits; decide) (by decide)).1 (by decide)
  obtain ⟨⟨least, kept, short⟩, -⟩ := older
  exact Int.not_le.mpr short ((same.mpr means).2 .topicLow least kept)

end SolidIrcd.Channel.Listing
