import SolidIrcd.Channel.MaskMatch
import SolidIrcd.Who.WhoOptions

/-! What a WHO asks for, by the help text: each flag is set to a positive or a negative check.
The options that `build_searchopts` fills hold the last one of each flag, and all the modes. -/

namespace SolidIrcd.Who

open Scan (Text)
open Mask (matchMask)
open Umode (UModes)
open UserBan (Address)
open Rwho (wholeNumber bind_ok)

/-- A condition of the help text, with its sign. -/
inductive Check where
  | away (plus : Bool)
  | channel (chptr : Channel) (flags : Flags)
  | gcos (plus : Bool) (mask : Text)
  | host (plus : Bool) (mask : Text)
  | ip (plus : Bool) (mask : Text)
  /-- A mask, and the address under it. -/
  | cidr (plus : Bool) (mask address : Address)
  | modes (plus : Bool) (umodes : UModes)
  /-- Modes of which some return no result to users, beside those that do. -/
  | noResult (plus : Bool) (umodes : UModes)
  | nick (plus : Bool) (mask : Text)
  | server (server : Nat)
  | ts (plus : Bool) (seconds : Int)
  | user (plus : Bool) (mask : Text)
  | type (plus : Bool) (type : Nat)

/-- The letters that give users a result. -/
def resultLetters : Text := "oOaA".toList

/-- What a flag asks for, by the help text. -/
def Check.given (env : Env) (oper plus : Bool) (c : Char) (arg : Text) : List Check :=
  match c with
  | 'a' => [.away plus]
  | 'c' => ((env.findChannel (channelFlags arg).2).map (.channel · (channelFlags arg).1)).toList
  | 'g' => [.gcos plus arg]
  | 'h' => [.host plus arg]
  | 't' => ((wholeNumber arg).map (.ts plus)).toList
  | 'T' => ((wholeNumber arg).map fun rval => .type plus (rval % 4294967296).toNat).toList
  | 'i' =>
    match Mask.splitFirst '/' arg with
    | some (address, cpos) => ((network address cpos).map fun (mask, network) => .cidr plus mask network).toList
    | none => [.ip plus arg]
  | 'm' =>
    -- "only usermodes o/O/a/A will return a result"
    if !oper && arg.any (· ∉ resultLetters) then [.noResult plus (namedModes env.build arg ∩ searchable)]
    else [.modes plus (namedModes env.build arg)]
  | 'n' => [.nick plus arg]
  | 's' => ((env.findServer arg).map .server).toList
  | 'u' => [.user plus arg]
  | _ => []

/-- An address or a nick, as a parameter of its own names it. -/
def Check.hostOrNick (arg : Text) : Check := if '.' ∈ arg then .host true arg else .nick true arg

/-- The conditions in turn, and what is kept of them: the last one of each flag. -/
structure Request where
  checks : List Check := []
  away : Option Bool := none
  channel : Option (Channel × Flags) := none
  gcos : Option (Bool × Text) := none
  host : Option (Bool × Text) := none
  ip : Option (Bool × Text) := none
  /-- A mask, and the address under it. -/
  cidr : Option (Bool × Address × Address) := none
  /-- The modes of every flag m. -/
  modes : Bool × UModes := (false, ∅)
  nick : Option (Bool × Text) := none
  server : Option Nat := none
  ts : Option (Bool × Int) := none
  user : Option (Bool × Text) := none
  type : Option (Bool × Nat) := none
  /-- M: only users in channels of the one who asks. -/
  shared : Bool := false
  /-- C: with the first channel of each user. -/
  channelShown : Bool := false

/-- The flags that have an argument. -/
def takesArg (c : Char) : Bool := c ∈ "cghtTimnsu".toList

/-- One more condition, which takes the place of the one of the same flag. The modes add up. -/
def Request.keep (request : Request) (check : Check) : Request :=
  let request := { request with checks := request.checks ++ [check] }
  match check with
  | .away plus => { request with away := some plus }
  | .channel chptr flags => { request with channel := some (chptr, flags) }
  | .gcos plus mask => { request with gcos := some (plus, mask) }
  | .host plus mask => { request with host := some (plus, mask) }
  | .ip plus mask => { request with ip := some (plus, mask) }
  | .cidr plus mask address => { request with cidr := some (plus, mask, address) }
  | .modes plus umodes | .noResult plus umodes => { request with modes := (plus, request.modes.2 ∪ umodes) }
  | .nick plus mask => { request with nick := some (plus, mask) }
  | .server server => { request with server := some server }
  | .ts plus seconds => { request with ts := some (plus, seconds) }
  | .user plus mask => { request with user := some (plus, mask) }
  | .type plus servicetype => { request with type := some (plus, servicetype) }

/-- One flag. -/
def Request.put (env : Env) (oper : Bool) (request : Request) (plus : Bool) (c : Char) (arg : Text) : Request :=
  match c with
  | 'C' => { request with channelShown := plus }
  | 'M' => { request with shared := plus }
  | _ => (Check.given env oper plus c arg).foldl Request.keep request

/-- The flags in turn, with the parameters that are left. -/
def Request.read (env : Env) (oper : Bool) (request : Request) (plus : Bool) (args : List Text) : Text → Request × List Text
  | [] => (request, args)
  | '+' :: flags => request.read env oper true args flags
  | '-' :: flags => request.read env oper false args flags
  | c :: flags =>
    if takesArg c then (request.put env oper plus c (args.headD [])).read env oper plus args.tail flags
    else (request.put env oper plus c []).read env oper plus args flags

/-- A parameter of its own names an address or a nick. -/
def Request.hostOrNick (request : Request) (arg : Text) : Request := request.keep (Check.hostOrNick arg)

def positive (check : Option (Bool × α)) : Bool := check.any (·.1)

/-- What makes M or C useful. -/
def Request.useful (request : Request) : Bool :=
  request.away.isSome || positive request.gcos || positive request.host || decide (request.modes.2 ≠ ∅) ||
    request.server.isSome || positive request.nick || positive request.user || request.ts.isSome ||
    positive request.type || positive request.ip

/-- What the parameters of WHO ask for. -/
def request (env : Env) (oper : Bool) : List Text → Request
  | [] => {}
  | first :: args =>
    if first = ['0'] then
      let everybody := ({} : Request).keep (.host true ['*'])
      if args.head?.any (·.head? == some 'o') then everybody.keep (.modes true {.o}) else everybody
    else if first.head? ≠ some '+' ∧ first.head? ≠ some '-' then
      if isChannelName first then
        match env.findChannel first with
        | none => {}
        | some chptr => ({} : Request).keep (.channel chptr ⟨false, false⟩)
      else ({} : Request).hostOrNick first
    else
      let (request, args) := ({} : Request).read env oper true args first
      if request.useful || !request.shared &&
        (!request.channelShown || request.channel.isSome || request.cidr.isSome) then request
      else request.hostOrNick (args.headD [])

/-- A check, and the field for its sign beside the one for its value. -/
structure Shown (check : Option (Bool × α)) (plus : Bool) (value : Option α) : Prop where
  same : check = value.map (plus, ·)
  given : plus = true → value.isSome

/-- The options hold the checks of the request. -/
structure SOpts.Shows (wsopts : SOpts) (oper : Bool) (request : Request) : Prop where
  away : request.away = if wsopts.checkAway then some wsopts.awayPlus else none
  channel : request.channel = wsopts.channel.map (·, wsopts.channelflags)
  gcos : Shown request.gcos wsopts.gcosPlus wsopts.gcos
  host : Shown request.host wsopts.hostPlus wsopts.host
  ip : Shown request.ip wsopts.ipPlus wsopts.ip
  cidr : Shown request.cidr wsopts.cidr4Plus (if wsopts.cidr4Mask = 0 then none else some (wsopts.cidr4Mask, wsopts.cidr4Ip))
  modes : request.modes = (wsopts.umodePlus, wsopts.umodes)
  checkUmode : wsopts.checkUmode = decide (wsopts.umodes ≠ ∅)
  allowed : oper = false → wsopts.umodes ⊆ searchable
  nick : Shown request.nick wsopts.nickPlus wsopts.nick
  server : request.server = wsopts.server
  servPlus : wsopts.servPlus = wsopts.server.isSome
  ts : request.ts = if wsopts.tsValue = 0 then none else some (decide (wsopts.tsValue = 2), wsopts.ts)
  tsValue : wsopts.tsValue ≤ 2
  user : Shown request.user wsopts.userPlus wsopts.user
  type : Shown request.type wsopts.clientTypePlus (if wsopts.clientType = 0 then none else some wsopts.clientType)
  shared : request.shared = wsopts.searchChan
  channelShown : request.channelShown = wsopts.showChan

/-- While the flags are read, a channel comes with its sign. -/
structure SOpts.Parses (wsopts : SOpts) (oper : Bool) (request : Request) : Prop extends wsopts.Shows oper request where
  chanPlus : wsopts.chanPlus = wsopts.channel.isSome

namespace Shown

theorem none : Shown (.none : Option (Bool × α)) false .none := ⟨rfl, by simp⟩

theorem set (plus : Bool) (value : α) : Shown (some (plus, value)) plus (some value) := ⟨rfl, fun _ => rfl⟩

theorem positive_eq {check : Option (Bool × α)} (shown : Shown check plus value) : positive check = plus := by
  rw [positive, shown.same]
  cases value with
  | none =>
    cases plus with
    | false => rfl
    | true => simpa using shown.given rfl
  | some value => rfl

theorem isSome_eq {check : Option (Bool × α)} (shown : Shown check plus value) : check.isSome = value.isSome := by
  rw [shown.same, Option.isSome_map]

end Shown

theorem SOpts.Parses.empty (oper : Bool) : ({} : SOpts).Parses oper {} where
  away := rfl
  channel := rfl
  gcos := .none
  host := .none
  ip := .none
  cidr := .none
  modes := rfl
  checkUmode := rfl
  allowed _ := Finset.empty_subset _
  nick := .none
  server := rfl
  servPlus := rfl
  ts := rfl
  tsValue := Nat.zero_le 2
  user := .none
  type := .none
  shared := rfl
  channelShown := rfl
  chanPlus := rfl

variable {env : Env} {oper : Bool} {parser after : Parser} {arg : Text} {rest : List Text} {c : Char}

theorem take_ok (taken : parser.take = .ok (arg, rest)) : parser.args = arg :: rest := by
  unfold Parser.take at taken
  split at taken
  next => cases taken
  next here =>
    obtain ⟨rfl, rfl⟩ := Prod.mk.inj (Except.ok.inj taken)
    exact here

theorem number_ok {rval : Int} (done : parser.number = .ok (rval, rest)) :
    ∃ arg, parser.args = arg :: rest ∧ wholeNumber arg = some rval ∧ rval ≠ 0 := by
  obtain ⟨⟨arg, rest⟩, took, done⟩ := bind_ok done
  dsimp only at done
  split at done
  next => cases done
  next number =>
    obtain ⟨rfl, rfl⟩ := Prod.mk.inj (Except.ok.inj done)
    obtain ⟨whole, some'⟩ := Option.filter_eq_some_iff.mp number
    exact ⟨arg, take_ok took, whole, by simpa using some'⟩

/-- What one flag does to the parser. -/
structure Sets (env : Env) (oper : Bool) (parser : Parser) (c : Char) (after : Parser) : Prop where
  change : after.change = parser.change
  args : after.args = if takesArg c then parser.args.tail else parser.args
  shows : ∀ request, parser.wsopts.Parses oper request →
    after.wsopts.Parses oper (request.put env oper parser.change c (if takesArg c then parser.args.headD [] else []))

theorem put_given {request : Request} {plus : Bool} {check : Check} (takes : takesArg c = true)
    (given : Check.given env oper plus c arg = [check]) : request.put env oper plus c arg = request.keep check := by
  have shown : c ≠ 'C' := by
    rintro rfl
    cases takes
  have shared : c ≠ 'M' := by
    rintro rfl
    cases takes
  rw [Request.put, given]
  · rfl
  · exact shown
  · exact shared

/-- A flag that takes a parameter. -/
theorem Sets.of_take {check : Check} (takes : takesArg c = true) (here : parser.args = arg :: rest)
    (given : Check.given env oper parser.change c arg = [check])
    (shows : ∀ request, parser.wsopts.Parses oper request → wsopts.Parses oper (request.keep check)) :
    Sets env oper parser c { parser with wsopts := wsopts, args := rest } where
  change := rfl
  args := by rw [takes, if_pos rfl, here, List.tail_cons]
  shows request := by
    rw [takes, if_pos rfl, here, List.headD_cons, put_given takes given]
    exact shows request

theorem cidrToNetmask_ne_zero (lower : 1 ≤ cidr) (upper : cidr ≤ 32) : UserBan.cidrToNetmask cidr ≠ 0 := by
  have every : ∀ cidr : Fin 33, cidr ≠ 0 → UserBan.cidrToNetmask cidr ≠ 0 := by decide
  exact every ⟨cidr, by omega⟩ (by simp [Fin.ext_iff]; omega)

theorem network_ne_zero (found : network address cpos = some (mask, ip)) : mask ≠ 0 := by
  simp only [network] at found
  split at found
  next => cases found
  next fine =>
    obtain ⟨rfl, -⟩ := Prod.mk.inj (Option.some.inj found)
    exact cidrToNetmask_ne_zero (by omega) (by omega)

/-- A number that is not zero in an `int` is none as an `unsigned int`. -/
theorem unsigned_ne_zero {rval : Int} (whole : wholeNumber arg = some rval) (some' : rval ≠ 0) :
    (rval % 4294967296).toNat ≠ 0 := by
  have range : ∃ value : Int, rval = value.bmod 4294967296 := by
    unfold wholeNumber at whole
    split at whole
    next value _ => exact ⟨value, (Option.some.inj whole).symm⟩
    next => cases whole
  obtain ⟨value, rfl⟩ := range
  have lower := Int.le_bmod (x := value) (m := 4294967296) (by omega)
  have upper := Int.bmod_lt (x := value) (m := 4294967296) (by omega)
  omega

/-- The letters that give users a result name no other modes. -/
theorem namedModes_searchable {build : Build} (letters : arg.any (· ∉ resultLetters) = false) :
    namedModes build arg ⊆ searchable := by
  intro mode named
  obtain ⟨letter, member, found⟩ := List.mem_filterMap.mp (List.mem_toFinset.mp named)
  have result : letter ∈ resultLetters := by simpa using List.any_eq_false.mp letters letter member
  have same : mode.letter = letter := by simpa using List.find?_some found
  subst same
  revert result
  cases mode <;> decide

/-- The modes that a flag m adds. -/
theorem modes_given (env : Env) (oper plus : Bool) (arg : Text) : ∃ check asked,
    Check.given env oper plus 'm' arg = [check] ∧
      (∀ request, Request.keep request check =
        { request with checks := request.checks ++ [check], modes := (plus, request.modes.2 ∪ asked) }) ∧
      asked = if oper then namedModes env.build arg else namedModes env.build arg ∩ searchable := by
  simp only [Check.given]
  split
  next other =>
    refine ⟨_, _, rfl, fun _ => rfl, ?_⟩
    cases oper with
    | true => simp at other
    | false => rfl
  next result =>
    refine ⟨_, _, rfl, fun _ => rfl, ?_⟩
    cases oper with
    | true => rfl
    | false => exact (Finset.inter_eq_left.mpr (namedModes_searchable (by simpa using result))).symm

theorem flag_sets (done : parser.flag env oper c = .ok after) (plus : c ≠ '+') (minus : c ≠ '-') :
    Sets env oper parser c after := by
  unfold Parser.flag at done
  dsimp only at done
  split at done
  case h_1 => exact absurd rfl plus
  case h_2 => exact absurd rfl minus
  case h_3 =>
    obtain rfl := Except.ok.inj done
    exact ⟨rfl, rfl, fun _ shows => { shows with away := rfl }⟩
  case h_4 =>
    obtain rfl := Except.ok.inj done
    exact ⟨rfl, rfl, fun _ shows => { shows with channelShown := rfl }⟩
  case h_5 =>
    obtain rfl := Except.ok.inj done
    exact ⟨rfl, rfl, fun _ shows => { shows with shared := rfl }⟩
  case h_6 =>
    obtain ⟨⟨arg, rest⟩, took, done⟩ := bind_ok done
    dsimp only at done
    split at done
    next => cases done
    next =>
      split at done
      next => cases done
      next chptr found =>
        obtain rfl := Except.ok.inj done
        have plus : parser.change = true := by simpa using ‹¬(!parser.change) = true›
        have given : Check.given env oper parser.change 'c' arg = [.channel chptr (channelFlags arg).1] := by
          simp only [Check.given, found, Option.map_some, Option.toList_some]
        exact .of_take rfl (take_ok took) given fun _ shows => { shows with channel := rfl, chanPlus := plus }
  case h_7 =>
    obtain ⟨⟨arg, rest⟩, took, done⟩ := bind_ok done
    obtain ⟨⟨⟩, -, done⟩ := bind_ok done
    obtain rfl := Except.ok.inj done
    exact .of_take rfl (take_ok took) rfl fun _ shows => { shows with gcos := .set _ _ }
  case h_8 =>
    obtain ⟨⟨arg, rest⟩, took, done⟩ := bind_ok done
    obtain rfl := Except.ok.inj done
    exact .of_take rfl (take_ok took) rfl fun _ shows => { shows with host := .set _ _ }
  case h_9 =>
    obtain ⟨⟨rval, rest⟩, number, done⟩ := bind_ok done
    obtain ⟨⟨⟩, -, done⟩ := bind_ok done
    obtain rfl := Except.ok.inj done
    obtain ⟨arg, here, whole, -⟩ := number_ok number
    have given : Check.given env oper parser.change 't' arg = [.ts parser.change rval] := by
      simp only [Check.given, whole, Option.map_some, Option.toList_some]
    refine .of_take rfl here given fun _ shows => { shows with ts := ?_, tsValue := ?_ }
    · simp only [Request.keep]
      cases parser.change <;> rfl
    · cases parser.change <;> simp
  case h_10 =>
    obtain ⟨⟨rval, rest⟩, number, done⟩ := bind_ok done
    obtain ⟨⟨⟩, -, done⟩ := bind_ok done
    obtain rfl := Except.ok.inj done
    obtain ⟨arg, here, whole, some'⟩ := number_ok number
    have given : Check.given env oper parser.change 'T' arg = [.type parser.change (rval % 4294967296).toNat] := by
      simp only [Check.given, whole, Option.map_some, Option.toList_some]
    refine .of_take rfl here given fun _ shows => { shows with type := ?_ }
    rw [if_neg (unsigned_ne_zero whole some')]
    exact .set _ _
  case h_11 =>
    obtain ⟨⟨⟩, -, done⟩ := bind_ok done
    obtain rfl := Except.ok.inj done
    exact ⟨rfl, rfl, fun _ shows => { shows with }⟩
  case h_12 =>
    obtain ⟨⟨arg, rest⟩, took, done⟩ := bind_ok done
    obtain ⟨⟨⟩, -, done⟩ := bind_ok done
    dsimp only at done
    split at done
    next address cpos slash =>
      split at done
      next => cases done
      next mask ip found =>
        obtain rfl := Except.ok.inj done
        have given : Check.given env oper parser.change 'i' arg = [.cidr parser.change mask ip] := by
          simp only [Check.given, slash, found, Option.map_some, Option.toList_some]
        refine .of_take rfl (take_ok took) given fun _ shows => { shows with cidr := ?_ }
        rw [if_neg (network_ne_zero found)]
        exact .set _ _
    next slash =>
      obtain rfl := Except.ok.inj done
      have given : Check.given env oper parser.change 'i' arg = [.ip parser.change arg] := by simp only [Check.given, slash]
      exact .of_take rfl (take_ok took) given fun _ shows => { shows with ip := .set _ _ }
  case h_13 =>
    obtain ⟨⟨arg, rest⟩, took, done⟩ := bind_ok done
    obtain rfl := Except.ok.inj done
    obtain ⟨check, asked, given, kept, within⟩ := modes_given env oper parser.change arg
    refine .of_take rfl (take_ok took) given fun request shows => ?_
    have before : request.modes.2 = parser.wsopts.umodes := by rw [shows.modes]
    have modes : (if oper then parser.wsopts.umodes ∪ namedModes env.build arg
        else (parser.wsopts.umodes ∪ namedModes env.build arg) ∩ searchable) = parser.wsopts.umodes ∪ asked := by
      rw [within]
      cases oper with
      | true => rfl
      | false =>
        exact (Finset.union_inter_distrib_right _ _ _).trans
          (congrArg (· ∪ _) (Finset.inter_eq_left.mpr (shows.allowed rfl)))
    rw [kept]
    refine { shows with modes := ?_, checkUmode := ?_, allowed := ?_ }
    · simp only [modes, before]
    · rw [shows.checkUmode, ← Bool.decide_or, decide_eq_decide, or_iff_right_iff_imp, modes]
      exact fun some' none' => some' (Finset.union_eq_empty.mp none').1
    · rintro rfl
      exact Finset.inter_subset_right
  case h_14 =>
    obtain ⟨⟨arg, rest⟩, took, done⟩ := bind_ok done
    obtain rfl := Except.ok.inj done
    exact .of_take rfl (take_ok took) rfl fun _ shows => { shows with nick := .set _ _ }
  case h_15 =>
    obtain ⟨⟨arg, rest⟩, took, done⟩ := bind_ok done
    dsimp only at done
    split at done
    next => cases done
    next sign =>
      split at done
      next => cases done
      next server found =>
        obtain rfl := Except.ok.inj done
        have plus : parser.change = true := by simpa using sign
        have given : Check.given env oper parser.change 's' arg = [.server server] := by
          simp only [Check.given, found, Option.map_some, Option.toList_some]
        exact .of_take rfl (take_ok took) given fun _ shows => { shows with server := rfl, servPlus := plus }
  case h_16 =>
    obtain ⟨⟨arg, rest⟩, took, done⟩ := bind_ok done
    obtain rfl := Except.ok.inj done
    exact .of_take rfl (take_ok took) rfl fun _ shows => { shows with user := .set _ _ }
  case h_17 => cases done

theorem flags_shows {flags : Text} {request : Request} (done : parser.flags env oper flags = .ok after)
    (shows : parser.wsopts.Parses oper request) :
    (request.read env oper parser.change parser.args flags).2 = after.args ∧
      after.wsopts.Parses oper (request.read env oper parser.change parser.args flags).1 := by
  induction flags generalizing parser request with
  | nil =>
    obtain rfl := Except.ok.inj done
    exact ⟨rfl, shows⟩
  | cons c flags ih =>
    obtain ⟨next, flagged, done⟩ := bind_ok done
    by_cases plus : c = '+'
    · subst plus
      obtain rfl := Except.ok.inj flagged
      exact ih done shows
    by_cases minus : c = '-'
    · subst minus
      obtain rfl := Except.ok.inj flagged
      exact ih done shows
    obtain ⟨change, args, shown⟩ := flag_sets flagged plus minus
    have stepped := ih done (shown request shows)
    rw [change, args] at stepped
    rw [Request.read]
    · cases takes : takesArg c with
      | false => simpa [takes] using stepped
      | true => simpa [takes] using stepped
    · exact plus
    · exact minus

theorem useful_eq {wsopts : SOpts} {request : Request} (shows : wsopts.Shows oper request) :
    wsopts.useful = request.useful := by
  have away : request.away.isSome = wsopts.checkAway := by
    rw [shows.away]
    cases wsopts.checkAway <;> rfl
  have ts : request.ts.isSome = (wsopts.tsValue != 0) := by
    rw [shows.ts]
    by_cases zero : wsopts.tsValue = 0 <;> simp [zero]
  rw [SOpts.useful, Request.useful, away, ts, shows.gcos.positive_eq, shows.host.positive_eq, shows.modes, shows.checkUmode,
    shows.server, shows.servPlus, shows.nick.positive_eq, shows.user.positive_eq,
      shows.type.positive_eq, shows.ip.positive_eq]

theorem hostOrNick_shows {wsopts : SOpts} {request : Request} (shows : wsopts.Shows oper request) (arg : Text) :
    (wsopts.hostOrNick arg).Shows oper (request.hostOrNick arg) := by
  unfold SOpts.hostOrNick Request.hostOrNick Check.hostOrNick
  split
  next => exact { shows with host := .set _ _ }
  next => exact { shows with nick := .set _ _ }

theorem finish_shows {wsopts : SOpts} {read : Request × List Text} (finished : parser.finish = .ok wsopts)
    (shows : parser.wsopts.Parses oper read.1) (left : read.2 = parser.args) :
    wsopts.Shows oper (if read.1.useful || !read.1.shared &&
      (!read.1.channelShown || read.1.channel.isSome || read.1.cidr.isSome)
      then read.1 else read.1.hostOrNick (read.2.headD [])) := by
  have channel : parser.wsopts.chanPlus = read.1.channel.isSome := by rw [shows.chanPlus, shows.channel, Option.isSome_map]
  have cidr : decide (parser.wsopts.cidr4Mask ≠ 0) = read.1.cidr.isSome := by
    rw [shows.cidr.isSome_eq]
    by_cases zero : parser.wsopts.cidr4Mask = 0
    · rw [if_pos zero, zero]
      rfl
    · rw [if_neg zero, decide_eq_true zero]
      rfl
  simp only [Parser.finish, useful_eq shows.toShows, ← shows.shared, ← shows.channelShown, channel, cidr] at finished
  rw [left]
  cases useful : read.1.useful with
  | true =>
    simp only [useful, Bool.not_true, Bool.and_false, Bool.false_eq_true, if_false, Bool.true_or] at finished ⊢
    obtain rfl := Except.ok.inj finished
    exact shows.toShows
  | false =>
    simp only [useful, Bool.not_false, Bool.and_true, Bool.false_or] at finished ⊢
    cases shared : read.1.shared with
    | true =>
      simp only [shared, if_true] at finished
      cases args : parser.args with
      | nil =>
        rw [args] at finished
        cases finished
      | cons arg rest =>
        simp only [args] at finished
        split at finished
        next => cases finished
        next =>
          split at finished
          next dot =>
            obtain rfl := Except.ok.inj finished
            have address : parser.wsopts.setHost arg = parser.wsopts.hostOrNick arg := (if_pos dot).symm
            rw [address]
            exact hostOrNick_shows shows.toShows arg
          next => cases finished
    | false =>
      simp only [shared, Bool.false_eq_true, if_false, Bool.not_false, Bool.true_and] at finished ⊢
      split at finished
      next alone =>
        have taken : (!read.1.channelShown || read.1.channel.isSome || read.1.cidr.isSome) = false := by
          revert alone
          cases read.1.channelShown <;> cases read.1.channel.isSome <;> cases read.1.cidr.isSome <;> decide
        rw [taken]
        cases args : parser.args with
        | nil =>
          rw [args] at finished
          cases finished
        | cons arg rest =>
          rw [args] at finished
          obtain rfl := Except.ok.inj finished
          exact hostOrNick_shows shows.toShows arg
      next more =>
        have kept : (!read.1.channelShown || read.1.channel.isSome || read.1.cidr.isSome) = true := by
          revert more
          cases read.1.channelShown <;> cases read.1.channel.isSome <;> cases read.1.cidr.isSome <;> decide
        rw [kept]
        obtain rfl := Except.ok.inj finished
        exact shows.toShows

/-- What is accepted holds what is asked for. -/
theorem buildSearchopts_shows {wsopts : SOpts} (accepted : buildSearchopts env oper parv = .ok wsopts) :
    wsopts.Shows oper (request env oper parv) := by
  cases parv with
  | nil => cases accepted
  | cons first args =>
    simp only [buildSearchopts] at accepted
    simp only [request]
    split at accepted
    next => cases accepted
    next =>
      split at accepted
      next zero =>
        rw [if_pos zero]
        split at accepted
        next operators =>
          obtain rfl := Except.ok.inj accepted
          rw [if_pos operators]
          exact { (SOpts.Parses.empty oper).toShows with
            host := .set _ _
            modes := rfl
            checkUmode := rfl
            allowed := fun _ => by decide }
        next all =>
          obtain rfl := Except.ok.inj accepted
          rw [if_neg all]
          exact { (SOpts.Parses.empty oper).toShows with host := .set _ _ }
      next zero =>
        rw [if_neg zero]
        split at accepted
        next plain =>
          rw [if_pos plain]
          split at accepted
          next named =>
            rw [if_pos named]
            cases found : env.findChannel first with
            | none =>
              rw [found] at accepted
              cases accepted
            | some chptr =>
              rw [found] at accepted
              obtain rfl := Except.ok.inj accepted
              exact { (SOpts.Parses.empty oper).toShows with channel := rfl }
          next named =>
            obtain rfl := Except.ok.inj accepted
            rw [if_neg named]
            exact hostOrNick_shows (SOpts.Parses.empty oper).toShows first
        next list =>
          rw [if_neg list]
          obtain ⟨parser, read, finished⟩ := bind_ok accepted
          obtain ⟨args', shows⟩ := flags_shows read (SOpts.Parses.empty oper)
          exact finish_shows finished shows args'

/-- A condition as the flags give it: the channel is one that there is, and users may look for the modes. -/
def Check.Sound (env : Env) (oper : Bool) : Check → Prop
  | .channel chptr _ => ∃ name, env.findChannel name = some chptr
  | .modes _ umodes => oper = false → umodes ⊆ searchable
  | _ => True

theorem given_sound {plus : Bool} {check : Check}
    (member : check ∈ Check.given env oper plus c arg) : check.Sound env oper := by
  unfold Check.given at member
  split at member
  case h_2 =>
    obtain ⟨chptr, found, rfl⟩ : ∃ chptr, env.findChannel (channelFlags arg).2 = some chptr ∧
        .channel chptr (channelFlags arg).1 = check := by simpa using member
    exact ⟨_, found⟩
  case h_5 | h_6 =>
    cases whole : wholeNumber arg with
    | none => simp [whole] at member
    | some rval =>
      obtain rfl : check = _ := by simpa [whole] using member
      trivial
  case h_7 =>
    split at member
    next address cpos _ =>
      cases found : network address cpos with
      | none => simp [found] at member
      | some masked =>
        obtain rfl : check = _ := by simpa [found] using member
        trivial
    next =>
      obtain rfl := List.mem_singleton.mp member
      trivial
  case h_8 =>
    split at member
    next =>
      obtain rfl := List.mem_singleton.mp member
      trivial
    next result =>
      obtain rfl := List.mem_singleton.mp member
      rintro rfl
      exact namedModes_searchable (by simpa using result)
  case h_10 =>
    cases found : env.findServer arg with
    | none => simp [found] at member
    | some server =>
      obtain rfl : check = _ := by simpa [found] using member
      trivial
  case h_12 => exact absurd member List.not_mem_nil
  all_goals
    obtain rfl := List.mem_singleton.mp member
    trivial

/-! What the conditions keep in turn holds of a request. -/

section Keeps

variable (holds : Request → Prop) (kept : ∀ request check, holds request → check.Sound env oper → holds (request.keep check))
  (shared : ∀ request on, holds request → holds { request with shared := on })
  (shown : ∀ request on, holds request → holds { request with channelShown := on })

include kept shared shown

theorem put_keeps {request : Request} (before : holds request) (plus : Bool) (c : Char) (arg : Text) :
    holds (request.put env oper plus c arg) := by
  unfold Request.put
  split
  next => exact shown request plus before
  next => exact shared request plus before
  next =>
    have sound : ∀ check ∈ Check.given env oper plus c arg, check.Sound env oper := fun _ => given_sound
    generalize Check.given env oper plus c arg = checks at sound
    induction checks generalizing request with
    | nil => exact before
    | cons check rest ih =>
      exact ih (kept request check before (sound check List.mem_cons_self)) fun other member =>
        sound other (List.mem_cons_of_mem check member)

theorem read_keeps {request : Request} (before : holds request) (plus : Bool) (args : List Text) (flags : Text) :
    holds (request.read env oper plus args flags).1 := by
  induction flags generalizing request plus args with
  | nil => exact before
  | cons c flags ih =>
    unfold Request.read
    split
    next => exact before
    next same =>
      obtain ⟨-, rfl⟩ := List.cons.inj same
      exact ih before true args
    next same =>
      obtain ⟨-, rfl⟩ := List.cons.inj same
      exact ih before false args
    next here =>
      obtain ⟨rfl, rfl⟩ := List.cons.inj here
      split
      next => exact ih (put_keeps holds kept shared shown before plus _ _) plus _
      next => exact ih (put_keeps holds kept shared shown before plus _ _) plus _

omit shared shown in
theorem hostOrNick_keeps {request : Request} (before : holds request) (arg : Text) : holds (request.hostOrNick arg) := by
  refine kept request _ before ?_
  unfold Check.hostOrNick
  split <;> trivial

theorem request_keeps (empty : holds {}) (parv : List Text) : holds (request env oper parv) := by
  cases parv with
  | nil => exact empty
  | cons first args =>
    simp only [request]
    split
    next =>
      have everybody := kept {} (.host true ['*']) empty trivial
      split
      next => exact kept _ _ everybody fun _ => by decide
      next => exact everybody
    next =>
      split
      next =>
        split
        next =>
          split
          next => exact empty
          next chptr found => exact kept {} _ empty ⟨first, found⟩
        next => exact hostOrNick_keeps holds kept empty first
      next =>
        have read := read_keeps holds kept shared shown empty true args first
        split
        next => exact read
        next => exact hostOrNick_keeps holds kept read _

end Keeps

/-- The channel of a request is one that there is. -/
def Request.Known (request : Request) (env : Env) : Prop :=
  ∀ chptr flags, request.channel = some (chptr, flags) → ∃ name, env.findChannel name = some chptr

theorem request_known (env : Env) (oper : Bool) (parv : List Text) : (request env oper parv).Known env := by
  refine request_keeps (Request.Known · env) ?_ (fun _ _ known => known) (fun _ _ known => known) (fun _ _ => nofun) parv
  intro request check known sound
  cases check with
  | channel chptr flags =>
    rintro _ _ ⟨⟩
    exact sound
  | _ => exact known

/-! What the conditions mean. -/

def isWild (pattern : Text) : Bool := pattern.any fun c => c == '?' || c == '*'

/-- `gchkfn` and the like, which are `mycmp` for a pattern without wildcards and `match` otherwise. -/
def chkfn (pattern text : Text) : Bool := if isWild pattern then matchMask pattern text else mycmp pattern text

/-- The flags of a member are among the wanted ones. -/
def Flags.fit (wanted flags : Flags) : Bool :=
  wanted == ⟨false, false⟩ || wanted.chanop && flags.chanop || wanted.voice && flags.voice

def satisfies (check : Option (Bool × α)) (holds : α → Bool) : Bool := check.all fun (plus, value) => holds value == plus

/-- A user passes every check of the request. -/
def Request.meets (request : Request) (env : Env) (ac : Client) : Bool :=
  request.away.all (· == ac.away.isSome) &&
    satisfies request.gcos (chkfn · ac.info) &&
    satisfies request.host (fun host => chkfn host ac.host || chkfn host ac.realhost) &&
    satisfies request.ip (chkfn · ac.hostip) &&
    satisfies request.cidr (fun (mask, ip) => ac.ip &&& mask == ip) &&
    (request.modes.2 = ∅ || decide (request.modes.2 ⊆ ac.umode) == request.modes.1) &&
    satisfies request.nick (chkfn · ac.name) &&
    request.server.all (· == ac.uplink) &&
    satisfies request.ts (fun seconds => decide (seconds ≤ env.now - ac.tsinfo)) &&
    satisfies request.user (chkfn · ac.username) &&
    satisfies request.type (· == ac.servicetype)

/-- The user is in the channel, with the flags that are asked for. -/
def Request.inChannel (request : Request) (ac : Client) : Bool :=
  request.channel.all fun (chptr, flags) => chptr.members.any fun cm => cm.cptr == ac && flags.fit cm.flags

/-- A user meets a condition, by the help text. -/
def Check.holds (env : Env) (ac : Client) : Check → Bool
  | .away plus => ac.away.isSome == plus
  | .channel chptr flags => chptr.members.any fun cm => cm.cptr == ac && flags.fit cm.flags
  | .gcos plus mask => chkfn mask ac.info == plus
  | .host plus mask => (chkfn mask ac.host || chkfn mask ac.realhost) == plus
  | .ip plus mask => chkfn mask ac.hostip == plus
  | .cidr plus mask address => (ac.ip &&& mask == address) == plus
  | .modes plus umodes => umodes = ∅ || decide (umodes ⊆ ac.umode) == plus
  | .noResult _ _ => false
  | .nick plus mask => chkfn mask ac.name == plus
  | .server uplink => uplink == ac.uplink
  | .ts plus seconds => decide (seconds ≤ env.now - ac.tsinfo) == plus
  | .user plus mask => chkfn mask ac.username == plus
  | .type plus servicetype => (servicetype == ac.servicetype) == plus

/-- Modes that are not to be set. -/
def Check.isWithout : Check → Bool
  | .modes false umodes => umodes ≠ ∅
  | _ => false

/-- The modes of all flags m are looked for under the last sign, which is not the sign they came with. -/
def Request.crossed (request : Request) : Bool :=
  decide (request.modes.2 ≠ ∅) && request.modes.1 == request.checks.any Check.isWithout

/-- A user passes what is kept. Without a flag m of the sign -, all the modes are to be set. -/
structure Request.Met (request : Request) (env : Env) (oper : Bool) (ac : Client) : Prop where
  away : request.away.all (· == ac.away.isSome) = true
  gcos : satisfies request.gcos (chkfn · ac.info) = true
  host : satisfies request.host (fun host => chkfn host ac.host || chkfn host ac.realhost) = true
  ip : satisfies request.ip (chkfn · ac.hostip) = true
  cidr : satisfies request.cidr (fun (mask, ip) => ac.ip &&& mask == ip) = true
  nick : satisfies request.nick (chkfn · ac.name) = true
  server : request.server.all (· == ac.uplink) = true
  ts : satisfies request.ts (fun seconds => decide (seconds ≤ env.now - ac.tsinfo)) = true
  user : satisfies request.user (chkfn · ac.username) = true
  type : satisfies request.type (· == ac.servicetype) = true
  inChannel : request.inChannel ac = true
  modes : decide (request.modes.2 ⊆ ac.umode) = !request.checks.any Check.isWithout
  allowed : oper = false → request.modes.2 ⊆ searchable

/-- Who meets every condition passes what is kept of them. -/
def Request.Backed (request : Request) (env : Env) (oper : Bool) (ac : Client) : Prop :=
  request.checks.all (Check.holds env ac) = true → request.Met env oper ac

section Meaning

variable {ac : Client} {request : Request}

theorem backed_empty : ({} : Request).Backed env oper ac := fun _ =>
  { away := rfl, gcos := rfl, host := rfl, ip := rfl, cidr := rfl, nick := rfl, server := rfl, ts := rfl, user := rfl
    type := rfl, inChannel := rfl
    modes := by simp
    allowed := fun _ => Finset.empty_subset _ }

theorem Request.Met.meets (met : request.Met env oper ac) (straight : request.crossed = false) :
    request.meets env ac = true := by
  have modes : (decide (request.modes.2 = ∅) || decide (request.modes.2 ⊆ ac.umode) == request.modes.1) = true := by
    rw [met.modes]
    revert straight
    rw [Request.crossed, decide_not]
    cases decide (request.modes.2 = ∅) <;> cases request.modes.1 <;> cases request.checks.any Check.isWithout <;> decide
  simp only [Request.meets, met.away, met.gcos, met.host, met.ip, met.cidr, modes, met.nick, met.server, met.ts, met.user,
    met.type, Bool.and_self]

/-- Modes under the wrong sign shut out whoever is asked for. -/
theorem Request.Met.shut (met : request.Met env oper ac) (crossed : request.crossed = true) :
    (decide (request.modes.2 = ∅) || decide (request.modes.2 ⊆ ac.umode) == request.modes.1) = false := by
  rw [met.modes]
  revert crossed
  rw [Request.crossed, decide_not]
  cases decide (request.modes.2 = ∅) <;> cases request.modes.1 <;> cases request.checks.any Check.isWithout <;> decide

/-- One more flag m: the modes are all set as long as none is asked for without. -/
theorem modes_met (met : request.Met env oper ac) {plus : Bool} {umodes : UModes}
    (new : (Check.modes plus umodes).holds env ac = true) :
    decide (request.modes.2 ∪ umodes ⊆ ac.umode) = !(request.checks ++ [Check.modes plus umodes]).any Check.isWithout := by
  have both : decide (request.modes.2 ∪ umodes ⊆ ac.umode) =
      (decide (request.modes.2 ⊆ ac.umode) && decide (umodes ⊆ ac.umode)) := by
    rw [← Bool.decide_and, decide_eq_decide, Finset.union_subset_iff]
  rw [both, met.modes, List.any_append]
  by_cases empty : umodes = ∅
  · cases plus <;> simp [Check.isWithout, empty]
  · have asked : decide (umodes ⊆ ac.umode) = plus := by simpa [Check.holds, empty] using new
    rw [asked]
    cases plus <;> simp [Check.isWithout, empty]

theorem keep_backed {check : Check} (backed : request.Backed env oper ac) (sound : check.Sound env oper) :
    (request.keep check).Backed env oper ac := by
  intro all
  have both : request.checks.all (Check.holds env ac) = true ∧ check.holds env ac = true := by
    cases check <;> simpa [Request.keep] using all
  obtain ⟨old, new⟩ := both
  have met := backed old
  have others : check.isWithout = false →
    decide (request.modes.2 ⊆ ac.umode) = !(request.checks ++ [check]).any Check.isWithout := by
    intro other
    simp [other, met.modes]
  cases check with
  | away plus =>
    have here : ac.away.isSome = plus := by simpa [Check.holds] using new
    exact { met with away := by simp [Request.keep, here], modes := others rfl }
  | channel chptr flags => exact { met with inChannel := new, modes := others rfl }
  | gcos plus mask => exact { met with gcos := new, modes := others rfl }
  | host plus mask => exact { met with host := new, modes := others rfl }
  | ip plus mask => exact { met with ip := new, modes := others rfl }
  | cidr plus mask address => exact { met with cidr := new, modes := others rfl }
  | modes plus umodes =>
    exact { met with modes := modes_met met new, allowed := fun user => Finset.union_subset (met.allowed user) (sound user) }
  | noResult plus umodes => cases new
  | nick plus mask => exact { met with nick := new, modes := others rfl }
  | server server => exact { met with server := new, modes := others rfl }
  | ts plus seconds => exact { met with ts := new, modes := others rfl }
  | user plus mask => exact { met with user := new, modes := others rfl }
  | type plus servicetype => exact { met with type := new, modes := others rfl }

end Meaning

/-- Who meets every condition of a request passes what is kept of it. -/
theorem request_backed (env : Env) (oper : Bool) (parv : List Text) (ac : Client) :
    (request env oper parv).Backed env oper ac :=
  request_keeps (Request.Backed · env oper ac) (fun _ _ backed sound => keep_backed backed sound)
    (fun _ _ backed all => { backed all with })
    (fun _ _ backed all => { backed all with }) backed_empty parv

/-! Where every flag is given once, what is kept is all that is asked for. -/

/-- The letter of the flag. -/
def Check.letter : Check → Char
  | .away _ => 'a'
  | .channel _ _ => 'c'
  | .gcos _ _ => 'g'
  | .host _ _ => 'h'
  | .ip _ _ | .cidr _ _ _ => 'i'
  | .modes _ _ | .noResult _ _ => 'm'
  | .nick _ _ => 'n'
  | .server _ => 's'
  | .ts _ _ => 't'
  | .user _ _ => 'u'
  | .type _ _ => 'T'

def Check.Kept (request : Request) : Check → Prop
  | .away plus => request.away = some plus
  | .channel chptr flags => request.channel = some (chptr, flags)
  | .gcos plus mask => request.gcos = some (plus, mask)
  | .host plus mask => request.host = some (plus, mask)
  | .ip plus mask => request.ip = some (plus, mask)
  | .cidr plus mask address => request.cidr = some (plus, mask, address)
  | .modes plus umodes | .noResult plus umodes => request.modes = (plus, umodes)
  | .nick plus mask => request.nick = some (plus, mask)
  | .server uplink => request.server = some uplink
  | .ts plus seconds => request.ts = some (plus, seconds)
  | .user plus mask => request.user = some (plus, mask)
  | .type plus servicetype => request.type = some (plus, servicetype)

def Request.Single (request : Request) : Prop := request.checks.Pairwise (·.letter ≠ ·.letter)

/-- All conditions are kept, and modes come from a flag. -/
structure Request.Faithful (request : Request) : Prop where
  kept : ∀ check ∈ request.checks, check.Kept request
  modes : request.modes.2 ≠ ∅ → ∃ check ∈ request.checks, check.letter = 'm'

theorem kept_keep {request : Request} {old check : Check} (kept : old.Kept request) (apart : old.letter ≠ check.letter) :
    old.Kept (request.keep check) := by
  cases check <;> cases old <;> first | exact kept | exact absurd rfl apart

theorem keep_faithful {request : Request} {check : Check} (faithful : request.Single → request.Faithful)
    (single : (request.keep check).Single) : (request.keep check).Faithful := by
  have appended : (request.keep check).checks = request.checks ++ [check] := by cases check <;> rfl
  rw [Request.Single, appended] at single
  obtain ⟨before, -, apart⟩ := List.pairwise_append.mp single
  have old := faithful before
  have other : ∀ old ∈ request.checks, old.letter ≠ check.letter :=
    fun old member => apart old member check List.mem_cons_self
  have fresh : check.letter = 'm' → request.modes.2 = ∅ := by
    intro letter
    by_contra some'
    obtain ⟨earlier, member, same⟩ := old.modes some'
    exact other earlier member (same.trans letter.symm)
  have new : check.Kept (request.keep check) := by
    cases check with
    | modes plus umodes | noResult plus umodes =>
      have added : (plus, request.modes.2 ∪ umodes) = (plus, umodes) := by rw [fresh rfl, Finset.empty_union]
      exact added
    | _ => rfl
  refine ⟨fun any member => ?_, fun some' => ?_⟩
  · rw [appended, List.mem_append, List.mem_singleton] at member
    obtain earlier | rfl := member
    · exact kept_keep (old.kept any earlier) (other any earlier)
    · exact new
  · rw [appended]
    by_cases letter : check.letter = 'm'
    · exact ⟨check, by simp, letter⟩
    · have same : (request.keep check).modes = request.modes := by
        cases check <;> first | rfl | exact absurd rfl letter
      obtain ⟨earlier, member, modes⟩ := old.modes (same ▸ some')
      exact ⟨earlier, List.mem_append_left _ member, modes⟩

theorem request_faithful (env : Env) (oper : Bool) (parv : List Text) :
    (request env oper parv).Single → (request env oper parv).Faithful :=
  request_keeps (fun request => request.Single → request.Faithful) (fun _ _ faithful _ => keep_faithful faithful)
    (fun _ _ faithful single => { faithful single with }) (fun _ _ faithful single => { faithful single with })
    (fun _ => ⟨nofun, fun some' => absurd rfl some'⟩) parv

end SolidIrcd.Who
