import SolidIrcd.Channel.Mask
import SolidIrcd.User.Umode
import SolidIrcd.UserBan.Inet

/-! The option string of RWHO: `rwho_parseopts` and `rwho_compile` of `m_rwho.c`. -/

namespace SolidIrcd.Rwho

open Scan (Text)
open Umode (UModes)
open UserBan (Address cidrToNetmask inetAddr)

/-- The RWHO_ numbers: what a regular expression is matched with. -/
inductive Subject where
  | nick | user | gcos | away
  deriving DecidableEq, Repr

/-- The RWM_ bits. -/
inductive Check where
  | away | host | ip | modes | server | ts | stype | joins | clones | matched | channel | nprob | uprob | gprob
  deriving DecidableEq, Repr

/-- The RWO_ bits. -/
inductive Output where
  | nick | user | host | ip | modes | flags | server | ts | stype | gcos | away | joins | clones | matched
  | channel | prob
  deriving DecidableEq, Repr

/-- A user, or another client of the global list. -/
structure Client where
  cptr : Nat
  /-- `IsClient`. -/
  isClient : Bool
  name : Text
  username : Text
  info : Text
  host : Text
  hostip : Text
  ip : Address
  away : Option Text
  uplink : Nat
  tsinfo : Int
  servicetype : Nat
  joined : Int
  umode : UModes
  /-- The channels that `user->channel` links to. -/
  channels : List Nat
  deriving DecidableEq

structure Channel where
  chptr : Nat
  members : List Client

/-- What the parser and the match ask the rest of the server, and the regular expressions. -/
structure Env where
  now : Int
  build : Build
  findChannel : Text → Option Channel
  findServer : Text → Option Nat
  /-- `probability_loadsets`. -/
  loadsets : Text → Bool
  /-- `get_probabilities` with the character sets that were loaded. -/
  probabilities : List Text → Client → Int × Int × Int
  /-- `pcre_compile`: the number of submatches, and what `pcre_exec` then finds. -/
  compile : Text → Option (Nat × (Text → Bool))

/-- The parts of `rwho_opts` that come in two, for positive and negative matches. -/
structure Half where
  check : List Check := []
  hostPat : Text := []
  /-- `host_func` is `match`, and `mycmp` otherwise. -/
  hostWild : Bool := false
  umodes : UModes := ∅
  ipMask : Address := 0
  ipAddr : Address := 0
  ipStr : Option Text := none
  ts : Int := 0
  joined : Int := 0
  clones : Int := 0
  matched : Int := 0
  nickprob : Int := 0
  userprob : Int := 0
  gcosprob : Int := 0

/-- `rwho_opts`. -/
structure Opts where
  pos : Half := {}
  neg : Half := {}
  rplfields : List Output := []
  showIp : Bool := false
  compatChannel : Bool := false
  cookie : Option Text := none
  countonly : Bool := false
  limit : Int := 0
  spat : List Subject := []
  re : Option (Text → Bool) := none
  server : Option Nat := none
  chptr : Option Channel := none
  stype : Nat := 0
  /-- The character sets of the flag P. -/
  charsets : List Text := []

/-- Why RWHO does not search. -/
inductive Refusal where
  | noPrivileges
  | usage (msg : Option String)
  | help
  | noSuchChannel (name : Text)
  | noSuchServer (name : Text)
  /-- The regular expression does not compile. -/
  | expression
  deriving DecidableEq, Repr

def synerr (msg : String) : Except Refusal α := .error (.usage (some msg))

/-- The variables of `rwho_parseopts`: `neg`, the parameters from `arg` on, and `remap`. -/
structure Parser where
  opts : Opts
  neg : Bool
  args : List Text
  remap : List (Subject × Text)

def Opts.half (opts : Opts) (neg : Bool) : Half := if neg then opts.neg else opts.pos

def Opts.setHalf (opts : Opts) (neg : Bool) (change : Half → Half) : Opts :=
  if neg then { opts with neg := change opts.neg } else { opts with pos := change opts.pos }

/-- The parameter of a flag. -/
def Parser.take (parser : Parser) (flag : Char) : Except Refusal (Text × Parser) :=
  match parser.args with
  | [] => synerr s!"missing argument for match flag {flag}"
  | arg :: args => .ok (arg, { parser with args })

def Parser.positive (parser : Parser) (flag : Char) : Except Refusal Unit :=
  if parser.neg then synerr s!"negative match not supported for match flag {flag}" else .ok ()

/-- The half of the sign, with one more thing to check. -/
def Parser.ask (parser : Parser) (check : Check) (change : Half → Half) : Parser :=
  { parser with opts := parser.opts.setHalf parser.neg fun half => { change half with check := check :: half.check } }

/-- `strtol(parv[arg], &s, 0)` in an `int`, when it takes the whole parameter. -/
def wholeNumber (arg : Text) : Option Int :=
  match Decimal.strtolAuto arg with
  | (value, []) => some (Decimal.toInt value)
  | _ => none

/-- The flags d, D and j: a number of at least `least`. -/
def Parser.number (parser : Parser) (flag : Char) (least : Int) (what : String) (check : Check) (set : Int → Half → Half) :
    Except Refusal Parser := do
  let (arg, parser) ← parser.take flag
  match (wholeNumber arg).filter (least ≤ ·) with
  | none => synerr s!"invalid number of {what} for match flag {flag}"
  | some i => .ok (parser.ask check (set i))

/-- The flags A, g, n and u. -/
def Parser.expression (parser : Parser) (flag : Char) (subject : Subject) : Except Refusal Parser := do
  let (arg, parser) ← parser.take flag
  if parser.remap.any (·.1 == subject) then synerr "flags may not be used more than once"
  parser.positive flag
  .ok { parser with
    remap := (subject, arg) :: parser.remap
    opts := { parser.opts with spat := parser.opts.spat ++ [subject] } }

/-- The flag i: an address, a network, or the text of what is neither. -/
def Half.setIp (half : Half) (arg : Text) : Option Half :=
  let (address, mask) :=
    match Mask.splitFirst '/' arg with
    | some (address, sep) =>
      let (value, s) := Decimal.strtol sep
      let i := Decimal.toInt value
      (address, if s = [] ∧ 1 < i ∧ i < 32 then cidrToNetmask i.toNat else half.ipMask)
    | none => (arg, 0xFFFFFFFF#32)
  let ip := inetAddr address
  if mask = 0 ∨ (mask ≠ 0xFFFFFFFF#32 ∧ ip = 0xFFFFFFFF#32) then none
  else if ip = 0xFFFFFFFF#32 then some { half with ipMask := mask, ipAddr := ip, ipStr := some address }
  else some { half with ipMask := mask, ipAddr := ip &&& mask }

/-- `prob[neg] = ..` for one letter of the flag p. -/
def Half.storeProb (half : Half) (c : Char) (prob : Int) : Option Half :=
  if c = 'N' ∨ c = 'n' then some { half with nickprob := prob, check := .nprob :: half.check }
  else if c = 'U' ∨ c = 'u' then some { half with userprob := prob, check := .uprob :: half.check }
  else if c = 'G' ∨ c = 'g' then some { half with gcosprob := prob, check := .gprob :: half.check }
  else none

/-- The flag p: letters with a number behind each of them. -/
def Half.setProb (half : Half) (s : Text) : Option Half :=
  match s with
  | [] => some half
  | c :: s =>
    if s.head?.any isDigit then
      match half.storeProb c (Decimal.toInt (Decimal.strtol (s.takeWhile isDigit)).1) with
      | none => none
      | some half => half.setProb (s.dropWhile isDigit)
    else none
termination_by s.length
decreasing_by
  have shorter := (List.dropWhile_suffix (l := s) isDigit).length_le
  simp only [List.length_cons]
  omega

/-- One match flag. -/
def Parser.flag (env : Env) (parser : Parser) (c : Char) : Except Refusal Parser := do
  let neg := parser.neg
  match c with
  | '+' => .ok { parser with neg := false }
  | '-' => .ok { parser with neg := true }
  | 'a' =>
    if .away ∈ (parser.opts.half !neg).check then synerr "cannot use both +a and -a in match"
    .ok (parser.ask .away id)
  | 'c' =>
    let (arg, parser) ← parser.take 'c'
    parser.positive 'c'
    match env.findChannel arg with
    | none => .error (.noSuchChannel arg)
    | some chptr => .ok ({ parser with opts := { parser.opts with chptr := some chptr } }.ask .channel id)
  | 'C' => .ok { parser with opts := { parser.opts with compatChannel := true } }
  | 'd' => parser.number 'd' 1 "clones" .clones fun i half => { half with clones := i }
  | 'D' => parser.number 'D' 1 "matches" .matched fun i half => { half with matched := i }
  | 'h' =>
    let (arg, parser) ← parser.take 'h'
    .ok (parser.ask .host fun half => { half with hostPat := arg, hostWild := arg.any fun c => c == '*' || c == '?' })
  | 'i' =>
    let (arg, parser) ← parser.take 'i'
    match (parser.opts.half neg).setIp arg with
    | none => synerr "invalid CIDR IP for match flag i"
    | some half => .ok (parser.ask .ip fun _ => half)
  | 'I' => .ok { parser with opts := { parser.opts with showIp := true } }
  | 'j' => parser.number 'j' 0 "channels" .joins fun i half => { half with joined := i }
  | 'm' =>
    let (arg, parser) ← parser.take 'm'
    let named := (arg.filterMap (Umode.lookupUmode env.build)).toFinset
    .ok (parser.ask .modes fun half => { half with umodes := half.umodes ∪ named })
  | 'p' =>
    let (arg, parser) ← parser.take 'p'
    match (parser.opts.half neg).setProb arg with
    | none => synerr "Invalid argument for match flag p"
    | some half => .ok { parser with opts := parser.opts.setHalf neg fun _ => half }
  | 'P' =>
    let (arg, parser) ← parser.take 'P'
    parser.positive 'P'
    if !env.loadsets arg then synerr "invalid argument for match flag P"
    .ok { parser with opts := { parser.opts with charsets := parser.opts.charsets ++ [arg] } }
  | 's' =>
    let (arg, parser) ← parser.take 's'
    if .server ∈ (parser.opts.half !neg).check then synerr "cannot use both +s and -s in match"
    match env.findServer arg with
    | none => .error (.noSuchServer arg)
    | some server => .ok ({ parser with opts := { parser.opts with server := some server } }.ask .server id)
  | 't' =>
    let (arg, parser) ← parser.take 't'
    match Decimal.strtolAuto arg with
    | (ts, s) =>
      if s ≠ [] ∨ ts ≤ 0 then synerr "invalid number of seconds for match flag t"
      .ok (parser.ask .ts fun half => { half with ts := env.now - ts })
  | 'T' =>
    let (arg, parser) ← parser.take 'T'
    if .stype ∈ (parser.opts.half !neg).check then synerr "cannot use both +T and -T in match"
    match Decimal.strtoulAuto arg with
    | (ui, s) =>
      if s ≠ [] then synerr "invalid type for match flag T"
      .ok ({ parser with opts := { parser.opts with stype := ui % 4294967296 } }.ask .stype id)
  | 'A' =>
    let parser ← parser.expression 'A' .away
    if .away ∈ (parser.opts.half !neg).check then synerr "cannot use both +A and -a in match"
    .ok (parser.ask .away id)
  | 'g' => parser.expression 'g' .gcos
  | 'n' => parser.expression 'n' .nick
  | 'u' => parser.expression 'u' .user
  | c => synerr s!"unknown match flag {c}"

/-- The match flags, and what stands behind the slash. -/
def Parser.flags (env : Env) (parser : Parser) : Text → Except Refusal (Parser × Text)
  | [] => .ok (parser, [])
  | c :: sfl =>
    if c = '/' then .ok (parser, sfl)
    else do
      let parser ← parser.flag env c
      parser.flags env sfl

/-- The letters of the output flags that only choose a field. -/
def outputField : Char → Option Output
  | 'n' => some .nick
  | 'u' => some .user
  | 'h' => some .host
  | 'i' => some .ip
  | 's' => some .server
  | 'f' => some .flags
  | 'c' => some .channel
  | 'j' => some .joins
  | 'd' => some .clones
  | 'D' => some .matched
  | 't' => some .ts
  | 'T' => some .stype
  | 'm' => some .modes
  | 'p' => some .prob
  | 'g' => some .gcos
  | 'a' => some .away
  | _ => none

/-- The output flags. -/
def Opts.outputs (opts : Opts) (sfl : Text) : Except Refusal Opts :=
  match sfl with
  | [] => .ok opts
  | c :: sfl =>
    if c = ':' then
      if sfl = [] then .error (.usage none) else .ok { opts with cookie := some sfl }
    else if c = 'C' then { opts with countonly := true }.outputs sfl
    else if c = 'L' then
      let limit := Decimal.toInt (Decimal.strtol sfl).1
      if limit < 1 then synerr "invalid limit for output flag L"
      else { opts with limit }.outputs (Decimal.strtol sfl).2
    else
      match outputField c with
      | none => synerr s!"unknown output flag {c}"
      | some field => { opts with rplfields := field :: opts.rplfields }.outputs sfl
termination_by sfl.length
decreasing_by
  · simp
  · have shorter := Decimal.length_strtol_le sfl
    simp only [List.length_cons]
    omega
  · simp

/-- `rwho_compile`: the expressions in the order of their flags, each up to a zero byte. -/
def compile (env : Env) (opts : Opts) (remap : List (Subject × Text)) : Except Refusal Opts :=
  let pattern := opts.spat.flatMap fun subject =>
    "(?>(?:".toList ++ ((remap.find? (·.1 == subject)).map Prod.snd).getD [] ++ ")\\x00)".toList
  match env.compile pattern with
  | none => .error .expression
  | some (submatches, re) =>
    if submatches > 9 then synerr "too many capturing submatches, use (?:)" else .ok { opts with re := some re }

/-- Values of a flag for both signs that leave nothing between them. -/
def Opts.never (opts : Opts) (check : Check) (value : Half → Int) : Bool :=
  check ∈ opts.pos.check && check ∈ opts.neg.check && decide (value opts.pos > value opts.neg)

/-- The combinations of flags that are refused, in the order in which they are looked for. -/
def Opts.clash (opts : Opts) : Option String :=
  if .gcos ∈ opts.rplfields ∧ .away ∈ opts.rplfields then some "output flags g and a may not be used together"
  else if opts.never .clones Half.clones then some "values for match flags +d and -d will never match"
  else if opts.never .matched Half.matched then some "values for match flags +D and -D will never match"
  else if opts.never .joins Half.joined then some "values for match flags +j and -j will never match"
  -- a nick that is in use for longer has the smaller timestamp
  else if opts.never .ts fun half => -half.ts then some "values for match flags +t and -t will never match"
  else if opts.never .nprob Half.nickprob || opts.never .uprob Half.userprob || opts.never .gprob Half.gcosprob then
    some "values for match flags +p and -p will never match"
  else none

/-- `rwho_parseopts`. -/
def rwhoParseopts (env : Env) : List Text → Except Refusal Opts
  | [] => .error (.usage none)
  | sfl :: args =>
    if sfl.head? = some '?' then .error .help
    else do
      let (parser, sfl) ← Parser.flags env ⟨{}, false, args, []⟩ sfl
      let opts ← parser.opts.outputs sfl
      match opts.clash with
      | some msg => synerr msg
      | none => if opts.spat = [] then .ok opts else compile env opts parser.remap

/-- The channel is one that was found, and to be on it is one of the conditions. -/
def Opts.Channelled (opts : Opts) (env : Env) : Prop :=
  ∀ chptr, opts.chptr = some chptr → .channel ∈ opts.pos.check ∧ ∃ name, env.findChannel name = some chptr

/-- No condition is dropped, and the channel stays. -/
structure Opts.Grows (before after : Opts) : Prop where
  check : before.pos.check ⊆ after.pos.check
  chptr : after.chptr = before.chptr

section

variable {opts : Opts} {env : Env} {parser after : Parser}

theorem Opts.Grows.refl (opts : Opts) : opts.Grows opts := ⟨List.Subset.refl _, rfl⟩

theorem Opts.Grows.channelled (grows : opts.Grows after') (channelled : opts.Channelled env) : after'.Channelled env := by
  intro chptr here
  obtain ⟨asked, found⟩ := channelled chptr (grows.chptr.symm.trans here)
  exact ⟨grows.check asked, found⟩

theorem Opts.Grows.setHalf (opts : Opts) (neg : Bool) (change : Half → Half)
    (more : (opts.half neg).check ⊆ (change (opts.half neg)).check) : opts.Grows (opts.setHalf neg change) := by
  cases neg with
  | true => exact ⟨List.Subset.refl _, rfl⟩
  | false => exact ⟨more, rfl⟩

theorem Parser.ask_grows (parser : Parser) (check : Check) (change : Half → Half) :
    parser.opts.Grows (parser.ask check change).opts :=
  Opts.Grows.setHalf parser.opts parser.neg (fun half => { change half with check := check :: half.check })
    (List.subset_cons_self ..)

theorem Parser.take_ok (taken : parser.take letter = .ok (arg, after)) : after.opts = parser.opts ∧
    after.neg = parser.neg := by
  unfold Parser.take at taken
  split at taken
  next => cases taken
  next =>
    obtain ⟨-, rfl⟩ := Prod.mk.inj (Except.ok.inj taken)
    exact ⟨rfl, rfl⟩

theorem bind_ok {first : Except ε α} {next : α → Except ε β} (done : (first >>= next) = .ok result) :
    ∃ value, first = .ok value ∧ next value = .ok result := by
  cases first with
  | error refusal => cases done
  | ok value => exact ⟨value, rfl, done⟩

theorem Parser.number_grows {store : Int → Half → Half} (done : parser.number letter least what check store = .ok after) :
    parser.opts.Grows after.opts := by
  obtain ⟨⟨arg, taken⟩, took, done⟩ := bind_ok done
  obtain ⟨opts, neg⟩ := take_ok took
  dsimp only at done
  split at done
  next => cases done
  next i _ =>
    obtain rfl := Except.ok.inj done
    rw [← opts]
    exact taken.ask_grows check (store i)

theorem Parser.expression_grows (done : parser.expression letter subject = .ok after) : parser.opts.Grows after.opts := by
  obtain ⟨⟨arg, taken⟩, took, done⟩ := bind_ok done
  obtain ⟨opts, neg⟩ := take_ok took
  dsimp only at done
  split at done
  next => cases done
  next =>
    obtain ⟨⟨⟩, -, done⟩ := bind_ok done
    obtain rfl := Except.ok.inj done
    rw [← opts]
    exact ⟨List.Subset.refl _, rfl⟩

theorem Half.storeProb_check {half after : Half} (done : half.storeProb c prob = some after) : half.check ⊆ after.check := by
  unfold Half.storeProb at done
  split at done
  · obtain rfl := Option.some.inj done
    exact List.subset_cons_self ..
  · split at done
    · obtain rfl := Option.some.inj done
      exact List.subset_cons_self ..
    · split at done
      · obtain rfl := Option.some.inj done
        exact List.subset_cons_self ..
      · cases done

theorem Half.setProb_check {half after : Half} (done : half.setProb s = some after) : half.check ⊆ after.check := by
  induction half, s using Half.setProb.induct with
  | case1 half =>
    obtain rfl : half = after := by simpa [Half.setProb] using done
    exact List.Subset.refl _
  | case2 half c s digit none => simp [Half.setProb, digit, none] at done
  | case3 half c s digit next stored ih =>
    have later : next.setProb (s.dropWhile isDigit) = some after := by simpa [Half.setProb, digit, stored] using done
    exact List.Subset.trans (storeProb_check stored) (ih later)
  | case4 half c s other => simp [Half.setProb, other] at done

/-- The channel flag is the only one that touches the channel. -/
theorem Parser.flag_channelled (done : parser.flag env c = .ok after) (channelled : parser.opts.Channelled env) :
    after.opts.Channelled env := by
  unfold Parser.flag at done
  dsimp only at done
  split at done
  case h_1 | h_2 | h_5 | h_10 =>
    obtain rfl := Except.ok.inj done
    exact channelled
  case h_3 =>
    split at done
    next => cases done
    next =>
      obtain rfl := Except.ok.inj done
      exact (parser.ask_grows .away id).channelled channelled
  case h_4 =>
    obtain ⟨⟨arg, taken⟩, took, done⟩ := bind_ok done
    obtain ⟨opts, neg⟩ := take_ok took
    obtain ⟨⟨⟩, positive, done⟩ := bind_ok done
    split at done
    next => cases done
    next chptr found =>
      obtain rfl := Except.ok.inj done
      have sign : taken.neg = false := by
        unfold Parser.positive at positive
        split at positive
        next => cases positive
        next plus => exact Bool.eq_false_iff.mpr plus
      intro chptr' here
      simp only [Parser.ask, Opts.setHalf, sign, Bool.false_eq_true, if_false, Option.some.injEq] at here ⊢
      exact ⟨List.mem_cons_self .., arg, here ▸ found⟩
  case h_6 | h_7 | h_11 => exact (number_grows done).channelled channelled
  case h_8 | h_12 =>
    obtain ⟨⟨arg, taken⟩, took, done⟩ := bind_ok done
    obtain rfl := Except.ok.inj done
    rw [← (take_ok took).1] at channelled
    exact (taken.ask_grows _ _).channelled channelled
  case h_9 =>
    obtain ⟨⟨arg, taken⟩, took, done⟩ := bind_ok done
    rw [← (take_ok took).1] at channelled
    dsimp only at done
    split at done
    next => cases done
    next half made =>
      obtain rfl := Except.ok.inj done
      exact (taken.ask_grows .ip fun _ => half).channelled channelled
  case h_13 =>
    obtain ⟨⟨arg, taken⟩, took, done⟩ := bind_ok done
    obtain ⟨opts, neg⟩ := take_ok took
    dsimp only at done
    split at done
    next => cases done
    next half made =>
      obtain rfl := Except.ok.inj done
      rw [← opts] at channelled
      exact (Opts.Grows.setHalf taken.opts parser.neg (fun _ => half) (Half.setProb_check made)).channelled channelled
  case h_14 =>
    obtain ⟨⟨arg, taken⟩, took, done⟩ := bind_ok done
    obtain ⟨⟨⟩, positive, done⟩ := bind_ok done
    rw [← (take_ok took).1] at channelled
    dsimp only at done
    split at done
    next => cases done
    next =>
      obtain rfl := Except.ok.inj done
      exact channelled
  case h_15 =>
    obtain ⟨⟨arg, taken⟩, took, done⟩ := bind_ok done
    rw [← (take_ok took).1] at channelled
    dsimp only at done
    split at done
    next => cases done
    next =>
      split at done
      next => cases done
      next server found =>
        obtain rfl := Except.ok.inj done
        have stays : { taken.opts with server := some server }.Channelled env := channelled
        exact (Parser.ask_grows { taken with opts := { taken.opts with server := some server } } .server id).channelled stays
  case h_16 =>
    obtain ⟨⟨arg, taken⟩, took, done⟩ := bind_ok done
    rw [← (take_ok took).1] at channelled
    dsimp only at done
    split at done
    next => cases done
    next =>
      obtain rfl := Except.ok.inj done
      exact (taken.ask_grows .ts _).channelled channelled
  case h_17 =>
    obtain ⟨⟨arg, taken⟩, took, done⟩ := bind_ok done
    rw [← (take_ok took).1] at channelled
    dsimp only at done
    split at done
    next => cases done
    next =>
      split at done
      next => cases done
      next =>
        obtain rfl := Except.ok.inj done
        have stays : { taken.opts with stype := (Decimal.strtoulAuto arg).1 % 4294967296 }.Channelled env := channelled
        exact (Parser.ask_grows { taken with opts := { taken.opts with stype := (Decimal.strtoulAuto arg).1 % 4294967296 } }
          .stype id).channelled stays
  case h_18 =>
    obtain ⟨taken, expressed, done⟩ := bind_ok done
    have stays := (expression_grows expressed).channelled channelled
    split at done
    next => cases done
    next =>
      obtain rfl := Except.ok.inj done
      exact (taken.ask_grows .away id).channelled stays
  case h_19 | h_20 | h_21 => exact (expression_grows done).channelled channelled
  case h_22 => cases done

theorem Parser.flags_channelled (done : parser.flags env sfl = .ok (after, rest)) (channelled : parser.opts.Channelled env) :
    after.opts.Channelled env := by
  induction sfl generalizing parser with
  | nil =>
    obtain ⟨rfl, -⟩ := Prod.mk.inj (Except.ok.inj done)
    exact channelled
  | cons c sfl ih =>
    unfold Parser.flags at done
    split at done
    next =>
      obtain ⟨rfl, -⟩ := Prod.mk.inj (Except.ok.inj done)
      exact channelled
    next =>
      obtain ⟨next, flagged, done⟩ := bind_ok done
      exact ih done (flag_channelled flagged channelled)

/-- The output flags leave the conditions alone. -/
theorem Opts.outputs_grows {opts after : Opts} (done : opts.outputs sfl = .ok after) : opts.Grows after := by
  induction opts, sfl using Opts.outputs.induct with
  | case1 opts =>
    obtain rfl : opts = after := by simpa [Opts.outputs] using done
    exact Grows.refl _
  | case2 opts => simp [Opts.outputs] at done
  | case3 opts sfl more =>
    obtain rfl : { opts with cookie := some sfl } = after := by simpa [Opts.outputs, more] using done
    exact ⟨List.Subset.refl _, rfl⟩
  | case4 opts sfl _ ih =>
    have grows := ih (by simpa [Opts.outputs] using done)
    exact ⟨grows.check, grows.chptr⟩
  | case5 opts sfl limit bad => simp [Opts.outputs, limit, bad, synerr] at done
  | case6 opts sfl limit good _ _ ih =>
    have grows := ih (by simpa [Opts.outputs, limit, good] using done)
    exact ⟨grows.check, grows.chptr⟩
  | case7 opts c sfl colon countonly limit none => simp [Opts.outputs, colon, countonly, limit, none, synerr] at done
  | case8 opts c sfl colon countonly limit field found ih =>
    have grows := ih (by simpa [Opts.outputs, colon, countonly, limit, found] using done)
    exact ⟨grows.check, grows.chptr⟩

theorem compile_grows (done : compile env opts remap = .ok after') : opts.Grows after' := by
  unfold compile at done
  dsimp only at done
  split at done
  next => cases done
  next =>
    split at done
    next => cases done
    next =>
      obtain rfl := Except.ok.inj done
      exact ⟨List.Subset.refl _, rfl⟩

theorem rwhoParseopts_channelled (done : rwhoParseopts env parv = .ok opts) : opts.Channelled env := by
  unfold rwhoParseopts at done
  split at done
  next => cases done
  next sfl args =>
    split at done
    next => cases done
    next =>
      obtain ⟨⟨parser, rest⟩, flagged, done⟩ := bind_ok done
      have start : ({} : Opts).Channelled env := by
        intro chptr here
        cases here
      have channelled := Parser.flags_channelled flagged start
      obtain ⟨outs, written, done⟩ := bind_ok done
      have channelled := (Opts.outputs_grows written).channelled channelled
      split at done
      next => cases done
      next =>
        split at done
        next =>
          obtain rfl := Except.ok.inj done
          exact channelled
        next => exact (compile_grows done).channelled channelled

end

end SolidIrcd.Rwho
