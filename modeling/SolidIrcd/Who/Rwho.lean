import SolidIrcd.Lib.Answer
import SolidIrcd.Who.RwhoOptions

/-! The search of RWHO: `rwho_match` and the three loops of `m_rwho`. Whichever loop the
options choose, it finds the users that meet the conditions, unless it goes through the
addresses and such a user has none. -/

namespace SolidIrcd.Rwho

open Scan (Text)
open Mask (matchMask)
open Umode (UModes)
open UserBan (Address)

/-- INT_MAX. -/
def intMax : Nat := 2147483647

/-- An entry of `clones_list`; the entries of networks have no clients. -/
structure CloneEnt where
  gcount : Int
  clients : List Client

structure Population where
  clients : List Client
  clonesList : List CloneEnt

/-- `host_func[..](host_pat[..], host) == 0`. -/
def Half.hostMatches (half : Half) (host : Text) : Bool :=
  if half.hostWild then matchMask half.hostPat host else mycmp half.hostPat host

def Half.ipMatches (half : Half) (cptr : Client) : Bool :=
  match half.ipStr with
  | some text => matchMask text cptr.hostip
  | none => cptr.ip &&& half.ipMask == half.ipAddr

/-- What the regular expression is matched with: every field with a zero byte behind it. -/
def Opts.subject (opts : Opts) (cptr : Client) : Text :=
  opts.spat.flatMap fun
    | .nick => cptr.name ++ ['\x00']
    | .user => cptr.username ++ ['\x00']
    | .gcos => cptr.info ++ ['\x00']
    | .away => cptr.away.getD [] ++ ['\x00']

/-- The tests of `rwho_match` that return 0, in their order. -/
def Opts.fails (opts : Opts) (env : Env) (cptr : Client) : List Bool :=
  let pos (check : Check) : Bool := check ∈ opts.pos.check
  let neg (check : Check) : Bool := check ∈ opts.neg.check
  let (np, up, gp) := env.probabilities opts.charsets cptr
  [pos .server && some cptr.uplink != opts.server,
    neg .server && some cptr.uplink == opts.server,
    pos .ts && decide (cptr.tsinfo > opts.pos.ts),
    neg .ts && decide (cptr.tsinfo < opts.neg.ts),
    pos .away && cptr.away.isNone,
    neg .away && cptr.away.isSome,
    pos .stype && cptr.servicetype != opts.stype,
    neg .stype && cptr.servicetype == opts.stype,
    pos .joins && decide (cptr.joined < opts.pos.joined),
    neg .joins && decide (cptr.joined > opts.neg.joined),
    pos .modes && decide (cptr.umode ∩ opts.pos.umodes ≠ opts.pos.umodes),
    neg .modes && decide (cptr.umode ∩ opts.neg.umodes ≠ ∅),
    pos .channel && !opts.chptr.any (cptr.channels.contains ·.chptr),
    pos .ip && !opts.pos.ipMatches cptr,
    neg .ip && opts.neg.ipMatches cptr,
    pos .host && !opts.pos.hostMatches cptr.host,
    neg .host && opts.neg.hostMatches cptr.host,
    pos .nprob && decide (np < opts.pos.nickprob),
    neg .nprob && decide (np > opts.neg.nickprob),
    pos .uprob && decide (up < opts.pos.userprob),
    neg .uprob && decide (up > opts.neg.userprob),
    pos .gprob && decide (gp < opts.pos.gcosprob),
    neg .gprob && decide (gp > opts.neg.gcosprob),
    opts.re.any fun re => !re (opts.subject cptr)]

/-- `rwho_match`. -/
def Opts.rwhoMatch (opts : Opts) (env : Env) (cptr : Client) : Bool := (opts.fails env cptr).all (!·)

/-- What was sent, `results` and `left`. -/
structure Tally where
  sent : List Client
  results : Nat
  left : Nat
  deriving DecidableEq

/-- `results++; left--;` and the reply, unless only the count is wanted. -/
def Tally.report (countonly : Bool) (tally : Tally) (ac : Client) : Tally where
  sent := if countonly then tally.sent else tally.sent ++ [ac]
  results := tally.results + 1
  left := tally.left - 1

/-- The loop over the members of a channel, over all clients, and over those of an address. -/
def report (countonly : Bool) (matched : Client → Bool) (tally : Tally) : List Client → Tally
  | [] => tally
  | ac :: rest =>
    if !matched ac then report countonly matched tally rest
    else if tally.left = 0 then tally
    else report countonly matched (tally.report countonly ac) rest

/-- An address that the number of its clients, or of those that match, rules out. -/
def Opts.skips (opts : Opts) (matched : Client → Bool) (ce : CloneEnt) : Bool :=
  let thismatches : Int := ce.clients.countP matched
  ce.clients.isEmpty ||
    (decide (.clones ∈ opts.pos.check) && decide (ce.gcount < opts.pos.clones)) ||
    (decide (.clones ∈ opts.neg.check) && decide (ce.gcount > opts.neg.clones)) ||
    ((decide (.matched ∈ opts.pos.check) || decide (.matched ∈ opts.neg.check) || decide (.matched ∈ opts.rplfields)) &&
      (decide (thismatches = 0) ||
        (decide (.matched ∈ opts.pos.check) && decide (thismatches < opts.pos.matched)) ||
        (decide (.matched ∈ opts.neg.check) && decide (thismatches > opts.neg.matched))))

/-- The loop over `clones_list`; a summary has the first match of each address. -/
def cloneLoop (opts : Opts) (countonly : Bool) (matched : Client → Bool) (tally : Tally) : List CloneEnt → Tally
  | [] => tally
  | ce :: rest =>
    if opts.skips matched ce then cloneLoop opts countonly matched tally rest
    else if .matched ∈ opts.rplfields then
      if tally.left = 0 then tally
      else
        match ce.clients.find? matched with
        | none => cloneLoop opts countonly matched tally rest
        | some fm => cloneLoop opts countonly matched (tally.report countonly fm) rest
    else
      let tally := report countonly matched tally ce.clients
      if tally.left = 0 then tally else cloneLoop opts countonly matched tally rest

/-- The options that make `m_rwho` go through the addresses. -/
def Opts.byAddress (opts : Opts) : Bool :=
  decide (.clones ∈ opts.pos.check) || decide (.clones ∈ opts.neg.check) || decide (.matched ∈ opts.pos.check) ||
    decide (.matched ∈ opts.neg.check) || decide (.clones ∈ opts.rplfields) || decide (.matched ∈ opts.rplfields)

/-- `rwho_opts.check[0] &= ~RWM_CHANNEL`. -/
def Opts.anyChannel (opts : Opts) : Opts :=
  { opts with pos := { opts.pos with check := opts.pos.check.filter (· ≠ .channel) } }

/-- The search of `m_rwho`; `countonly` also stands for a channel that the operator may not see. -/
def Opts.search (opts : Opts) (env : Env) (population : Population) (countonly : Bool) : Tally :=
  let start : Tally := ⟨[], 0, if opts.limit ≠ 0 then opts.limit.toNat else intMax⟩
  if opts.byAddress then cloneLoop opts countonly (opts.rwhoMatch env) start population.clonesList
  else
    match opts.chptr with
    | some chptr => report countonly (opts.anyChannel.rwhoMatch env) start chptr.members
    | none => report countonly (fun ac => ac.isClient && opts.rwhoMatch env ac) start population.clients

/-- Who asks: `IsAnOper`, `IsAdmin` and `ShowChannel`. -/
structure Requester where
  isAnOper : Bool
  isAdmin : Bool
  showChannel : Channel → Bool

/-- The channel is not shown to the operator. -/
def Opts.conceals (opts : Opts) (sptr : Requester) : Bool :=
  opts.countonly || (!sptr.isAdmin && opts.chptr.any fun chptr => !sptr.showChannel chptr)

/-- `m_rwho`. -/
def mRwho (env : Env) (population : Population) (sptr : Requester) (parv : List Text) : Except Refusal Tally := do
  if !sptr.isAnOper then .error .noPrivileges
  let opts ← rwhoParseopts env parv
  .ok (opts.search env population (opts.conceals sptr))

/-- What the flags ask of a user, apart from those about its address. -/
structure Opts.Wants (opts : Opts) (env : Env) (cptr : Client) : Prop where
  away : (.away ∈ opts.pos.check → cptr.away.isSome) ∧ (.away ∈ opts.neg.check → cptr.away = none)
  channel : .channel ∈ opts.pos.check → ∃ chptr, opts.chptr = some chptr ∧ chptr.chptr ∈ cptr.channels
  host : (.host ∈ opts.pos.check → opts.pos.hostMatches cptr.host = true) ∧
    (.host ∈ opts.neg.check → opts.neg.hostMatches cptr.host = false)
  ip : (.ip ∈ opts.pos.check → opts.pos.ipMatches cptr = true) ∧ (.ip ∈ opts.neg.check → opts.neg.ipMatches cptr = false)
  joins : (.joins ∈ opts.pos.check → opts.pos.joined ≤ cptr.joined) ∧
    (.joins ∈ opts.neg.check → cptr.joined ≤ opts.neg.joined)
  modes : (.modes ∈ opts.pos.check → opts.pos.umodes ⊆ cptr.umode) ∧
    (.modes ∈ opts.neg.check → Disjoint cptr.umode opts.neg.umodes)
  server : (.server ∈ opts.pos.check → opts.server = some cptr.uplink) ∧
    (.server ∈ opts.neg.check → opts.server ≠ some cptr.uplink)
  ts : (.ts ∈ opts.pos.check → cptr.tsinfo ≤ opts.pos.ts) ∧ (.ts ∈ opts.neg.check → opts.neg.ts ≤ cptr.tsinfo)
  stype : (.stype ∈ opts.pos.check → cptr.servicetype = opts.stype) ∧
    (.stype ∈ opts.neg.check → cptr.servicetype ≠ opts.stype)
  nprob : (.nprob ∈ opts.pos.check → opts.pos.nickprob ≤ (env.probabilities opts.charsets cptr).1) ∧
    (.nprob ∈ opts.neg.check → (env.probabilities opts.charsets cptr).1 ≤ opts.neg.nickprob)
  uprob : (.uprob ∈ opts.pos.check → opts.pos.userprob ≤ (env.probabilities opts.charsets cptr).2.1) ∧
    (.uprob ∈ opts.neg.check → (env.probabilities opts.charsets cptr).2.1 ≤ opts.neg.userprob)
  gprob : (.gprob ∈ opts.pos.check → opts.pos.gcosprob ≤ (env.probabilities opts.charsets cptr).2.2) ∧
    (.gprob ∈ opts.neg.check → (env.probabilities opts.charsets cptr).2.2 ≤ opts.neg.gcosprob)
  re : ∀ re, opts.re = some re → re (opts.subject cptr) = true

/-- A test that does not return 0. -/
theorem passes_iff {asked : Prop} [Decidable asked] {bad : Bool} : (!(decide asked && bad)) = true ↔
    (asked → bad = false) := by
  cases bad <;> simp

theorem any_channel_iff (opts : Opts) (cptr : Client) : opts.chptr.any (cptr.channels.contains ·.chptr) = true ↔
    ∃ chptr, opts.chptr = some chptr ∧ chptr.chptr ∈ cptr.channels := by
  cases opts.chptr <;> simp

theorem any_re_iff (opts : Opts) (cptr : Client) : (!opts.re.any fun re => !re (opts.subject cptr)) = true ↔
    ∀ re, opts.re = some re → re (opts.subject cptr) = true := by
  cases opts.re <;> simp

theorem rwhoMatch_iff (opts : Opts) (env : Env) (cptr : Client) : opts.rwhoMatch env cptr = true ↔ opts.Wants env cptr := by
  simp only [Opts.rwhoMatch, Opts.fails, List.all_cons, List.all_nil, Bool.and_true, Bool.and_eq_true, passes_iff,
    ne_eq, not_not, Finset.inter_eq_right, ← Finset.disjoint_iff_inter_eq_empty, any_channel_iff, any_re_iff,
    decide_eq_false_iff_not, not_lt, gt_iff_lt,
    bne_eq_false_iff_eq, beq_eq_false_iff_ne, Bool.not_eq_false', Option.isNone_eq_false_iff, Option.isSome_eq_false_iff,
    Option.isNone_iff_eq_none]
  constructor
  · rintro ⟨server, server', ts, ts', away, away', stype, stype', joins, joins', modes, modes', channel, ip, ip', host,
      host', nprob, nprob', uprob, uprob', gprob, gprob', re⟩
    exact {
      away := ⟨away, away'⟩
      channel
      host := ⟨host, host'⟩
      ip := ⟨ip, ip'⟩
      joins := ⟨joins, joins'⟩
      modes := ⟨modes, modes'⟩
      server := ⟨fun asked => (server asked).symm, fun asked same => server' asked same.symm⟩
      ts := ⟨ts, ts'⟩
      stype := ⟨stype, stype'⟩
      nprob := ⟨nprob, nprob'⟩
      uprob := ⟨uprob, uprob'⟩
      gprob := ⟨gprob, gprob'⟩
      re }
  · intro wants
    exact ⟨fun asked => (wants.server.1 asked).symm, fun asked => (wants.server.2 asked).symm, wants.ts.1, wants.ts.2,
      wants.away.1, wants.away.2, wants.stype.1, wants.stype.2, wants.joins.1, wants.joins.2, wants.modes.1,
      wants.modes.2, wants.channel, wants.ip.1, wants.ip.2, wants.host.1, wants.host.2, wants.nprob.1, wants.nprob.2,
      wants.uprob.1, wants.uprob.2, wants.gprob.1, wants.gprob.2, wants.re⟩

instance (opts : Opts) (env : Env) (cptr : Client) : Decidable (opts.Wants env cptr) :=
  decidable_of_iff _ (rwhoMatch_iff opts env cptr)

/-- The registered users. -/
def Population.users (population : Population) : List Client := population.clients.filter Client.isClient

def Population.onAddress (population : Population) (ip : Address) : List Client :=
  population.users.filter fun cptr => cptr.ip == ip

/-- All conditions: those of the user, and those about its address. -/
def Opts.selects (opts : Opts) (env : Env) (population : Population) (cptr : Client) : Bool :=
  let clones : Int := (population.onAddress cptr.ip).length
  let matched : Int := (population.onAddress cptr.ip).countP fun other => opts.Wants env other
  opts.Wants env cptr ∧
    (.clones ∈ opts.pos.check → opts.pos.clones ≤ clones) ∧ (.clones ∈ opts.neg.check → clones ≤ opts.neg.clones) ∧
    (.matched ∈ opts.pos.check → opts.pos.matched ≤ matched) ∧ (.matched ∈ opts.neg.check → matched ≤ opts.neg.matched)

/-- A user is reported once, or once for its address in a summary. -/
def Opts.key (opts : Opts) (cptr : Client) : Address ⊕ Client := if .matched ∈ opts.rplfields then .inl cptr.ip else .inr cptr

/-- The lists that the loops go through fit together. -/
structure Population.Sound (population : Population) (env : Env) : Prop where
  distinct : population.clients.Nodup
  cloned : ∀ ce ∈ population.clonesList, ce.clients ≠ [] →
    ∃ ip, ip ≠ 0 ∧ ce.clients.Perm (population.onAddress ip) ∧ ce.gcount = ce.clients.length
  listed : ∀ cptr ∈ population.users, cptr.ip ≠ 0 → ∃ ce ∈ population.clonesList, cptr ∈ ce.clients
  apart : population.clonesList.Pairwise fun first second => ∀ cptr ∈ first.clients, cptr ∉ second.clients
  joined : ∀ name chptr, env.findChannel name = some chptr →
    chptr.members.Nodup ∧ ∀ cptr, cptr ∈ chptr.members ↔ cptr ∈ population.users ∧ chptr.chptr ∈ cptr.channels

/-- What is reported, and counted, is what is wanted. -/
structure Opts.Exact (opts : Opts) (env : Env) (population : Population) (countonly : Bool) (tally : Tally) : Prop where
  count : tally.results = Answer.due opts.key (opts.selects env population) population.users
  sent : if countonly then tally.sent = [] else Answer.Covers opts.key
    (opts.selects env population) population.users tally.sent

/-- Every user that meets the conditions has a known address. -/
def Opts.Known (opts : Opts) (env : Env) (population : Population) : Prop :=
  ∀ cptr ∈ population.users, opts.selects env population cptr = true → cptr.ip ≠ 0

/-- Several reports. -/
def Tally.reportAll (countonly : Bool) (tally : Tally) (found : List Client) : Tally where
  sent := if countonly then tally.sent else tally.sent ++ found
  results := tally.results + found.length
  left := tally.left - found.length

theorem Tally.reportAll_nil (countonly : Bool) (tally : Tally) : tally.reportAll countonly [] = tally := by
  cases countonly <;> simp [Tally.reportAll]

theorem Tally.reportAll_append (countonly : Bool) (tally : Tally) (first second : List Client) :
    (tally.reportAll countonly first).reportAll countonly second = tally.reportAll countonly (first ++ second) := by
  cases countonly <;> simp [Tally.reportAll, Nat.add_assoc, Nat.sub_sub]

theorem Tally.report_eq (countonly : Bool) (tally : Tally) (ac : Client) :
    tally.report countonly ac = tally.reportAll countonly [ac] := rfl

/-- A loop reports the matches as far as there is room. -/
theorem report_eq (countonly : Bool) (matched : Client → Bool) (tally : Tally) (clients : List Client) :
    report countonly matched tally clients = tally.reportAll countonly ((clients.filter matched).take tally.left) := by
  induction clients generalizing tally with
  | nil => simp [report, Tally.reportAll_nil]
  | cons ac rest ih =>
    unfold report
    cases hit : matched ac with
    | false =>
      rw [List.filter_cons_of_neg (by simp [hit])]
      exact ih tally
    | true =>
      rw [List.filter_cons_of_pos hit]
      simp only [Bool.not_true, Bool.false_eq_true, if_false]
      split
      next full => rw [full, List.take_zero, Tally.reportAll_nil]
      next room =>
        obtain ⟨left, more⟩ := Nat.exists_eq_succ_of_ne_zero room
        rw [ih, more, List.take_succ_cons, Tally.report_eq, Tally.reportAll_append]
        have after : (tally.reportAll countonly [ac]).left = left := by simp [Tally.reportAll, more]
        rw [after, List.singleton_append]

/-- What an address adds. -/
def Opts.found (opts : Opts) (matched : Client → Bool) (ce : CloneEnt) : List Client :=
  if opts.skips matched ce then []
  else if .matched ∈ opts.rplfields then (ce.clients.find? matched).toList
  else ce.clients.filter matched

theorem reportAll_take (countonly : Bool) (tally : Tally) (first second : List Client) :
    (tally.reportAll countonly (first.take tally.left)).reportAll countonly
        (second.take (tally.reportAll countonly (first.take tally.left)).left) =
      tally.reportAll countonly ((first ++ second).take tally.left) := by
  have room : (tally.reportAll countonly (first.take tally.left)).left = tally.left - first.length := by
    simp only [Tally.reportAll, List.length_take]
    omega
  rw [room, Tally.reportAll_append, List.take_append]

theorem cloneLoop_eq (opts : Opts) (countonly : Bool) (matched : Client → Bool) (tally : Tally) (clonesList : List CloneEnt) :
    cloneLoop opts countonly matched tally clonesList =
      tally.reportAll countonly ((clonesList.flatMap (opts.found matched)).take tally.left) := by
  induction clonesList generalizing tally with
  | nil => simp [cloneLoop, Tally.reportAll_nil]
  | cons ce rest ih =>
    rw [List.flatMap_cons, ← reportAll_take, cloneLoop, Opts.found]
    split
    next => rw [List.take_nil, Tally.reportAll_nil, ih]
    next =>
      split
      next =>
        split
        next full => simp only [full, List.take_zero, Tally.reportAll_nil]
        next room =>
          cases ce.clients.find? matched with
          | none => simp only [Option.toList_none, List.take_nil, Tally.reportAll_nil, ih]
          | some fm =>
            have one : [fm].take tally.left = [fm] := List.take_of_length_le (by simp only [List.length_singleton]; omega)
            simp only [Option.toList_some, one, ih, Tally.report_eq]
      next =>
        simp only [report_eq]
        split
        next full => rw [full, List.take_zero, Tally.reportAll_nil]
        next => rw [ih]

section Paths

variable {opts : Opts} {env : Env} {population : Population}

theorem mem_onAddress : cptr ∈ population.onAddress ip ↔ cptr ∈ population.users ∧ cptr.ip = ip := by
  simp [Population.onAddress]

/-- The clients of an entry are the users from its address. -/
theorem Population.Sound.entry (sound : population.Sound env) (member : ce ∈ population.clonesList)
    (here : cptr ∈ ce.clients) :
    cptr ∈ population.users ∧ cptr.ip ≠ 0 ∧ ce.clients.Perm (population.onAddress cptr.ip) ∧
      ce.gcount = ce.clients.length := by
  obtain ⟨ip, known, perm, gcount⟩ := sound.cloned ce member (List.ne_nil_of_mem here)
  obtain ⟨user, rfl⟩ := mem_onAddress.mp (perm.mem_iff.mp here)
  exact ⟨user, known, perm, gcount⟩

/-- A user of an entry is wanted when it matches and the entry is not skipped. -/
theorem selects_entry (sound : population.Sound env) (member : ce ∈ population.clonesList) (here : cptr ∈ ce.clients) :
    opts.selects env population cptr = true ↔
      opts.rwhoMatch env cptr = true ∧ opts.skips (opts.rwhoMatch env) ce = false := by
  obtain ⟨-, -, perm, gcount⟩ := sound.entry member here
  have counted : (population.onAddress cptr.ip).countP (fun other => opts.Wants env other) =
      ce.clients.countP (opts.rwhoMatch env) := by
    rw [perm.countP_eq]
    refine List.countP_congr fun other _ => ?_
    rw [decide_eq_true_iff, rwhoMatch_iff]
  have filled : ce.clients.isEmpty = false := by
    rw [List.isEmpty_eq_false_iff]
    exact List.ne_nil_of_mem here
  rw [rwhoMatch_iff]
  simp only [Opts.selects, Opts.skips, counted, ← perm.length_eq, gcount, filled, decide_eq_true_eq, Bool.false_or,
    Bool.or_eq_false_iff, Bool.and_eq_false_iff, decide_eq_false_iff_not, not_lt, gt_iff_lt, ← imp_iff_not_or, and_assoc]
  refine and_congr_right fun wants => and_congr_right fun _ => and_congr_right fun _ => ?_
  have some' : 0 < ce.clients.countP (opts.rwhoMatch env) :=
    List.countP_pos_iff.mpr ⟨cptr, here, (rwhoMatch_iff opts env cptr).mpr wants⟩
  constructor
  · rintro ⟨pos, neg⟩
    exact .inr ⟨by omega, pos, neg⟩
  · rintro (⟨noPos, noNeg, -⟩ | ⟨-, pos, neg⟩)
    · exact ⟨fun asked => absurd asked noPos, fun asked => absurd asked noNeg⟩
    · exact ⟨pos, neg⟩

theorem mem_found (matched : Client → Bool) (ce : CloneEnt) (member : cptr ∈ opts.found matched ce) :
    cptr ∈ ce.clients ∧ matched cptr = true ∧ opts.skips matched ce = false := by
  unfold Opts.found at member
  split at member
  next => cases member
  next kept =>
    have kept' := Bool.eq_false_iff.mpr kept
    split at member
    next =>
      have first := Option.mem_toList.mp member
      exact ⟨List.mem_of_find?_eq_some first, List.find?_some first, kept'⟩
    next =>
      obtain ⟨here, hit⟩ := List.mem_filter.mp member
      exact ⟨here, hit, kept'⟩

theorem key_ip (same : opts.key first = opts.key second) : first.ip = second.ip := by
  unfold Opts.key at same
  split at same
  next => exact Sum.inl.inj same
  next => rw [Sum.inr.inj same]

theorem key_inj (plain : .matched ∉ opts.rplfields) (same : opts.key first = opts.key second) : first = second := by
  simp only [Opts.key, if_neg plain] at same
  exact Sum.inr.inj same

/-- Going through the addresses finds the wanted users that have one. -/
theorem covers_byAddress (sound : population.Sound env) :
    Answer.Covers opts.key (fun cptr => opts.selects env population cptr && cptr.ip != 0) population.users
      (population.clonesList.flatMap (opts.found (opts.rwhoMatch env))) := by
  constructor
  case once =>
    rw [List.map_flatMap, List.nodup_flatMap]
    constructor
    · intro ce member
      have distinct : ce.clients.Nodup := by
        cases clients : ce.clients with
        | nil => exact List.nodup_nil
        | cons cptr rest =>
          rw [← clients, (sound.entry member (clients ▸ List.mem_cons_self ..)).2.2.1.nodup_iff]
          exact (sound.distinct.filter _).filter _
      unfold Opts.found
      split
      next => exact List.nodup_nil
      next =>
        split
        next => cases ce.clients.find? (opts.rwhoMatch env) <;> simp
        next plain =>
          exact (distinct.filter _).map_on fun _ _ _ _ same => key_inj plain same
    · refine sound.apart.imp_of_mem ?_
      intro first second memberFirst memberSecond apart
      simp only [Function.onFun, List.disjoint_left, List.mem_map]
      rintro _ ⟨cptr, here, rfl⟩ ⟨other, there, same⟩
      have mine := (mem_found _ first here).1
      have theirs := (mem_found _ second there).1
      obtain ⟨user, -⟩ := sound.entry memberSecond theirs
      refine apart other ?_ theirs
      rw [(sound.entry memberFirst mine).2.2.1.mem_iff, mem_onAddress]
      exact ⟨user, key_ip same⟩
  case sound =>
    intro cptr found
    obtain ⟨ce, member, here⟩ := List.mem_flatMap.mp found
    obtain ⟨listed, hit, kept⟩ := mem_found _ ce here
    obtain ⟨user, known, -⟩ := sound.entry member listed
    refine ⟨user, ?_⟩
    rw [(selects_entry sound member listed).mpr ⟨hit, kept⟩, Bool.true_and, bne_iff_ne]
    exact known
  case complete =>
    intro cptr user want
    obtain ⟨selects, known⟩ := Bool.and_eq_true_iff.mp want
    obtain ⟨ce, member, listed⟩ := sound.listed cptr user (bne_iff_ne.mp known)
    obtain ⟨hit, kept⟩ := (selects_entry sound member listed).mp selects
    by_cases summary : .matched ∈ opts.rplfields
    · obtain ⟨fm, first⟩ := Option.isSome_iff_exists.mp (List.find?_isSome.mpr ⟨cptr, listed, hit⟩)
      have there := List.mem_of_find?_eq_some first
      refine ⟨fm, List.mem_flatMap.mpr ⟨ce, member, ?_⟩, ?_⟩
      · simp [Opts.found, kept, summary, first]
      · have same : fm.ip = cptr.ip := (mem_onAddress.mp ((sound.entry member listed).2.2.1.mem_iff.mp there)).2
        simp [Opts.key, summary, same]
    · refine ⟨cptr, List.mem_flatMap.mpr ⟨ce, member, ?_⟩, rfl⟩
      simp [Opts.found, kept, summary, listed, hit]

/-- Without the flags d and D the address does not count. -/
theorem selects_direct (direct : opts.byAddress = false) (cptr : Client) :
    opts.selects env population cptr = opts.rwhoMatch env cptr := by
  simp only [Opts.byAddress, Bool.or_eq_false_iff, decide_eq_false_iff_not] at direct
  obtain ⟨⟨⟨⟨⟨clones, clones'⟩, matched⟩, matched'⟩, -⟩, -⟩ := direct
  rw [Bool.eq_iff_iff, rwhoMatch_iff]
  simp [Opts.selects, clones, clones', matched, matched']

theorem not_summary (direct : opts.byAddress = false) : .matched ∉ opts.rplfields := by
  simp only [Opts.byAddress, Bool.or_eq_false_iff, decide_eq_false_iff_not] at direct
  exact direct.2

/-- The list of all clients has the users once each. -/
theorem covers_list (sound : population.Sound env) (direct : opts.byAddress = false) :
    Answer.Covers opts.key (opts.selects env population) population.users
      (population.clients.filter fun ac => ac.isClient && opts.rwhoMatch env ac) := by
  have users : population.clients.filter (fun ac => ac.isClient && opts.rwhoMatch env ac) =
      population.users.filter (opts.selects env population) := by
    rw [Population.users, List.filter_filter]
    refine List.filter_congr fun ac _ => ?_
    rw [selects_direct direct, Bool.and_comm]
  rw [users]
  exact Answer.Covers.of_filter (sound.distinct.filter _) fun _ _ _ _ same => key_inj (not_summary direct) same

/-- The channel path leaves one test to the list of the members. -/
theorem anyChannel_match (asked : .channel ∈ opts.pos.check) (here : opts.chptr = some chptr) (cptr : Client) :
    opts.rwhoMatch env cptr = true ↔ chptr.chptr ∈ cptr.channels ∧ opts.anyChannel.rwhoMatch env cptr = true := by
  have kept {check : Check} (other : check ≠ .channel) : check ∈ opts.anyChannel.pos.check ↔ check ∈ opts.pos.check := by
    simp [Opts.anyChannel, other]
  rw [rwhoMatch_iff, rwhoMatch_iff]
  constructor
  · intro wants
    obtain ⟨chptr', there, member⟩ := wants.channel asked
    obtain rfl : chptr = chptr' := Option.some.inj (here.symm.trans there)
    refine ⟨member, ?_⟩
    constructor
    case channel =>
      intro wanted
      simp [Opts.anyChannel] at wanted
    case away => exact ⟨fun asked => wants.away.1 ((kept (by decide)).mp asked), wants.away.2⟩
    case host => exact ⟨fun asked => wants.host.1 ((kept (by decide)).mp asked), wants.host.2⟩
    case ip => exact ⟨fun asked => wants.ip.1 ((kept (by decide)).mp asked), wants.ip.2⟩
    case joins => exact ⟨fun asked => wants.joins.1 ((kept (by decide)).mp asked), wants.joins.2⟩
    case modes => exact ⟨fun asked => wants.modes.1 ((kept (by decide)).mp asked), wants.modes.2⟩
    case server => exact ⟨fun asked => wants.server.1 ((kept (by decide)).mp asked), wants.server.2⟩
    case ts => exact ⟨fun asked => wants.ts.1 ((kept (by decide)).mp asked), wants.ts.2⟩
    case stype => exact ⟨fun asked => wants.stype.1 ((kept (by decide)).mp asked), wants.stype.2⟩
    case nprob => exact ⟨fun asked => wants.nprob.1 ((kept (by decide)).mp asked), wants.nprob.2⟩
    case uprob => exact ⟨fun asked => wants.uprob.1 ((kept (by decide)).mp asked), wants.uprob.2⟩
    case gprob => exact ⟨fun asked => wants.gprob.1 ((kept (by decide)).mp asked), wants.gprob.2⟩
    case re => exact wants.re
  · rintro ⟨member, wants⟩
    constructor
    case channel => exact fun _ => ⟨chptr, here, member⟩
    case away => exact ⟨fun asked => wants.away.1 ((kept (by decide)).mpr asked), wants.away.2⟩
    case host => exact ⟨fun asked => wants.host.1 ((kept (by decide)).mpr asked), wants.host.2⟩
    case ip => exact ⟨fun asked => wants.ip.1 ((kept (by decide)).mpr asked), wants.ip.2⟩
    case joins => exact ⟨fun asked => wants.joins.1 ((kept (by decide)).mpr asked), wants.joins.2⟩
    case modes => exact ⟨fun asked => wants.modes.1 ((kept (by decide)).mpr asked), wants.modes.2⟩
    case server => exact ⟨fun asked => wants.server.1 ((kept (by decide)).mpr asked), wants.server.2⟩
    case ts => exact ⟨fun asked => wants.ts.1 ((kept (by decide)).mpr asked), wants.ts.2⟩
    case stype => exact ⟨fun asked => wants.stype.1 ((kept (by decide)).mpr asked), wants.stype.2⟩
    case nprob => exact ⟨fun asked => wants.nprob.1 ((kept (by decide)).mpr asked), wants.nprob.2⟩
    case uprob => exact ⟨fun asked => wants.uprob.1 ((kept (by decide)).mpr asked), wants.uprob.2⟩
    case gprob => exact ⟨fun asked => wants.gprob.1 ((kept (by decide)).mpr asked), wants.gprob.2⟩
    case re => exact wants.re

theorem covers_channel (sound : population.Sound env) (direct : opts.byAddress = false) (asked : .channel ∈ opts.pos.check)
    (here : opts.chptr = some chptr) (found : env.findChannel name = some chptr) :
    Answer.Covers opts.key (opts.selects env population) population.users
      (chptr.members.filter (opts.anyChannel.rwhoMatch env)) := by
  obtain ⟨distinct, members⟩ := sound.joined name chptr found
  have plain := not_summary direct
  constructor
  case once => exact (distinct.filter _).map_on fun _ _ _ _ same => key_inj plain same
  case sound =>
    intro cptr listed
    obtain ⟨member, hit⟩ := List.mem_filter.mp listed
    obtain ⟨user, joined⟩ := (members cptr).mp member
    exact ⟨user, (selects_direct direct cptr).trans ((anyChannel_match asked here cptr).mpr ⟨joined, hit⟩)⟩
  case complete =>
    intro cptr user want
    rw [selects_direct direct, anyChannel_match asked here] at want
    exact ⟨cptr, List.mem_filter.mpr ⟨(members cptr).mpr ⟨user, want.1⟩, want.2⟩, rfl⟩

/-- All that the loop of the options comes to. -/
def Opts.candidates (opts : Opts) (env : Env) (population : Population) : List Client :=
  if opts.byAddress then population.clonesList.flatMap (opts.found (opts.rwhoMatch env))
  else
    match opts.chptr with
    | some chptr => chptr.members.filter (opts.anyChannel.rwhoMatch env)
    | none => population.clients.filter fun ac => ac.isClient && opts.rwhoMatch env ac

theorem search_eq (opts : Opts) (env : Env) (population : Population) (countonly : Bool) (unlimited : opts.limit = 0) :
    opts.search env population countonly =
      Tally.reportAll countonly ⟨[], 0, intMax⟩ ((opts.candidates env population).take intMax) := by
  simp only [Opts.search, Opts.candidates, unlimited, ne_eq, not_true_eq_false, if_false]
  split
  next => exact cloneLoop_eq ..
  next => cases opts.chptr <;> exact report_eq ..

theorem covers_candidates (sound : population.Sound env) (channelled : opts.Channelled env) :
    Answer.Covers opts.key (fun cptr => opts.selects env population cptr && (!opts.byAddress || cptr.ip != 0))
      population.users (opts.candidates env population) := by
  unfold Opts.candidates
  cases direct : opts.byAddress with
  | true => exact covers_byAddress sound
  | false =>
    simp only [Bool.not_false, Bool.true_or, Bool.and_true, Bool.false_eq_true, if_false]
    cases here : opts.chptr with
    | none => exact covers_list sound direct
    | some chptr =>
      obtain ⟨asked, name, found⟩ := channelled chptr here
      exact covers_channel sound direct asked here found

/-- The search is exact when every user that meets the conditions has a known address, or
the loop over the addresses is not taken, and there are no more results than an `int` can count. -/
theorem search_exact_iff (sound : population.Sound env) (channelled : opts.Channelled env) (unlimited : opts.limit = 0)
    (countonly : Bool) :
    opts.Exact env population countonly (opts.search env population countonly) ↔
      (opts.byAddress = true → opts.Known env population) ∧
        Answer.due opts.key (opts.selects env population) population.users ≤ intMax := by
  have covers := covers_candidates sound channelled
  have told : ∀ cptr other, opts.key cptr = opts.key other →
      (!opts.byAddress || cptr.ip != 0) = (!opts.byAddress || other.ip != 0) := by
    intro cptr other same
    rw [key_ip same]
  have known : Answer.due opts.key (opts.selects env population) population.users ≤
      Answer.due opts.key (fun cptr => opts.selects env population cptr && (!opts.byAddress || cptr.ip != 0))
        population.users ↔ ∀ cptr ∈ population.users, opts.selects env population cptr = true →
          (!opts.byAddress || cptr.ip != 0) = true := Answer.due_known_iff told
  have every : (∀ cptr ∈ population.users, opts.selects env population cptr = true →
      (!opts.byAddress || cptr.ip != 0) = true) ↔ (opts.byAddress = true → opts.Known env population) := by
    cases opts.byAddress <;> simp [Opts.Known]
  rw [search_eq opts env population countonly unlimited, ← every, ← known]
  constructor
  · intro exact'
    have count := exact'.count
    simp only [Tally.reportAll, Nat.zero_add, List.length_take, covers.length] at count
    omega
  · rintro ⟨enough, room⟩
    have every' := known.mp enough
    have covers' : Answer.Covers opts.key (opts.selects env population) population.users (opts.candidates env population) :=
      covers.congr fun cptr user => by
        cases want : opts.selects env population cptr with
        | false => rfl
        | true => rw [every' cptr user want, Bool.and_self]
    have all : (opts.candidates env population).take intMax = opts.candidates env population :=
      List.take_of_length_le (by rw [covers'.length]; exact room)
    rw [all]
    constructor
    · simp only [Tally.reportAll, Nat.zero_add, covers'.length]
    · cases countonly with
      | true => simp [Tally.reportAll]
      | false => simpa [Tally.reportAll] using covers'

end Paths

/-- RWHO without a limit reports each user that meets all conditions, once or once for each
address in a summary, and counts them, exactly when it does not go through the addresses or no
such user lacks one. -/
theorem rwho_exact (parsed : rwhoParseopts env parv = .ok opts) (unlimited : opts.limit = 0) (sound : population.Sound env)
    (oper : sptr.isAnOper = true) :
    ∃ tally, mRwho env population sptr parv = .ok tally ∧
      (opts.Exact env population (opts.conceals sptr) tally ↔
        (opts.byAddress = true → opts.Known env population) ∧
          Answer.due opts.key (opts.selects env population) population.users ≤ intMax) := by
  refine ⟨opts.search env population (opts.conceals sptr), ?_, ?_⟩
  · simp only [mRwho, oper, Bool.not_true, Bool.false_eq_true, if_false, parsed]
    rfl
  · exact search_exact_iff sound (rwhoParseopts_channelled parsed) unlimited _

def quietEnv : Env where
  now := 0
  build := ⟨false, false, false⟩
  findChannel _ := none
  findServer _ := none
  loadsets _ := false
  probabilities _ _ := (0, 0, 0)
  compile _ := none

/-- A user whose address is known, and one whose address is not, as of an operator who is masked. -/
def ann : Client := ⟨1, true, "ann".toList, "ann".toList, "Ann".toList, "a.example".toList, "10.0.0.1".toList, 0x0a000001#32,
  none, 0, 0, 0, 0, ∅, []⟩

def bob : Client := ⟨2, true, "bob".toList, "bob".toList, "Bob".toList, "b.example".toList, "0.0.0.0".toList, 0,
  none, 0, 0, 0, 0, ∅, []⟩

def twoUsers : Population := ⟨[ann, bob], [⟨1, [ann]⟩]⟩

theorem twoUsers_sound : twoUsers.Sound quietEnv where
  distinct := by decide
  cloned := by
    intro ce member _
    obtain rfl := List.mem_singleton.mp member
    exact ⟨0x0a000001#32, by decide, by decide, rfl⟩
  listed := by
    intro cptr member known
    obtain rfl | rfl : cptr = ann ∨ cptr = bob := by simpa [twoUsers] using List.mem_of_mem_filter member
    · exact ⟨_, List.mem_singleton_self _, List.mem_singleton_self _⟩
    · exact absurd rfl known
  apart := List.pairwise_singleton _ _
  joined := by
    intro name chptr found
    cases found

/-- An option string with output flags only. -/
theorem parsed_outputs (env : Env) (written : ({} : Opts).outputs sfl = .ok opts) (clash : opts.clash = none)
    (plain : opts.spat = []) : rwhoParseopts env ['/' :: sfl] = .ok opts := by
  have flags : Parser.flags env ⟨{}, false, [], []⟩ ('/' :: sfl) = .ok (⟨{}, false, [], []⟩, sfl) := rfl
  rw [rwhoParseopts, if_neg (by simp), flags]
  simp only [bind, Except.bind, written, clash, plain, if_true]

theorem parsed_nick : rwhoParseopts quietEnv ["/n".toList] = .ok { rplfields := [.nick] } := by
  have written : ({} : Opts).outputs ['n'] = .ok { rplfields := [.nick] } := by simp [Opts.outputs, outputField]
  exact parsed_outputs quietEnv written rfl rfl

theorem parsed_clones : rwhoParseopts quietEnv ["/nd".toList] = .ok { rplfields := [.clones, .nick] } := by
  have written : ({} : Opts).outputs ['n', 'd'] = .ok { rplfields := [.clones, .nick] } := by
    simp [Opts.outputs, outputField]
  exact parsed_outputs quietEnv written rfl rfl

def operator : Requester := ⟨true, false, fun _ => false⟩

theorem rwho_exact_nick : ∃ tally, mRwho quietEnv twoUsers operator ["/n".toList] = .ok tally ∧
    Opts.Exact { rplfields := [.nick] } quietEnv twoUsers false tally := by
  obtain ⟨tally, searched, exact'⟩ := rwho_exact parsed_nick rfl twoUsers_sound (rfl : operator.isAnOper = true)
  refine ⟨tally, searched, exact'.mpr ⟨?_, by decide⟩⟩
  intro byAddress
  cases byAddress

/-- With the number of clones among the fields the second user is not reported. -/
theorem shown_clones_hide_users : mRwho quietEnv twoUsers operator ["/n".toList] = .ok ⟨[ann, bob], 2, 2147483645⟩ ∧
    mRwho quietEnv twoUsers operator ["/nd".toList] = .ok ⟨[ann], 1, 2147483646⟩ ∧
      ¬ Opts.Exact { rplfields := [.clones, .nick] } quietEnv twoUsers false ⟨[ann], 1, 2147483646⟩ := by
  refine ⟨?_, ?_, ?_⟩
  · simp only [mRwho, parsed_nick]
    decide
  · simp only [mRwho, parsed_clones]
    decide
  · intro exact'
    exact absurd exact'.count (by decide)

end SolidIrcd.Rwho
