import SolidIrcd.Lib.Answer
import SolidIrcd.Who.WhoRequest

/-! WHO: `chk_who` and `m_who` of `m_who.c`, and when the users that are listed are those that
are asked for. -/

namespace SolidIrcd.Who

open Scan (Text)
open Umode (UModes)

def Client.isAnOper (cptr : Client) : Bool := .o ∈ cptr.umode ∨ .O ∈ cptr.umode

def Client.isOper (cptr : Client) : Bool := .o ∈ cptr.umode

/-- `IsSAdmin`. -/
def Client.isSAdmin (cptr : Client) : Bool := .a ∈ cptr.umode

def Client.isAdmin (cptr : Client) : Bool := .A ∈ cptr.umode

def Client.isInvisible (cptr : Client) : Bool := .i ∈ cptr.umode

def Client.isUmodeW (cptr : Client) : Bool := .W ∈ cptr.umode

/-- A pattern with a sign that does not fit. -/
def misses (plus : Bool) (pattern : Option Text) (fits : Text → Bool) : Bool :=
  pattern.any fun pattern => plus && !fits pattern || !plus && fits pattern

/-- The tests of `chk_who` that return 0, in their order. -/
def SOpts.fails (wsopts : SOpts) (env : Env) (showall : Bool) (ac : Client) : List Bool :=
  let has := decide (wsopts.umodes ⊆ ac.umode)
  [!ac.isClient,
    ac.isInvisible && !showall,
    wsopts.clientTypePlus && wsopts.clientType != ac.servicetype,
    wsopts.checkUmode && (wsopts.umodePlus && !has || !wsopts.umodePlus && has),
    wsopts.checkAway && (wsopts.awayPlus && ac.away.isNone || !wsopts.awayPlus && ac.away.isSome),
    wsopts.servPlus && wsopts.server != some ac.uplink,
    -- don't let people find hidden opers via /who +s server
    wsopts.servPlus && ac.isUmodeW && !showall,
    misses wsopts.userPlus wsopts.user fun user => chkfn user ac.username,
    misses wsopts.nickPlus wsopts.nick fun nick => chkfn nick ac.name,
    misses wsopts.hostPlus wsopts.host fun host => chkfn host ac.host || chkfn host ac.realhost,
    wsopts.cidr4Plus && ac.ip &&& wsopts.cidr4Mask != wsopts.cidr4Ip,
    wsopts.ipPlus && wsopts.ip.any fun ip => !chkfn ip ac.hostip,
    misses wsopts.gcosPlus wsopts.gcos fun gcos => chkfn gcos ac.info,
    wsopts.tsValue == 2 && decide (env.now - ac.tsinfo < wsopts.ts),
    wsopts.tsValue == 1 && decide (wsopts.ts ≤ env.now - ac.tsinfo)]

/-- `chk_who`. -/
def SOpts.chkWho (wsopts : SOpts) (env : Env) (showall : Bool) (ac : Client) : Bool :=
  (wsopts.fails env showall ac).all (!·)

/-- What WHO sends. -/
inductive Line where
  | whoreply (channel : Text) (ac : Client) (host server status : Text) (hopcount : Nat)
  | wholimexceed
  | endofwho (name : Text)
  deriving DecidableEq

def maxWhoReplies : Nat := 200

/-- `ShowChannel`. -/
def Channel.shown (chptr : Channel) (sptr : Client) : Bool :=
  !chptr.hidden && !chptr.secret || sptr.channels.contains chptr.chptr

/-- `first_visible_channel`. -/
def firstVisibleChannel (env : Env) (cptr sptr : Client) : Text :=
  if sptr.isAdmin then
    match cptr.channels with
    | [] => ['*']
    | first :: _ =>
      let chptr := env.channel first
      if chptr.shown sptr then chptr.chname else '%' :: chptr.chname
  else
    match cptr.channels.find? fun chptr => (env.channel chptr).shown sptr with
    | none => ['*']
    | some chptr => (env.channel chptr).chname

/-- `WHO_HOPCOUNT`. -/
def whoHopcount (sptr ac : Client) : Nat := if (ac.uline || ac.isUmodeW) && !sptr.isAnOper then 0 else ac.hopcount

/-- `WHO_SERVER`. -/
def whoServer (env : Env) (sptr ac : Client) : Text :=
  if ac.isUmodeW && !sptr.isAnOper then env.hiddenServName else ac.server

/-- `WHO_REALHOST` for an operator, and `WHO_HOST` otherwise. -/
def SOpts.whoHost (wsopts : SOpts) (sptr ac : Client) : Text :=
  if wsopts.ipShow then ac.hostip else if sptr.isAnOper then ac.realhost else ac.host

/-- Here or gone, operator or invisible. -/
def status (mayKnow : Bool) (ac : Client) : Text :=
  (if ac.away.isNone then 'H' else 'G') ::
    if ac.isAnOper then ['*'] else if ac.isInvisible && mayKnow then ['%'] else []

def Flags.sign (flags : Flags) : Text := if flags.chanop then ['@'] else if flags.voice then ['+'] else []

def SOpts.reply (wsopts : SOpts) (env : Env) (sptr : Client) (channel : Text) (ac : Client) (status : Text) : Line :=
  .whoreply channel ac (wsopts.whoHost sptr ac) (whoServer env sptr ac) status (whoHopcount sptr ac)

/-- The reply for a member of a channel. -/
def SOpts.memberReply (wsopts : SOpts) (env : Env) (sptr : Client) (chptr : Channel) (cm : Member) : Line :=
  wsopts.reply env sptr chptr.chname cm.cptr (status sptr.isOper cm.cptr ++ cm.flags.sign)

/-- The reply for a user who is not reached through a channel. -/
def SOpts.userReply (wsopts : SOpts) (env : Env) (sptr ac : Client) : Line :=
  wsopts.reply env sptr (if wsopts.showChan then firstVisibleChannel env ac sptr else ['*']) ac (status sptr.isAnOper ac)

/-- The loop over the members of the channel that is asked for. -/
def SOpts.channelLoop (wsopts : SOpts) (env : Env) (sptr : Client) (chptr : Channel)
    (showall : Bool) : List Member → List Line
  | [] => []
  | cm :: rest =>
    if !wsopts.chkWho env showall cm.cptr then wsopts.channelLoop env sptr chptr showall rest
    else if !wsopts.channelflags.fit cm.flags then wsopts.channelLoop env sptr chptr showall rest
    else wsopts.memberReply env sptr chptr cm :: wsopts.channelLoop env sptr chptr showall rest

/-- The loop over the members of one of the asker's channels, which a full count breaks. -/
def SOpts.memberLoop (wsopts : SOpts) (env : Env) (sptr : Client) (chptr : Channel) (shown : Nat) :
    List Member → List Line × Nat
  | [] => ([], shown)
  | cm :: rest =>
    if !wsopts.chkWho env true cm.cptr then wsopts.memberLoop env sptr chptr shown rest
    else if shown = maxWhoReplies ∧ !sptr.isAnOper then ([.wholimexceed], shown)
    else
      let (lines, shown) := wsopts.memberLoop env sptr chptr (shown + 1) rest
      (wsopts.memberReply env sptr chptr cm :: lines, shown)

/-- The loop over the asker's channels. -/
def SOpts.sharedLoop (wsopts : SOpts) (env : Env) (sptr : Client) (shown : Nat) : List Nat → List Line
  | [] => []
  | lp :: rest =>
    let (lines, shown) := wsopts.memberLoop env sptr (env.channel lp) shown (env.channel lp).members
    lines ++ wsopts.sharedLoop env sptr shown rest

/-- The loop over the global list. -/
def SOpts.clientLoop (wsopts : SOpts) (env : Env) (sptr : Client) (showall : Bool) (shown : Nat) : List Client → List Line
  | [] => []
  | ac :: rest =>
    if !wsopts.chkWho env showall ac then wsopts.clientLoop env sptr showall shown rest
    else if shown = maxWhoReplies ∧ !sptr.isAnOper then [.wholimexceed]
    else wsopts.userReply env sptr ac :: wsopts.clientLoop env sptr showall (shown + 1) rest

/-- `find_person`: no two users have one name. -/
def findPerson (clients : List Client) (name : Text) : Option Client :=
  clients.find? fun cptr => cptr.isClient && mycmp name cptr.name

/-- Who asks may see every member of the channel. -/
def Channel.showall (chptr : Channel) (sptr : Client) : Bool :=
  if sptr.channels.contains chptr.chptr then true
  else if chptr.secret && (sptr.isAdmin || sptr.isSAdmin) then true
  else !chptr.secret && sptr.isAnOper

/-- The name in the last line. -/
def SOpts.endName (wsopts : SOpts) (env : Env) : Text :=
  wsopts.host.getD (wsopts.nick.getD (wsopts.user.getD (wsopts.gcos.getD ((wsopts.server.map env.serverName).getD ['*']))))

/-- `m_who` behind `build_searchopts`. -/
def SOpts.search (wsopts : SOpts) (env : Env) (clients : List Client) (sptr : Client) : List Line :=
  match wsopts.channel with
  | some chptr =>
    let showall := chptr.showall sptr
    (if showall || !chptr.secret then wsopts.channelLoop env sptr chptr showall
      chptr.members else []) ++ [.endofwho chptr.chname]
  | none =>
    match wsopts.nick.filter (!isWild ·) with
    | some nick =>
      let last := [Line.endofwho (wsopts.host.getD nick)]
      match findPerson clients nick with
      | some ac => if !wsopts.chkWho env true ac then last else wsopts.userReply env sptr ac :: last
      | none => last
    | none =>
      (if wsopts.searchChan then wsopts.sharedLoop env sptr 0 sptr.channels
        else wsopts.clientLoop env sptr sptr.isAnOper 0 clients) ++ [.endofwho (wsopts.endName env)]

/-- `m_who` for a local client. -/
def mWho (env : Env) (clients : List Client) (sptr : Client) (parv : List Text) : Except Refusal (List Line) := do
  let wsopts ← buildSearchopts env sptr.isAnOper parv
  .ok (wsopts.search env clients sptr)

/-- The users that replies are about. -/
def listed (lines : List Line) : List Client :=
  lines.filterMap fun
    | .whoreply _ ac _ _ _ _ => some ac
    | _ => none

/-! What is asked for. -/

/-- With M, the user is in a channel of the one who asks. -/
def Request.isShared (request : Request) (sptr ac : Client) : Bool :=
  !request.shared || sptr.channels.any (ac.channels.contains ·)

/-- Everybody may see the user. -/
def Request.isOpen (request : Request) (ac : Client) : Bool :=
  !ac.isInvisible && !(request.server.isSome && ac.isUmodeW)

/-- A nick without wildcards. -/
def Request.exactNick (request : Request) (plus : Bool) : Bool :=
  request.nick.any fun (sign, nick) => sign == plus && !isWild nick

/-- Who asks may see the user: an invisible one in a channel that shows all, by an exact nick, in
a common channel, or as an operator. -/
def Request.sees (request : Request) (sptr ac : Client) : Bool :=
  match request.channel with
  | some (chptr, _) => chptr.showall sptr || !chptr.secret && request.isOpen ac
  | none => request.exactNick true || request.shared || sptr.isAnOper || request.isOpen ac

/-- The users that are asked for: they meet every condition. -/
def Request.selects (request : Request) (env : Env) (sptr ac : Client) : Bool :=
  request.checks.all (Check.holds env ac) && request.isShared sptr ac && request.sees sptr ac

/-- The users that what is kept of the conditions lets through. -/
def Request.passes (request : Request) (env : Env) (sptr ac : Client) : Bool :=
  request.meets env ac && request.inChannel ac && request.isShared sptr ac && request.sees sptr ac

def users (clients : List Client) : List Client := clients.filter Client.isClient

/-- The limit for those who are not operators. -/
def limit (sptr : Client) : Option Nat := if sptr.isAnOper then none else some maxWhoReplies

/-- What is listed is what is asked for. -/
def Exact (request : Request) (env : Env) (clients : List Client) (sptr : Client) (lines : List Line) : Prop :=
  Answer.Capped (limit sptr) (request.selects env sptr) (users clients) (listed lines)

/-- The request without what no test looks at: -T and -i, and M beside a channel or an exact nick. -/
def Request.lax (request : Request) : Request :=
  { request with
    type := request.type.filter Prod.fst
    ip := request.ip.filter Prod.fst
    cidr := request.cidr.filter Prod.fst
    shared := request.shared && request.channel.isNone && !request.exactNick true }

/-- No user that is asked for is listed: the modes are looked for under the wrong sign, or a nick
without wildcards is to be left out. -/
def Request.silent (request : Request) : Bool := request.crossed || request.channel.isNone && request.exactNick false

/-- The users that the lax request lets through, in the order of the lists they are in. -/
def Request.reached (request : Request) (env : Env) (clients : List Client) (sptr : Client) : List Client :=
  match request.channel with
  | some (chptr, _) => (chptr.members.map Member.cptr).filter (request.lax.passes env sptr)
  | none =>
    if request.exactNick false then []
    else if request.exactNick true then (users clients).filter (request.lax.passes env sptr)
    else Answer.upTo (limit sptr) <|
      if request.shared then
        sptr.channels.flatMap fun lp => ((env.channel lp).members.map Member.cptr).filter (request.lax.passes env sptr)
      else (users clients).filter (request.lax.passes env sptr)

/-! The loops list what passes, up to the limit. -/

@[simp] theorem listed_nil : listed [] = [] := rfl

@[simp] theorem listed_append (first second : List Line) : listed (first ++ second) = listed first ++ listed second :=
  List.filterMap_append

@[simp] theorem listed_reply (wsopts : SOpts) (env : Env) (sptr : Client) (channel : Text)
    (ac : Client) (status : Text) (rest : List Line) :
    listed (wsopts.reply env sptr channel ac status :: rest) = ac :: listed rest := rfl

@[simp] theorem listed_end (name : Text) : listed [.endofwho name] = [] := rfl

@[simp] theorem listed_limit : listed [.wholimexceed] = [] := rfl

section Loops

variable (wsopts : SOpts) (env : Env) (sptr : Client)

theorem channelLoop_listed (chptr : Channel) (showall : Bool) (members : List Member) :
    listed (wsopts.channelLoop env sptr chptr showall members) =
      (members.filter fun cm => wsopts.chkWho env showall cm.cptr && wsopts.channelflags.fit cm.flags).map Member.cptr := by
  induction members with
  | nil => rfl
  | cons cm rest ih =>
    rw [SOpts.channelLoop, List.filter_cons]
    cases passes : wsopts.chkWho env showall cm.cptr with
    | false => simpa using ih
    | true =>
      cases fits : wsopts.channelflags.fit cm.flags with
      | false => simpa using ih
      | true => simp [SOpts.memberReply, ih]

/-- What is left of the limit. -/
def room (sptr : Client) (shown : Nat) : Option Nat := (limit sptr).map (· - shown)

/-- The limit has not been passed. -/
def Within (sptr : Client) (shown : Nat) : Prop := sptr.isAnOper = true ∨ shown ≤ maxWhoReplies

variable {sptr}

theorem room_full (full : shown = maxWhoReplies ∧ (!sptr.isAnOper) = true) (items : List Client) :
    Answer.upTo (room sptr shown) items = [] := by
  obtain ⟨rfl, user⟩ := full
  simp [room, limit, Answer.upTo, (Bool.not_eq_true' _).mp user]

/-- There is room for one more. -/
theorem room_cons (within : Within sptr shown) (free :
    ¬(shown = maxWhoReplies ∧ (!sptr.isAnOper) = true)) (ac : Client) (items : List Client) :
    Answer.upTo (room sptr shown) (ac :: items) = ac :: Answer.upTo (room sptr (shown + 1)) items ∧
      Within sptr (shown + 1) := by
  unfold Within at within ⊢
  cases oper : sptr.isAnOper with
  | true => exact ⟨by simp [room, limit, Answer.upTo, oper], .inl rfl⟩
  | false =>
    simp only [oper, Bool.not_false, and_true, Bool.false_eq_true, false_or] at within free ⊢
    have more : maxWhoReplies - shown = (maxWhoReplies - (shown + 1)) + 1 := by omega
    refine ⟨?_, by omega⟩
    simp [room, limit, Answer.upTo, oper, more]

/-- What a loop over members lists, and counts. -/
theorem memberLoop_listed (chptr : Channel) (members : List Member) (within : Within sptr shown) :
    listed (wsopts.memberLoop env sptr chptr shown members).1 =
        Answer.upTo (room sptr shown) ((members.map Member.cptr).filter (wsopts.chkWho env true)) ∧
      (wsopts.memberLoop env sptr chptr shown members).2 =
        shown + (listed (wsopts.memberLoop env sptr chptr shown members).1).length ∧
      Within sptr (wsopts.memberLoop env sptr chptr shown members).2 := by
  induction members generalizing shown with
  | nil =>
    refine ⟨?_, rfl, within⟩
    cases room sptr shown <;> simp [SOpts.memberLoop, Answer.upTo]
  | cons cm rest ih =>
    rw [SOpts.memberLoop, List.map_cons, List.filter_cons]
    cases passes : wsopts.chkWho env true cm.cptr with
    | false => simpa using ih within
    | true =>
      simp only [Bool.not_true, Bool.false_eq_true, if_false, if_true]
      split
      next full =>
        rw [room_full full]
        exact ⟨rfl, rfl, within⟩
      next free =>
        obtain ⟨one, within⟩ := room_cons within free cm.cptr ((rest.map Member.cptr).filter (wsopts.chkWho env true))
        obtain ⟨found, count, within⟩ := ih within
        rw [one]
        refine ⟨?_, ?_, within⟩
        · simp only [SOpts.memberReply, listed_reply, found]
        · simp only [SOpts.memberReply, listed_reply, List.length_cons, count]
          omega

/-- What is left after a list of candidates. -/
theorem room_after (candidates : List Client) :
    room sptr (shown + (Answer.upTo (room sptr shown) candidates).length) = (room sptr shown).map
      (· - candidates.length) := by
  rw [Answer.length_upTo]
  unfold room limit
  cases sptr.isAnOper with
  | true => rfl
  | false =>
    simp only [Bool.false_eq_true, if_false, Option.map_some, Answer.cap, Option.elim_some, Option.some.injEq]
    omega

theorem sharedLoop_listed (channels : List Nat) (within : Within sptr shown) :
    listed (wsopts.sharedLoop env sptr shown channels) = Answer.upTo (room sptr shown)
      (channels.flatMap fun lp => ((env.channel lp).members.map Member.cptr).filter (wsopts.chkWho env true)) := by
  induction channels generalizing shown with
  | nil => cases room sptr shown <;> simp [SOpts.sharedLoop, Answer.upTo]
  | cons lp rest ih =>
    obtain ⟨found, count, within⟩ := memberLoop_listed wsopts env (env.channel lp) (env.channel lp).members within
    rw [SOpts.sharedLoop, List.flatMap_cons, Answer.upTo_append, listed_append, ih within, count, found, room_after]

theorem clientLoop_listed (showall : Bool) (clients : List Client) (within : Within sptr shown) :
    listed (wsopts.clientLoop env sptr showall shown clients) =
      Answer.upTo (room sptr shown) (clients.filter (wsopts.chkWho env showall)) := by
  induction clients generalizing shown with
  | nil => cases room sptr shown <;> simp [SOpts.clientLoop, Answer.upTo]
  | cons ac rest ih =>
    rw [SOpts.clientLoop, List.filter_cons]
    cases passes : wsopts.chkWho env showall ac with
    | false => simpa using ih within
    | true =>
      simp only [Bool.not_true, Bool.false_eq_true, if_false, if_true]
      split
      next full =>
        rw [room_full full]
        rfl
      next free =>
        obtain ⟨one, within⟩ := room_cons within free ac (rest.filter (wsopts.chkWho env showall))
        rw [one, SOpts.userReply, listed_reply, ih within]

theorem within_zero (sptr : Client) : Within sptr 0 := .inr (Nat.zero_le _)

theorem room_zero (sptr : Client) : room sptr 0 = limit sptr := by
  unfold room
  cases limit sptr <;> rfl

end Loops

/-! The tests are those of the lax request. -/

section Tests

theorem misses_eq {check : Option (Bool × Text)} (shown : Shown check plus pattern) (fits : Text → Bool) :
    (!misses plus pattern fits) = satisfies check fits := by
  rw [satisfies, shown.same, misses]
  cases pattern with
  | none => rfl
  | some pattern => cases plus <;> cases here : fits pattern <;> simp [here]

/-- Only the positive sign is looked at. -/
theorem untested_eq {check : Option (Bool × α)} (shown : Shown check plus value) (fits : α → Bool) :
    (!(plus && value.any fun value => !fits value)) = satisfies (check.filter Prod.fst) fits := by
  rw [satisfies, shown.same]
  cases value with
  | none => simp
  | some value => cases plus <;> cases here : fits value <;> simp [here]

variable {wsopts : SOpts} {oper : Bool} {request : Request}

theorem type_eq (shows : wsopts.Shows oper request) (ac : Client) :
    (!(wsopts.clientTypePlus && wsopts.clientType != ac.servicetype)) = satisfies request.lax.type (· == ac.servicetype) := by
  rw [Request.lax, ← untested_eq shows.type (· == ac.servicetype)]
  by_cases zero : wsopts.clientType = 0
  · have off : wsopts.clientTypePlus = false := by simpa [zero] using shows.type.given
    rw [off, Bool.false_and, Bool.false_and]
  · rw [if_neg zero]
    rfl

theorem cidr_eq (shows : wsopts.Shows oper request) (ac : Client) :
    (!(wsopts.cidr4Plus && ac.ip &&& wsopts.cidr4Mask != wsopts.cidr4Ip)) =
      satisfies request.lax.cidr fun (mask, ip) => ac.ip &&& mask == ip := by
  rw [Request.lax, ← untested_eq shows.cidr fun (mask, ip) => ac.ip &&& mask == ip]
  by_cases zero : wsopts.cidr4Mask = 0
  · have off : wsopts.cidr4Plus = false := by
      have given := shows.cidr.given
      rw [if_pos zero] at given
      simpa using given
    rw [off, Bool.false_and, Bool.false_and]
  · rw [if_neg zero]
    rfl

theorem modes_eq (shows : wsopts.Shows oper request) (ac : Client) :
    (!(wsopts.checkUmode && (wsopts.umodePlus && !decide (wsopts.umodes ⊆ ac.umode) ||
      !wsopts.umodePlus && decide (wsopts.umodes ⊆ ac.umode)))) =
      (decide (request.modes.2 = ∅) || decide (request.modes.2 ⊆ ac.umode) == request.modes.1) := by
  rw [shows.modes, shows.checkUmode, decide_not]
  generalize decide (wsopts.umodes = ∅) = none'
  generalize decide (wsopts.umodes ⊆ ac.umode) = has
  cases none' <;> cases has <;> cases wsopts.umodePlus <;> rfl

theorem away_eq (shows : wsopts.Shows oper request) (ac : Client) :
    (!(wsopts.checkAway && (wsopts.awayPlus && ac.away.isNone || !wsopts.awayPlus && ac.away.isSome))) =
      request.away.all (· == ac.away.isSome) := by
  rw [shows.away]
  cases wsopts.checkAway <;> cases wsopts.awayPlus <;> cases ac.away <;> rfl

theorem server_eq (shows : wsopts.Shows oper request) (ac : Client) :
    (!(wsopts.servPlus && wsopts.server != some ac.uplink)) = request.server.all (· == ac.uplink) := by
  rw [shows.server, shows.servPlus]
  cases wsopts.server with
  | none => rfl
  | some server => simp [bne]

theorem ts_eq (shows : wsopts.Shows oper request) (env : Env) (ac : Client) :
    (!(wsopts.tsValue == 2 && decide (env.now - ac.tsinfo < wsopts.ts)) &&
      !(wsopts.tsValue == 1 && decide (wsopts.ts ≤ env.now - ac.tsinfo))) =
      satisfies request.ts fun seconds => decide (seconds ≤ env.now - ac.tsinfo) := by
  rw [satisfies, shows.ts]
  have cases' : wsopts.tsValue = 0 ∨ wsopts.tsValue = 1 ∨ wsopts.tsValue = 2 := by
    have range := shows.tsValue
    omega
  obtain zero | minus | plus := cases'
  · simp [zero]
  · simp [minus]
  · have same : (!decide (env.now - ac.tsinfo < wsopts.ts)) = decide (wsopts.ts ≤ env.now - ac.tsinfo) := by
      rw [← decide_not, decide_eq_decide, not_lt]
    simpa [plus] using same

theorem isOpen_eq (shows : wsopts.Shows oper request) (showall : Bool) (ac : Client) :
    (!(ac.isInvisible && !showall) && !(wsopts.servPlus && ac.isUmodeW && !showall)) = (showall || request.isOpen ac) := by
  rw [Request.isOpen, shows.server, shows.servPlus]
  cases showall <;> simp

/-- The tests of `chk_who` are the checks of the lax request. -/
theorem chkWho_eq (shows : wsopts.Shows oper request) (env : Env) (showall : Bool) (ac : Client) :
    wsopts.chkWho env showall ac = (ac.isClient && (showall || request.isOpen ac) && request.lax.meets env ac) := by
  have ip : (!(wsopts.ipPlus && wsopts.ip.any fun ip => !chkfn ip ac.hostip)) = satisfies
    request.lax.ip (chkfn · ac.hostip) :=
    untested_eq shows.ip _
  have modes := modes_eq shows ac
  rw [← isOpen_eq shows]
  change _ = (ac.isClient && _ && (request.away.all _ && satisfies request.gcos _ && satisfies request.host _ &&
    satisfies request.lax.ip _ && satisfies request.lax.cidr _ &&
      (decide (request.modes.2 = ∅) || decide (request.modes.2 ⊆ ac.umode) == request.modes.1) &&
    satisfies request.nick _ && request.server.all _ && satisfies request.ts _ && satisfies
      request.user _ && satisfies request.lax.type _))
  rw [← type_eq shows, ← cidr_eq shows, ← ip]
  rw [← modes, ← away_eq shows, ← server_eq shows, ← ts_eq shows, ← misses_eq shows.gcos, ← misses_eq shows.host,
    ← misses_eq shows.nick, ← misses_eq shows.user]
  simp only [SOpts.chkWho, SOpts.fails, List.all_cons, List.all_nil, Bool.and_true, Bool.not_not]
  ac_rfl

end Tests

/-- The links between a channel and its members fit together. -/
structure Channel.Sound (chptr : Channel) (clients : List Client) : Prop where
  once : (chptr.members.map Member.cptr).Nodup
  joined : ∀ ac, ac ∈ chptr.members.map Member.cptr ↔ ac ∈ users clients ∧ chptr.chptr ∈ ac.channels

/-- The lists that WHO goes through fit together. -/
structure Sound (env : Env) (clients : List Client) (sptr : Client) : Prop where
  distinct : clients.Nodup
  named : ∀ first ∈ users clients, ∀ second ∈ users clients, mycmp first.name second.name = true → first = second
  found : ∀ name chptr, env.findChannel name = some chptr → chptr.Sound clients
  linked : ∀ lp ∈ sptr.channels, (env.channel lp).chptr = lp ∧ (env.channel lp).Sound clients

/-! Each way through the lists reaches the users that the lax request lets through. -/

section Paths

variable {wsopts : SOpts} {oper : Bool} {request : Request} {env : Env} {clients : List Client} {sptr : Client}

theorem channelLoop_reached (shows : wsopts.Shows oper request) {chptr : Channel} (here : wsopts.channel = some chptr)
    (sound : chptr.Sound clients) :
    listed (if chptr.showall sptr || !chptr.secret then wsopts.channelLoop env sptr chptr
      (chptr.showall sptr) chptr.members else []) =
      (chptr.members.map Member.cptr).filter (request.lax.passes env sptr) := by
  have channel : request.channel = some (chptr, wsopts.channelflags) := by rw [shows.channel, here, Option.map_some]
  have passes : ∀ cm ∈ chptr.members, request.lax.passes env sptr cm.cptr =
      ((chptr.showall sptr || !chptr.secret) &&
        (wsopts.chkWho env (chptr.showall sptr) cm.cptr && wsopts.channelflags.fit cm.flags)) := by
    intro cm member
    have user : cm.cptr.isClient = true := (List.mem_filter.mp ((sound.joined _).mp (List.mem_map_of_mem member)).1).2
    have flags : (chptr.members.any fun other => other.cptr == cm.cptr && wsopts.channelflags.fit other.flags) =
        wsopts.channelflags.fit cm.flags := by
      rw [Bool.eq_iff_iff, List.any_eq_true]
      constructor
      · rintro ⟨other, there, both⟩
        obtain ⟨same, fits⟩ := Bool.and_eq_true_iff.mp both
        rwa [List.inj_on_of_nodup_map sound.once there member (beq_iff_eq.mp same)] at fits
      · intro fits
        exact ⟨cm, member, by rw [fits, beq_self_eq_true, Bool.and_self]⟩
    have shared : request.lax.isShared sptr cm.cptr = true := by simp [Request.isShared, Request.lax, channel]
    have sees : request.lax.sees sptr cm.cptr = (chptr.showall sptr || !chptr.secret && request.isOpen cm.cptr) := by
      have same : request.lax.channel = some (chptr, wsopts.channelflags) := channel
      rw [Request.sees, same]
      rfl
    have inside : request.lax.inChannel cm.cptr = wsopts.channelflags.fit cm.flags := by
      have same : request.lax.channel = some (chptr, wsopts.channelflags) := channel
      rw [Request.inChannel, same, Option.all_some]
      exact flags
    rw [Request.passes, chkWho_eq shows, user, shared, sees, inside]
    cases chptr.showall sptr <;> cases chptr.secret <;> cases request.isOpen cm.cptr <;> simp
  have passing : chptr.members.filter (request.lax.passes env sptr ∘ Member.cptr) = chptr.members.filter fun cm =>
      (chptr.showall sptr || !chptr.secret) &&
        (wsopts.chkWho env (chptr.showall sptr) cm.cptr && wsopts.channelflags.fit cm.flags) := List.filter_congr passes
  rw [List.filter_map, passing]
  cases (chptr.showall sptr || !chptr.secret) with
  | false => simp
  | true => simp only [if_true, channelLoop_listed, Bool.true_and]

/-- At most one item passes. -/
theorem filter_eq_find {p : α → Bool} {items : List α} (distinct : items.Nodup)
    (one : ∀ first ∈ items, ∀ second ∈ items, p first = true → p second = true → first = second) :
    items.filter p = (items.find? p).toList := by
  induction items with
  | nil => rfl
  | cons item rest ih =>
    obtain ⟨new, distinct⟩ := List.nodup_cons.mp distinct
    have ih := ih distinct fun first here second there => one first (.tail _ here) second (.tail _ there)
    cases passes : p item with
    | false => rw [List.filter_cons_of_neg (by simp [passes]), List.find?_cons_of_neg (by simp [passes]), ih]
    | true =>
      rw [List.filter_cons_of_pos passes, List.find?_cons_of_pos passes, Option.toList_some]
      have alone : rest.filter p = [] := by
        rw [List.filter_eq_nil_iff]
        intro other member passes'
        exact new (one item (List.mem_cons_self ..) other (.tail _ member) passes passes' ▸ member)
      rw [alone]

/-- Without a channel, a user is selected by the checks, and by what may be seen. -/
theorem passes_lax (none' : request.channel = none) (ac : Client) : request.lax.passes env sptr ac =
    (request.lax.meets env ac && request.lax.isShared sptr ac &&
      (request.exactNick true || request.lax.shared || sptr.isAnOper || request.isOpen ac)) := by
  have same : request.lax.channel = none := none'
  have inside : request.lax.inChannel ac = true := by rw [Request.inChannel, same, Option.all_none]
  rw [Request.passes, inside, Request.sees, same, Bool.and_true]
  rfl

theorem lax_channel_none (shows : wsopts.Shows oper request) (here : wsopts.channel = none) : request.channel = none := by
  rw [shows.channel, here, Option.map_none]

/-- Who passes an exact nick has it, or has not. -/
theorem nick_of_meets {ac : Client} {sign : Bool} {nick : Text} (asked : request.nick = some (sign, nick))
    (plain : isWild nick = false) (meets : request.lax.meets env ac = true) : mycmp nick ac.name = sign := by
  unfold Request.meets at meets
  simp only [Bool.and_eq_true] at meets
  have nicks : satisfies request.nick (chkfn · ac.name) = true := meets.1.1.1.1.2
  simpa [satisfies, asked, chkfn, plain] using nicks

theorem findPerson_reached (shows : wsopts.Shows oper request) (sound : Sound env clients sptr) (here : wsopts.channel = none)
    {nick : Text} (exact' : request.nick = some (true, nick)) (plain : isWild nick = false) :
    (findPerson clients nick).toList.filter (wsopts.chkWho env true) =
      (users clients).filter (request.lax.passes env sptr) := by
  have none' := lax_channel_none shows here
  have alone : request.exactNick true = true := by simp [Request.exactNick, exact', plain]
  have found : (findPerson clients nick).toList = (users clients).filter fun ac => mycmp nick ac.name := by
    have one : ∀ first ∈ clients, ∀ second ∈ clients, (first.isClient && mycmp nick first.name) = true →
        (second.isClient && mycmp nick second.name) = true → first = second := by
      intro first here second there passes passes'
      obtain ⟨user, same⟩ := Bool.and_eq_true_iff.mp passes
      obtain ⟨user', same'⟩ := Bool.and_eq_true_iff.mp passes'
      refine sound.named first (List.mem_filter.mpr ⟨here, user⟩) second (List.mem_filter.mpr ⟨there, user'⟩) ?_
      rw [← mycmp_congr_left same, same']
    rw [findPerson, ← filter_eq_find sound.distinct one, users, List.filter_filter]
    exact List.filter_congr fun ac _ => Bool.and_comm ..
  rw [found, List.filter_filter]
  refine List.filter_congr fun ac member => ?_
  have user := (List.mem_filter.mp member).2
  have shared : request.lax.isShared sptr ac = true := by simp [Request.isShared, Request.lax, alone]
  rw [chkWho_eq shows, passes_lax none', user, shared, alone]
  cases meets : request.lax.meets env ac with
  | false => simp
  | true => simp [nick_of_meets exact' plain meets]

theorem sharedLoop_reached (shows : wsopts.Shows oper request) (sound : Sound env clients sptr) (here : wsopts.channel = none)
    (other : request.exactNick true = false) (shared : request.shared = true) {lp : Nat} (linked : lp ∈ sptr.channels) :
    ((env.channel lp).members.map Member.cptr).filter (wsopts.chkWho env true) =
      ((env.channel lp).members.map Member.cptr).filter (request.lax.passes env sptr) := by
  have none' := lax_channel_none shows here
  refine List.filter_congr fun ac member => ?_
  obtain ⟨itself, joins⟩ := sound.linked lp linked
  obtain ⟨user, joined⟩ := (joins.joined ac).mp member
  rw [itself] at joined
  have asked : request.lax.shared = true := by simp [Request.lax, shared, none', other]
  have common : request.lax.isShared sptr ac = true := by
    rw [Request.isShared, asked, Bool.not_true, Bool.false_or]
    exact List.any_eq_true.mpr ⟨lp, linked, by simpa using joined⟩
  rw [chkWho_eq shows, passes_lax none', (List.mem_filter.mp user).2, common, asked, other]
  simp

theorem clientLoop_reached (shows : wsopts.Shows oper request) (here : wsopts.channel = none)
    (other : request.exactNick true = false) (shared : request.shared = false) :
    clients.filter (wsopts.chkWho env sptr.isAnOper) = (users clients).filter (request.lax.passes env sptr) := by
  have none' := lax_channel_none shows here
  rw [users, List.filter_filter]
  refine List.filter_congr fun ac member => ?_
  have asked : request.lax.shared = false := by simp [Request.lax, shared]
  have common : request.lax.isShared sptr ac = true := by rw [Request.isShared, asked, Bool.not_false, Bool.true_or]
  rw [chkWho_eq shows, passes_lax none', common, asked, other]
  simp only [Bool.and_true, Bool.false_or]
  ac_rfl

theorem chkWho_silent (shows : wsopts.Shows oper request) {nick : Text} {ac : Client}
    (left : request.nick = some (false, nick))
    (plain : isWild nick = false) (named : mycmp nick ac.name = true) : wsopts.chkWho env true ac = false := by
  rw [chkWho_eq shows, Bool.and_eq_false_iff]
  right
  by_contra passes
  have other : mycmp nick ac.name = false := nick_of_meets left plain (Bool.not_eq_false _ ▸ passes)
  rw [named] at other
  cases other

/-- What is listed is what is reached. -/
theorem search_listed (shows : wsopts.Shows oper request) (sound : Sound env clients sptr)
    (known : ∀ chptr, wsopts.channel = some chptr → chptr.Sound clients) :
    listed (wsopts.search env clients sptr) = request.reached env clients sptr := by
  unfold SOpts.search
  cases here : wsopts.channel with
  | some chptr =>
    have channel : request.channel = some (chptr, wsopts.channelflags) := by rw [shows.channel, here, Option.map_some]
    simp only [listed_append, listed_end, List.append_nil, channelLoop_reached shows here (known chptr here)]
    rw [Request.reached, channel]
  | none =>
    have none' := lax_channel_none shows here
    rw [Request.reached, none']
    dsimp only
    cases exact' : wsopts.nick.filter (!isWild ·) with
    | some nick =>
      obtain ⟨given, plain⟩ := Option.filter_eq_some_iff.mp exact'
      have plain : isWild nick = false := by simpa using plain
      have asked : request.nick = some (wsopts.nickPlus, nick) := by rw [shows.nick.same, given, Option.map_some]
      have lists : listed (match findPerson clients nick with
          | some ac => if !wsopts.chkWho env true ac then [Line.endofwho (wsopts.host.getD nick)]
            else wsopts.userReply env sptr ac :: [Line.endofwho (wsopts.host.getD nick)]
          | none => [Line.endofwho (wsopts.host.getD nick)]) =
          (findPerson clients nick).toList.filter (wsopts.chkWho env true) := by
        cases findPerson clients nick with
        | none => rfl
        | some ac => cases passes : wsopts.chkWho env true ac <;> simp [passes, SOpts.userReply]
      refine lists.trans ?_
      cases sign : wsopts.nickPlus with
      | true =>
        rw [sign] at asked
        have positive : request.exactNick true = true := by simp [Request.exactNick, asked, plain]
        have negative : request.exactNick false = false := by simp [Request.exactNick, asked]
        rw [negative, positive, if_neg Bool.false_ne_true, if_pos rfl, findPerson_reached shows sound here asked plain]
      | false =>
        rw [sign] at asked
        have negative : request.exactNick false = true := by simp [Request.exactNick, asked, plain]
        rw [negative, if_pos rfl, List.filter_eq_nil_iff]
        intro ac member passes
        have found : findPerson clients nick = some ac := by simpa using member
        have both := List.find?_some (show clients.find?
          (fun cptr => cptr.isClient && mycmp nick cptr.name) = some ac from found)
        rw [chkWho_silent shows asked plain (Bool.and_eq_true_iff.mp both).2] at passes
        exact Bool.false_ne_true passes
    | none =>
      have wild : ∀ sign, request.exactNick sign = false := by
        intro sign
        rw [Request.exactNick, shows.nick.same]
        cases given : wsopts.nick with
        | none => rfl
        | some nick =>
          rw [given] at exact'
          have both : isWild nick = true := by simpa using exact'
          simp [both]
      dsimp only
      rw [wild, wild, if_neg Bool.false_ne_true, if_neg Bool.false_ne_true, listed_append, listed_end, List.append_nil,
        shows.shared]
      cases shared : wsopts.searchChan with
      | true =>
        simp only [if_true]
        rw [sharedLoop_listed wsopts env sptr.channels (within_zero sptr), room_zero]
        refine congrArg _ (List.flatMap_congr fun lp linked => ?_)
        exact sharedLoop_reached shows sound here (wild true) (shows.shared.trans shared) linked
      | false =>
        simp only [Bool.false_eq_true, if_false]
        rw [clientLoop_listed wsopts env sptr.isAnOper clients (within_zero sptr), room_zero,
          clientLoop_reached shows here (wild true) (shows.shared.trans shared)]

/-- The lax request lets more through. -/
theorem passes_imp {ac : Client} (passed : request.passes env sptr ac = true) : request.lax.passes env sptr ac = true := by
  have filtered : ∀ {α : Type} (check : Option (Bool × α)) (holds : α → Bool), satisfies check holds = true →
      satisfies (check.filter Prod.fst) holds = true := by
    intro α check holds
    cases check with
    | none => exact id
    | some check =>
      obtain ⟨sign, value⟩ := check
      cases sign with
      | true => exact id
      | false => exact fun _ => rfl
  simp only [Request.passes, Request.meets, Bool.and_eq_true] at passed ⊢
  obtain ⟨⟨⟨⟨⟨⟨⟨⟨⟨⟨⟨⟨⟨away, gcos⟩, host⟩, ip⟩, cidr⟩, modes⟩, nick⟩, server⟩, ts⟩, user⟩, type⟩,
    inside⟩, shared⟩, sees⟩ := passed
  refine ⟨⟨⟨⟨⟨⟨⟨⟨⟨⟨⟨⟨⟨away, gcos⟩, host⟩, filtered _ _ ip⟩, filtered _ _ cidr⟩, modes⟩, nick⟩, server⟩, ts⟩, user⟩,
    filtered _ _ type⟩, inside⟩, ?_⟩, ?_⟩
  · rw [Request.isShared, Bool.or_eq_true] at shared ⊢
    obtain free | common := shared
    · left
      rw [Request.lax, (Bool.not_eq_true' _).mp free]
      rfl
    · exact .inr common
  · cases channel : request.channel with
    | some asked =>
      obtain ⟨chptr, flags⟩ := asked
      have same : request.lax.channel = some (chptr, flags) := channel
      rw [Request.sees, channel] at sees
      rw [Request.sees, same]
      exact sees
    | none =>
      have same : request.lax.channel = none := channel
      rw [Request.sees, channel] at sees
      rw [Request.sees, same]
      have exact' : request.lax.exactNick true = request.exactNick true := rfl
      have shared' : request.lax.shared = (request.shared && !request.exactNick true) := by simp [Request.lax, channel]
      have open' : request.lax.isOpen ac = request.isOpen ac := rfl
      dsimp only at sees ⊢
      rw [exact', shared', open']
      revert sees
      cases request.exactNick true <;> cases request.shared <;> simp

/-- Who is asked for is let through, unless the modes are looked for under the wrong sign. -/
theorem selects_imp {ac : Client} (backed : request.Backed env oper ac) (straight : request.crossed = false)
    (selected : request.selects env sptr ac = true) : request.lax.passes env sptr ac = true := by
  simp only [Request.selects, Bool.and_eq_true] at selected
  obtain ⟨⟨all, shared⟩, sees⟩ := selected
  have met := backed all
  refine passes_imp ?_
  simp only [Request.passes, met.meets straight, met.inChannel, shared, sees, Bool.and_self]

theorem reached_passes {ac : Client} (member : ac ∈ request.reached env clients sptr) :
    request.lax.passes env sptr ac = true := by
  unfold Request.reached at member
  split at member
  next => exact List.of_mem_filter member
  next =>
    split at member
    next => exact absurd member List.not_mem_nil
    next =>
      split at member
      next => exact List.of_mem_filter member
      next =>
        have within := Answer.upTo_subset _ _ member
        split at within
        next =>
          obtain ⟨lp, -, here⟩ := List.mem_flatMap.mp within
          exact List.of_mem_filter here
        next => exact List.of_mem_filter within

/-- Then nobody who is let through is asked for. -/
theorem crossed_apart {ac : Client} (backed : request.Backed env oper ac) (crossed : request.crossed = true)
    (passed : request.lax.passes env sptr ac = true) : request.selects env sptr ac = false := by
  by_contra selected
  simp only [Request.selects, Bool.not_eq_false, Bool.and_eq_true] at selected
  have shut := (backed selected.1.1).shut crossed
  simp only [Request.passes, Request.meets, Bool.and_eq_true] at passed
  exact Bool.false_ne_true (shut.symm.trans passed.1.1.1.1.1.1.1.1.2)

end Paths

/-- Everything that is asked for is looked at, for those who are reached without it. -/
structure Request.Plain (request : Request) (env : Env) (clients : List Client) (sptr : Client) : Prop where
  /-- -T, -i, and M beside a channel or an exact nick, leave nobody out. -/
  looked : ∀ ac ∈ request.reached env clients sptr, request.selects env sptr ac = true
  /-- Nobody is reached through two channels. -/
  once : (request.reached env clients sptr).Nodup
  /-- A channel has not more users to list than the limit. -/
  few : request.channel.isSome → Answer.cap (limit sptr) ((users clients).countP (request.selects env sptr)) =
    (users clients).countP (request.selects env sptr)
  /-- Nobody is asked for by -n with an exact nick. -/
  silent : request.silent = true → (users clients).countP (request.selects env sptr) = 0

section Result

variable {wsopts : SOpts} {oper : Bool} {request : Request} {env : Env} {clients : List Client} {sptr : Client}

/-- Where nobody who is reached is asked for, nobody may be asked for, and nobody reached. -/
theorem capped_silent_iff (silent : request.silent = true)
    (apart : ∀ ac ∈ request.reached env clients sptr, request.selects env sptr ac = false) :
    Answer.Capped (limit sptr) (request.selects env sptr) (users clients) (request.reached env clients sptr) ↔
      request.Plain env clients sptr := by
  have nobody : (∀ ac ∈ request.reached env clients sptr, request.selects env sptr ac = true) →
      request.reached env clients sptr = [] := by
    intro looked
    refine List.eq_nil_iff_forall_not_mem.mpr fun ac member => ?_
    exact Bool.false_ne_true ((apart ac member).symm.trans (looked ac member))
  constructor
  · intro capped
    have reached := nobody fun ac member => (capped.sound ac member).2
    have none' : (users clients).countP (request.selects env sptr) = 0 := by
      have length := capped.length
      rw [reached, limit, Answer.cap] at length
      split at length
      next => exact length.symm
      next =>
        simp only [List.length_nil, Option.elim_some, maxWhoReplies] at length
        omega
    refine ⟨by simp [reached], by simp [reached], fun _ => ?_, fun _ => none'⟩
    rw [none']
    cases limit sptr <;> simp [Answer.cap]
  · intro plain
    rw [nobody plain.looked]
    refine ⟨List.nodup_nil, by simp, ?_⟩
    rw [plain.silent silent]
    cases limit sptr <;> simp [Answer.cap]

variable (backed : ∀ ac, request.Backed env oper ac) (straight : request.crossed = false)

include backed straight

theorem capped_channel_iff (sound : Sound env clients sptr) {chptr : Channel} {flags : Flags}
    (channel : request.channel = some (chptr, flags)) (known : chptr.Sound clients) :
    Answer.Capped (limit sptr) (request.selects env sptr) (users clients) (request.reached env clients sptr) ↔
      request.Plain env clients sptr := by
  have reached : request.reached env clients sptr = (chptr.members.map Member.cptr).filter (request.lax.passes env sptr) := by
    rw [Request.reached, channel]
  have within : ∀ ac ∈ request.reached env clients sptr, ac ∈ users clients := by
    intro ac member
    rw [reached] at member
    exact ((known.joined ac).mp (List.mem_of_mem_filter member)).1
  have every : ∀ ac ∈ users clients, request.selects env sptr ac = true → ac ∈ request.reached env clients sptr := by
    intro ac _ selected
    rw [reached]
    refine List.mem_filter.mpr ⟨?_, selects_imp (backed ac) straight selected⟩
    simp only [Request.selects, Bool.and_eq_true] at selected
    have inside := (backed ac selected.1.1).inChannel
    rw [Request.inChannel, channel, Option.all_some] at inside
    obtain ⟨cm, member, both⟩ := List.any_eq_true.mp inside
    exact List.mem_map.mpr ⟨cm, member, beq_iff_eq.mp (Bool.and_eq_true_iff.mp both).1⟩
  rw [Answer.capped_iff within every (sound.distinct.filter _)]
  constructor
  · rintro ⟨once, looked, few⟩
    exact ⟨looked, once, fun _ => few, by simp [Request.silent, straight, channel]⟩
  · intro plain
    exact ⟨plain.once, plain.looked, plain.few (by rw [channel]; rfl)⟩

omit backed straight in
/-- A nick has one user at most. -/
theorem exactNick_once (sound : Sound env clients sptr) (positive : request.exactNick true = true) :
    (users clients).filter (request.lax.passes env sptr) = ((users clients).find? (request.lax.passes env sptr)).toList := by
  refine filter_eq_find (sound.distinct.filter _) fun first here second there selected selected' => ?_
  obtain ⟨nick, asked, plain⟩ : ∃ nick, request.nick = some (true, nick) ∧ isWild nick = false := by
    unfold Request.exactNick at positive
    cases asked : request.nick with
    | none => simp [asked] at positive
    | some check =>
      rw [asked, Option.any_some, Bool.and_eq_true, beq_iff_eq, Bool.not_eq_true'] at positive
      exact ⟨check.2, by rw [← positive.1], positive.2⟩
  have named : ∀ ac, request.lax.passes env sptr ac = true → mycmp nick ac.name = true := by
    intro ac passes
    simp only [Request.passes, Bool.and_eq_true] at passes
    exact nick_of_meets asked plain passes.1.1.1
  refine sound.named first here second there ?_
  rw [← mycmp_congr_left (named first selected), named second selected']

omit backed straight in
theorem capped_base_iff (sound : Sound env clients sptr) (channel : request.channel = none) (speaks : request.silent = false)
    {base : List Client} (reached : request.reached env clients sptr = Answer.upTo (limit sptr) base)
    (within : ∀ ac ∈ base, ac ∈ users clients)
    (every : ∀ ac ∈ users clients, request.selects env sptr ac = true → ac ∈ base) :
    Answer.Capped (limit sptr) (request.selects env sptr) (users clients) (request.reached env clients sptr) ↔
      request.Plain env clients sptr := by
  rw [reached, Answer.capped_upTo_iff within every (sound.distinct.filter _), ← reached]
  constructor
  · rintro ⟨once, looked⟩
    exact ⟨looked, once, by simp [channel], by simp [speaks]⟩
  · intro plain
    exact ⟨plain.once, plain.looked⟩

theorem capped_straight_iff (sound : Sound env clients sptr) (known : request.Known env) :
    Answer.Capped (limit sptr) (request.selects env sptr) (users clients) (request.reached env clients sptr) ↔
      request.Plain env clients sptr := by
  cases channel : request.channel with
  | some asked =>
    obtain ⟨name, found⟩ := known asked.1 asked.2 channel
    exact capped_channel_iff backed straight sound channel (sound.found name asked.1 found)
  | none =>
    cases negative : request.exactNick false with
    | true =>
      refine capped_silent_iff (by simp [Request.silent, channel, negative]) ?_
      simp [Request.reached, channel, negative]
    | false =>
      have speaks : request.silent = false := by simp [Request.silent, straight, negative]
      have lists : ∀ ac ∈ users clients, request.selects env sptr ac = true →
          ac ∈ (users clients).filter (request.lax.passes env sptr) :=
        fun ac user selected => List.mem_filter.mpr ⟨user, selects_imp (backed ac) straight selected⟩
      have reached : request.reached env clients sptr = if request.exactNick true then
          (users clients).filter (request.lax.passes env sptr) else Answer.upTo (limit sptr) <|
            if request.shared then
              sptr.channels.flatMap fun lp => ((env.channel lp).members.map Member.cptr).filter (request.lax.passes env sptr)
            else (users clients).filter (request.lax.passes env sptr) := by
        rw [Request.reached, channel, negative]
        rfl
      cases positive : request.exactNick true with
      | true =>
        refine capped_base_iff sound channel speaks (reached.trans ?_) (fun ac => List.mem_of_mem_filter) lists
        rw [positive, if_pos rfl, exactNick_once sound positive]
        rw [limit]
        split
        next => rfl
        next => cases (users clients).find? (request.lax.passes env sptr) <;> rfl
      | false =>
        rw [positive, if_neg Bool.false_ne_true] at reached
        cases shared : request.shared with
        | false =>
          rw [shared, if_neg Bool.false_ne_true] at reached
          exact capped_base_iff sound channel speaks reached (fun ac => List.mem_of_mem_filter) lists
        | true =>
          rw [shared, if_pos rfl] at reached
          refine capped_base_iff sound channel speaks reached ?_ ?_
          · intro ac member
            obtain ⟨lp, linked, here⟩ := List.mem_flatMap.mp member
            exact (((sound.linked lp linked).2.joined ac).mp (List.mem_of_mem_filter here)).1
          · intro ac user selected
            have common := selected
            simp only [Request.selects, Request.isShared, shared, Bool.not_true, Bool.false_or, Bool.and_eq_true] at common
            obtain ⟨lp, linked, joined⟩ := List.any_eq_true.mp common.1.2
            obtain ⟨itself, joins⟩ := sound.linked lp linked
            refine List.mem_flatMap.mpr ⟨lp, linked,
              List.mem_filter.mpr ⟨(joins.joined ac).mpr ⟨user, ?_⟩, selects_imp (backed ac) straight selected⟩⟩
            rw [itself]
            simpa using joined

omit straight in
theorem capped_iff_plain (sound : Sound env clients sptr) (known : request.Known env) :
    Answer.Capped (limit sptr) (request.selects env sptr) (users clients) (request.reached env clients sptr) ↔
      request.Plain env clients sptr := by
  cases crossed : request.crossed with
  | true =>
    refine capped_silent_iff (by simp [Request.silent, crossed]) fun ac member => ?_
    exact crossed_apart (backed ac) crossed (reached_passes member)
  | false => exact capped_straight_iff backed crossed sound known

end Result

/-- Some test looks at the condition. -/
def Check.isLooked : Check → Bool
  | .ip plus _ | .cidr plus _ _ | .type plus _ => plus
  | .noResult _ _ => false
  | _ => true

/-- Each flag is given once and is none that is not looked at, and only operators name a channel. -/
structure Request.Simple (request : Request) (oper : Bool) : Prop where
  single : request.Single
  looked : ∀ check ∈ request.checks, check.isLooked = true
  nick : request.exactNick false = false
  shared : request.shared = false
  channel : request.channel.isSome → oper = true

section Simple

variable {oper : Bool} {request : Request} {env : Env} {clients : List Client} {sptr : Client}

theorem Check.Kept.holds {check : Check} {ac : Client} (kept : check.Kept request) (looked : check.isLooked = true)
    (passed : request.lax.passes env sptr ac = true) : check.holds env ac = true := by
  simp only [Request.passes, Request.meets, Bool.and_eq_true] at passed
  obtain ⟨⟨⟨⟨⟨⟨⟨⟨⟨⟨⟨⟨⟨away, gcos⟩, host⟩, ip⟩, cidr⟩, modes⟩, nick⟩, server⟩, ts⟩, user⟩, type⟩, inside⟩, -⟩, -⟩ := passed
  cases check with
  | away plus =>
    rw [show request.lax.away = some plus from kept] at away
    have here : plus = ac.away.isSome := by simpa using away
    simp [Check.holds, here]
  | channel chptr flags =>
    rw [Request.inChannel, show request.lax.channel = some (chptr, flags) from kept] at inside
    exact inside
  | gcos plus mask =>
    rw [show request.lax.gcos = some (plus, mask) from kept] at gcos
    exact gcos
  | host plus mask =>
    rw [show request.lax.host = some (plus, mask) from kept] at host
    exact host
  | ip plus mask =>
    obtain rfl : plus = true := looked
    rw [show request.lax.ip = some (true, mask) from congrArg (Option.filter Prod.fst) kept] at ip
    exact ip
  | cidr plus mask address =>
    obtain rfl : plus = true := looked
    rw [show request.lax.cidr = some (true, mask, address) from congrArg (Option.filter Prod.fst) kept] at cidr
    exact cidr
  | modes plus umodes =>
    rw [show request.lax.modes = (plus, umodes) from kept] at modes
    exact modes
  | noResult plus umodes => cases looked
  | nick plus mask =>
    rw [show request.lax.nick = some (plus, mask) from kept] at nick
    exact nick
  | server uplink =>
    rw [show request.lax.server = some uplink from kept] at server
    exact server
  | ts plus seconds =>
    rw [show request.lax.ts = some (plus, seconds) from kept] at ts
    exact ts
  | user plus mask =>
    rw [show request.lax.user = some (plus, mask) from kept] at user
    exact user
  | type plus servicetype =>
    obtain rfl : plus = true := looked
    rw [show request.lax.type = some (true, servicetype) from congrArg (Option.filter Prod.fst) kept] at type
    exact type

/-- One flag m at most comes with its own sign. -/
theorem Request.Simple.straight (simple : request.Simple oper) (faithful : request.Faithful) : request.crossed = false := by
  by_contra crossed
  simp only [Request.crossed, Bool.not_eq_false, Bool.and_eq_true, decide_eq_true_eq, beq_iff_eq] at crossed
  obtain ⟨some', sign⟩ := crossed
  obtain ⟨check, member, letter⟩ := faithful.modes some'
  have without : ∀ other ∈ request.checks, other.isWithout = true → request.modes.1 = false := by
    intro other there isWithout
    cases other with
    | modes plus umodes =>
      cases plus with
      | true => cases isWithout
      | false => exact congrArg Prod.fst (show request.modes = (false, umodes) from faithful.kept _ there)
    | _ => cases isWithout
  cases asked : request.checks.any Check.isWithout with
  | true =>
    obtain ⟨other, there, isWithout⟩ := List.any_eq_true.mp asked
    exact absurd (sign.trans asked) (by simp [without other there isWithout])
  | false =>
    cases check with
    | modes plus umodes =>
      have kept : request.modes = (plus, umodes) := faithful.kept _ member
      rw [kept, asked] at sign
      rw [kept] at some'
      have none' : Check.isWithout (.modes plus umodes) = false := by simpa using List.any_eq_false.mp asked _ member
      rw [show plus = false from sign, Check.isWithout] at none'
      exact some' (by simpa using none')
    | noResult plus umodes => cases simple.looked _ member
    | _ => cases letter

theorem Request.Simple.plain (simple : request.Simple sptr.isAnOper)
    (sound : Sound env clients sptr) (known : request.Known env)
    (faithful : request.Single → request.Faithful) : request.Plain env clients sptr where
  looked ac member := by
    have passed := reached_passes member
    have all : request.checks.all (Check.holds env ac) = true := by
      rw [List.all_eq_true]
      exact fun check given => ((faithful simple.single).kept check given).holds (simple.looked check given) passed
    simp only [Request.passes, Bool.and_eq_true] at passed
    have alone : request.lax.shared = request.shared := by simp [Request.lax, simple.shared]
    have sees : request.sees sptr ac = true := by
      have lax := passed.2
      rw [Request.sees, alone] at lax
      exact lax
    rw [Request.selects, all, Request.isShared, simple.shared, sees]
    rfl
  once := by
    unfold Request.reached
    split
    next chptr flags here =>
      obtain ⟨name, found⟩ := known chptr flags here
      exact (sound.found name chptr found).once.filter _
    next =>
      have distinct : ((users clients).filter (request.lax.passes env sptr)).Nodup := (sound.distinct.filter _).filter _
      rw [simple.nick, simple.shared]
      simp only [Bool.false_eq_true, if_false]
      split
      next => exact distinct
      next => exact Answer.upTo_nodup _ distinct
  few channel := by
    rw [limit, if_pos (simple.channel channel)]
    rfl
  silent silent := by
    rw [Request.silent, simple.straight (faithful simple.single), simple.nick, Bool.and_false] at silent
    cases silent

end Simple

/-- WHO lists the users that are asked for and may be seen, each once and up to the limit, exactly
when every condition that leaves somebody out is one that is looked at, nobody is reached through
two channels, a channel is not over the limit, and nobody is asked for under the wrong sign. So it
is wherever each flag is given once and is one that is looked at. -/
theorem mWho_exact {env : Env} {clients : List Client} {sptr : Client} {parv : List Text} {wsopts : SOpts}
    (accepted : buildSearchopts env sptr.isAnOper parv = .ok wsopts) (sound : Sound env clients sptr) :
    ∃ lines, mWho env clients sptr parv = .ok lines ∧
      (Exact (request env sptr.isAnOper parv) env clients sptr lines ↔
        (request env sptr.isAnOper parv).Plain env clients sptr) ∧
      ((request env sptr.isAnOper parv).Simple sptr.isAnOper →
        Exact (request env sptr.isAnOper parv) env clients sptr lines) := by
  have shows := buildSearchopts_shows accepted
  have known := request_known env sptr.isAnOper parv
  have exact' : Exact (request env sptr.isAnOper parv) env clients sptr (wsopts.search env clients sptr) ↔
      (request env sptr.isAnOper parv).Plain env clients sptr := by
    rw [Exact, search_listed shows sound, capped_iff_plain (request_backed env sptr.isAnOper parv) sound known]
    intro chptr here
    obtain ⟨name, found⟩ := known chptr wsopts.channelflags (by rw [shows.channel, here, Option.map_some])
    exact sound.found name chptr found
  refine ⟨wsopts.search env clients sptr, ?_, exact', fun simple => ?_⟩
  · rw [mWho, accepted]
    rfl
  · exact exact'.mpr (simple.plain sound known (request_faithful env sptr.isAnOper parv))

def quietEnv : Env where
  now := 0
  build := ⟨false, false, false⟩
  findChannel _ := none
  findServer _ := none
  serverName _ := []
  channel chptr := ⟨chptr, [], false, false, []⟩
  hiddenServName := []

def userAt (cptr : Nat) (name hostip : Text) (umode : UModes) : Client :=
  ⟨cptr, true, name, name, name, hostip, hostip, hostip, 0, none, 0, [], 0, 0, umode, false, 0, []⟩

/-- An operator. -/
def ann : Client := userAt 1 "ann".toList "10.0.0.1".toList {.o}

def bob : Client := userAt 2 "bob".toList "10.0.0.2".toList ∅

theorem annAndBob_sound : Sound quietEnv [ann, bob] ann where
  distinct := by decide
  named := by decide
  found _ _ := nofun
  linked _ := nofun

theorem mWho_exact_nick : ∃ lines, mWho quietEnv [ann, bob] ann ["+n".toList, "bob".toList] = .ok lines ∧
    Exact (request quietEnv true ["+n".toList, "bob".toList]) quietEnv [ann, bob] ann lines := by
  have accepted : buildSearchopts quietEnv ann.isAnOper ["+n".toList, "bob".toList] =
      .ok { nick := some "bob".toList, nickPlus := true } := rfl
  obtain ⟨lines, sent, exact'⟩ := mWho_exact accepted annAndBob_sound
  exact ⟨lines, sent, exact'.1.mpr ⟨by decide, by decide, by decide, by decide⟩⟩

/-- Everybody is listed although one address is to be left out. -/
theorem negative_address_listed : ∃ lines, mWho quietEnv [ann, bob] ann ["-i".toList, "10.0.0.2".toList] = .ok lines ∧
    listed lines = [ann, bob] ∧
      ¬ Exact (request quietEnv true ["-i".toList, "10.0.0.2".toList]) quietEnv [ann, bob] ann lines := by
  refine ⟨_, rfl, by decide, ?_⟩
  intro exact'
  have asked : (request quietEnv true ["-i".toList, "10.0.0.2".toList]).selects quietEnv ann bob = true :=
    (exact'.sound bob (by decide)).2
  exact absurd asked (by decide)

end SolidIrcd.Who
