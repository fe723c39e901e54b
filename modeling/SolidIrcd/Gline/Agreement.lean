import Mathlib.Tactic.IntervalCases
import SolidIrcd.Lib.Printf
import SolidIrcd.Parse.Params
import SolidIrcd.UserBan.Command
import SolidIrcd.UserBan.Exact

/-! G-lines between servers: what `m_gline` writes for the next server, what `sync_me`
writes for a new one, and what the same `m_gline` makes of it there. The format of both has
no conversion for the time, so that no G-line arrives. -/

namespace SolidIrcd.Gline

open Scan (Text)
open Printf (Arg Memory vsnprintf)
open UserBan

/-- What `vsnprintf` of the C library writes, if the program lives on. -/
abbrev Libc := Text → List Arg → Option Text

/-- DEFAULT_GLINE_TIME, in minutes. -/
def defaultGlineTime : Int := 30

/-- A server when a GLINE comes to it. `privileged` and `isServer` tell what it knows of the
sender; `coded` that its link is zipped or encrypted, which leaves a line one more byte. -/
structure Site where
  store : Store
  now : Int
  date : Text
  privileged : Bool
  isServer : Bool
  coded : Bool

def Site.room (site : Site) : Nat := if site.coded then 511 else 510

/-- What a GLINE leaves: the ban in the store, and what becomes of the line when there is another server
to send it to. -/
structure Outcome where
  store : Store
  ban : Ban
  line : Option Text

def glineFormat : Text := ":%s GLINE %l %s@%s :%s".toList

def shunFormat : Text := ":%s SHUN %l %s@%s :%s".toList

/-- The arguments of both formats. -/
def lineArgs (name : Text) (secs : Int) (user host reason : Text) : List Arg :=
  [.str name, .int secs, .str user, .str host, .str reason]

/-- `m_gline`; `mine` is the sender when it is a client of this server. -/
def Site.mGline (libc : Libc) (site : Site) (mine : Option Client) (name : Text) (parv : List Text) :
    Option Outcome :=
  if !site.privileged then none
  else
    match banParams defaultGlineTime parv with
    | none => none
    | some (minutes, target, reason) =>
      let tgseconds := banMinutes minutes * 60
      let (user, host) := userHost target
      if tooWide user host then none
      else
        match makeHostbasedBan (some user) host with
        | none => none
        | some mask =>
          match site.store.findUserbanExact (mask.mark { gline := true }) { gline := true } with
          | some _ => none
          | none =>
            if mine.any fun sptr => userMatchBan sptr (mask.mark { gline := true }) then none
            else
              let rbuf := if site.isServer then reason.take 511 else datedReason reason site.date
              let marks : Marks :=
                { gline := true
                  reason := some rbuf
                  lasts := if tgseconds ≠ 0 then some (site.now, tgseconds) else none }
              (site.store.addHostbasedUserban (mask.mark marks)).map fun store =>
                { store := store
                  ban := { mask.mark marks with internalEnt := site.store.next }
                  line := libc glineFormat (lineArgs name tgseconds user (getUserbanHost mask 512) reason) }

/-- A line from the link, as much of it as the link carries. -/
def Site.hear (libc : Libc) (site : Site) (line : Text) : Option Outcome :=
  let words := Parse.words (line.take site.room)
  if words.command = "GLINE".toList then site.mGline libc none words.sender words.parv else none

/-- The servers on a path, each of which hears what the one before it has sent. -/
def relay (libc : Libc) : List Site → Option Text → Option (List (Site × Outcome))
  | [], _ => some []
  | _ :: _, none => none
  | site :: path, some line =>
    match site.hear libc line with
    | none => none
    | some outcome => (relay libc path outcome.line).map ((site, outcome) :: ·)

/-- The host as `sync_me` writes it. -/
def syncHost (ban : Ban) : Text := ban.h.getD ['*']

/-- One turn of the loop of `sync_me`, which sends nothing for other bans. -/
def syncBan (libc : Libc) (me : Text) (ban : Ban) : Option (Option Text) :=
  let args := lineArgs me ban.duration ban.userText (syncHost ban) (ban.reason.getD [])
  if ban.flags.shun then some (libc shunFormat args)
  else if ban.flags.gline then some (libc glineFormat args)
  else none

/-- `sync_lists`, with `sync_me` for each of the lists. -/
def syncLists (libc : Libc) (me : Text) (store : Store) : List (Option Text) :=
  let syncMe (slot : Slot) : List (Option Text) := (store.lists slot).filterMap (syncBan libc me)
  syncMe .cidr4big ++
    (List.range 256).flatMap (fun a => (List.range 256).flatMap fun b => syncMe (.cidr4 a b)) ++
    syncMe .hostWild ++ syncMe .ipWild ++
    (List.range hashSize).flatMap fun a => syncMe (.hostBucket a) ++ syncMe (.ipBucket a)

/-- How long a ban still lasts; a permanent one has no end. -/
def remaining (ban : Ban) (now : Int) : Option Int :=
  if ban.flags.temporary then some (ban.timeset + ban.duration - now) else none

/-- The same mask, and the same time to go. -/
structure Agrees (ban : Ban) (now : Int) (other : Ban) (now' : Int) : Prop where
  user : other.u = ban.u
  host : other.h = ban.h
  ip : other.cidr4ip = ban.cidr4ip
  mask : other.cidr4mask = ban.cidr4mask
  remaining : remaining other now' = remaining ban now

/-- The server has put a ban in its store that agrees. -/
def Outcome.Follows (outcome : Outcome) (site : Site) (ban : Ban) (now : Int) : Prop :=
  outcome.store.lists.Holds outcome.ban ∧ Agrees ban now outcome.ban site.now

/-- Every server on the way has stored a ban that agrees with the one `m_gline` has set. -/
def Relayed (libc : Libc) (path : List Site) (outcome : Outcome) (now : Int) : Prop :=
  ∃ heard, relay libc path outcome.line = some heard ∧ ∀ hop ∈ heard, hop.2.Follows hop.1 outcome.ban now

/-- From a line of a burst, the server stores a ban that agrees. -/
def Arrives (libc : Libc) (line : Option Text) (ban : Ban) (now : Int) (site : Site) : Prop :=
  ∃ text heard, line = some text ∧ site.hear libc text = some heard ∧ heard.Follows site ban now

/-- The server listens to the sender and has no G-line of that mask yet. -/
structure Site.Receptive (site : Site) (mask : Ban) : Prop where
  privileged : site.privileged = true
  fresh : site.store.findUserbanExact (mask.mark { gline := true }) { gline := true } = none

variable {libc : Libc} {site origin : Site} {mask : Ban}

/-- Everything that holds of a GLINE which is not refused. -/
structure Accepted (libc : Libc) (site : Site) (name : Text) (minutes : Int) (user host reason : Text)
    (mask : Ban) (outcome : Outcome) : Prop where
  narrow : tooWide user host = false
  made : makeHostbasedBan (some user) host = some mask
  sameUser : outcome.ban.u = mask.u
  sameHost : outcome.ban.h = mask.h
  ip : outcome.ban.cidr4ip = mask.cidr4ip
  network : outcome.ban.cidr4mask = mask.cidr4mask
  gline : outcome.ban.flags.gline = true
  shun : outcome.ban.flags.shun = false
  duration : outcome.ban.duration = banMinutes minutes * 60
  temporary : outcome.ban.flags.temporary = decide (banMinutes minutes ≠ 0)
  timeset : banMinutes minutes ≠ 0 → outcome.ban.timeset = site.now
  held : outcome.store.lists.Holds outcome.ban
  line : outcome.line = libc glineFormat (lineArgs name (banMinutes minutes * 60) user (getUserbanHost mask 512) reason)

private theorem mark_lasts (reason : Option Text) (mask : Ban) (minutes now : Int) :
    let ban := mask.mark
      { gline := true, reason := reason, lasts := if minutes * 60 ≠ 0 then some (now, minutes * 60) else none }
    ban.duration = minutes * 60 ∧ ban.flags.temporary = decide (minutes ≠ 0) ∧ (minutes ≠ 0 → ban.timeset = now) := by
  by_cases permanent : minutes = 0
  · subst permanent
    exact ⟨rfl, rfl, fun wrong => absurd rfl wrong⟩
  · have lasting : minutes * 60 ≠ 0 := by omega
    simp [Ban.mark, permanent]

theorem mGline_accepted (params : banParams defaultGlineTime parv = some (minutes, target, reason))
    (parts : userHost target = (user, host)) (result : site.mGline libc mine name parv = some outcome) :
    ∃ mask, Accepted libc site name minutes user host reason mask outcome := by
  unfold Site.mGline at result
  simp only [params, parts] at result
  split at result
  next => cases result
  next =>
    split at result
    next => cases result
    next narrow =>
      split at result
      next => cases result
      next mask made =>
        split at result
        next => cases result
        next =>
          split at result
          next => cases result
          next =>
            obtain ⟨store, added, rfl⟩ := Option.map_eq_some_iff.mp result
            obtain ⟨slot, -, rfl⟩ := Option.map_eq_some_iff.mp added
            obtain ⟨duration, temporary, timeset⟩ := mark_lasts
              (some (if site.isServer then reason.take 511 else datedReason reason site.date)) mask
              (banMinutes minutes) site.now
            exact ⟨mask,
              { narrow := by simpa using narrow
                made := made
                sameUser := rfl
                sameHost := rfl
                ip := rfl
                network := rfl
                gline := rfl
                shun := rfl
                duration := duration
                temporary := temporary
                timeset := timeset
                held := Shelf.holds_put.mpr (.inl rfl)
                line := rfl }⟩

theorem mGline_accepts (params : banParams defaultGlineTime parv = some (minutes, target, reason))
    (parts : userHost target = (user, host)) (receptive : site.Receptive mask) (narrow : tooWide user host = false)
    (made : makeHostbasedBan (some user) host = some mask)
    (apart : (mine.any fun sptr => userMatchBan sptr (mask.mark { gline := true })) = false) (name : Text) :
    ∃ outcome, site.mGline libc mine name parv = some outcome := by
  unfold Site.mGline
  simp only [params, parts, receptive.privileged, Bool.not_true, Bool.false_eq_true, if_false, narrow, made,
    receptive.fresh, apart]
  obtain ⟨slot, place⟩ := slot_of_kind ((makeHostbasedBan_kind made).mark
    { gline := true
      reason := some (if site.isServer then reason.take 511 else datedReason reason site.date)
      lasts := if banMinutes minutes * 60 ≠ 0 then some (site.now, banMinutes minutes * 60) else none })
  rw [Store.addHostbasedUserban, place]
  exact ⟨_, rfl⟩

/-- What is accepted has been read as a time, a mask and a reason. -/
theorem mGline_read (result : site.mGline libc mine name parv = some outcome) :
    ∃ minutes user host reason mask, Accepted libc site name minutes user host reason mask outcome := by
  cases params : banParams defaultGlineTime parv with
  | none => simp [Site.mGline, params] at result
  | some given =>
    obtain ⟨minutes, target, reason⟩ := given
    have parts : userHost target = ((userHost target).1, (userHost target).2) := rfl
    obtain ⟨mask, accepted⟩ := mGline_accepted params parts result
    exact ⟨minutes, _, _, reason, mask, accepted⟩

/-- The time has no conversion, and is then taken for the address of the user. -/
theorem vsnprintf_glineFormat (memory : Memory) (name : Text) (secs : Int) (user host reason : Text) :
    vsnprintf memory glineFormat (lineArgs name secs user host reason) =
      (memory.string secs).map fun text =>
        ':' :: name ++ " GLINE % ".toList ++ (text ++ '@' :: user ++ " :".toList ++ host) := by
  have shape : glineFormat = ":".toList ++ '%' :: 's' :: (" GLINE ".toList ++ '%' :: 'l' :: ' ' :: '%' :: 's' ::
      ("@".toList ++ '%' :: 's' :: (" :".toList ++ '%' :: 's' :: []))) := rfl
  rw [vsnprintf, shape, lineArgs, Printf.format_literal memory (by decide), Printf.format_str,
    Printf.format_literal memory (by decide), Printf.format_space, Printf.format_address]
  cases memory.string secs with
  | none => rfl
  | some text =>
    rw [Option.bind_some, Printf.format_literal memory (by decide), Printf.format_str,
      Printf.format_literal memory (by decide), Printf.format_str]
    simp [Printf.format]

/-- A lone percent sign is the mask, and one that `make_hostbased_ban` refuses. -/
theorem mGline_percent (mine : Option Client) (name : Text) (rest : List Text) :
    site.mGline libc mine name (['%'] :: rest) = none := by
  have params : banParams defaultGlineTime (['%'] :: rest) = some
    (defaultGlineTime, ['%'], rest.head?.getD "<no reason>".toList) := rfl
  have parts : userHost ['%'] = (['*'], ['%']) := rfl
  have refused : makeHostbasedBan (some ['*']) ['%'] = none := by decide +kernel
  simp only [Site.mGline, params, parts, refused]
  split
  next => rfl
  next => split <;> rfl

theorem hear_percent (sender : ' ' ∉ name) (short : name.length ≤ hostLen) (tail : Text) :
    site.hear libc (':' :: name ++ " GLINE % ".toList ++ tail) = none := by
  obtain ⟨left, room⟩ : ∃ left, site.room = name.length + 9 + (left + 1) := by
    unfold hostLen at short
    unfold Site.room
    split
    · exact ⟨501 - name.length, by omega⟩
    · exact ⟨500 - name.length, by omega⟩
  have cut : (':' :: name ++ " GLINE % ".toList ++ tail).take site.room =
      ':' :: name ++ ' ' :: "GLINE".toList ++ (' ' :: ['%'] ++ ' ' :: tail.take left) := by
    have shape : ':' :: name ++ " GLINE % ".toList ++ tail = (':' :: name ++ " GLINE %".toList) ++ ' ' :: tail := by simp
    have size : (':' :: name ++ " GLINE %".toList).length = name.length + 9 := by simp
    rw [shape, room, ← size, List.take_length_add_append, List.take_succ_cons]
    simp
  have percent : Parse.Word ['%'] := ⟨by decide, by decide, by decide⟩
  have words : Parse.words ((':' :: name ++ " GLINE % ".toList ++ tail).take site.room) =
      ⟨name, "GLINE".toList, ['%'] :: Parse.params 13 (' ' :: tail.take left)⟩ := by
    rw [cut, Parse.words_line sender (by decide) (by decide) (.inr rfl)]
    exact congrArg _ (Parse.params_word percent (.inr rfl) 12)
  rw [Site.hear, words]
  simp only [if_true]
  exact mGline_percent none name _

theorem not_relayed (sender : ' ' ∉ name) (short : name.length ≤ hostLen) {memory : Memory}
    (set : Accepted (vsnprintf memory) origin name minutes user host reason mask outcome) (nonempty : path ≠ []) :
    ¬ Relayed (vsnprintf memory) path outcome origin.now := by
  rintro ⟨heard, reached, -⟩
  obtain ⟨site, path, rfl⟩ := List.exists_cons_of_ne_nil nonempty
  rw [set.line, vsnprintf_glineFormat] at reached
  cases string : memory.string (banMinutes minutes * 60) with
  | none =>
    rw [string] at reached
    cases reached
  | some text =>
    rw [string, Option.map_some, relay, hear_percent sender short] at reached
    cases reached

theorem not_arrives (sender : ' ' ∉ me) (short : me.length ≤ hostLen) (memory : Memory) (ban other : Ban)
    (gline : ban.flags.gline = true) (shun : ban.flags.shun = false) (sent : syncBan (vsnprintf memory) me ban = some line)
    (now : Int) (site : Site) : ¬ Arrives (vsnprintf memory) line other now site := by
  rintro ⟨text, heard, rfl, reached, -⟩
  simp only [syncBan, shun, gline, Bool.false_eq_true, if_false, if_true, Option.some.injEq, vsnprintf_glineFormat] at sent
  obtain ⟨string, -, rfl⟩ := Option.map_eq_some_iff.mp sent
  rw [hear_percent sender short] at reached
  cases reached

/-- The burst has a line for every G-line of the store. -/
theorem mem_syncLists {line : Option Text} {store : Store} {ban : Ban} (filed : store.lists.Filed Ban.slot)
    (held : store.lists.Holds ban) (sent : syncBan libc me ban = some line) :
    line ∈ syncLists libc me store := by
  obtain ⟨slot, member⟩ := held
  have place := filed slot ban member
  have here : line ∈ (store.lists slot).filterMap (syncBan libc me) := List.mem_filterMap.mpr ⟨ban, member, sent⟩
  simp only [syncLists, List.mem_append, List.mem_flatMap, List.mem_range]
  cases slot with
  | cidr4big => exact .inl (.inl (.inl (.inl here)))
  | cidr4 a b =>
    obtain ⟨rfl, rfl⟩ : octet ban.cidr4ip 0 = a ∧ octet ban.cidr4ip 1 = b := by
      unfold Ban.slot at place
      grind
    exact .inl (.inl (.inl (.inr ⟨_, octet_lt _ _, _, octet_lt _ _, here⟩)))
  | hostWild => exact .inl (.inl (.inr here))
  | ipWild => exact .inl (.inr here)
  | hostBucket hv =>
    obtain rfl : hostHash (ban.h.getD []) % hashSize = hv := by
      unfold Ban.slot at place
      grind
    exact .inr ⟨_, Nat.mod_lt _ (by decide), .inl here⟩
  | ipBucket hv =>
    obtain rfl : ipHash (ban.h.getD []) % hashSize = hv := by
      unfold Ban.slot at place
      grind
    exact .inr ⟨_, Nat.mod_lt _ (by decide), .inr here⟩

/-- No G-line is the same on another server, neither relayed nor in a burst: whatever string is
found for the user, the mask that arrives is a percent sign. -/
theorem gline_agreement (memory : Memory) (sender : ' ' ∉ name) (short : name.length ≤ hostLen)
    (set : origin.mGline (vsnprintf memory) mine name parv = some outcome) :
    (∀ path, path ≠ [] → ¬ Relayed (vsnprintf memory) path outcome origin.now) ∧
      ∀ (me : Text) (store : Store) (now : Int) (site : Site), ' ' ∉ me → me.length ≤ hostLen →
        store.lists.Filed Ban.slot → store.lists.Holds outcome.ban →
        ∃ line ∈ syncLists (vsnprintf memory) me store, syncBan (vsnprintf memory) me outcome.ban = some line ∧
          ¬ Arrives (vsnprintf memory) line outcome.ban now site := by
  obtain ⟨minutes, user, host, reason, mask, accepted⟩ := mGline_read set
  constructor
  · intro path nonempty
    exact not_relayed sender short accepted nonempty
  · intro me store now site sender' short' filed held
    have sent : syncBan (vsnprintf memory) me outcome.ban = some (vsnprintf memory glineFormat (lineArgs me
        outcome.ban.duration outcome.ban.userText (syncHost outcome.ban) (outcome.ban.reason.getD []))) := by
      simp only [syncBan, accepted.shun, accepted.gline, Bool.false_eq_true, if_false, if_true]
    exact ⟨_, mem_syncLists filed held sent, sent,
      not_arrives sender' short' memory _ _ accepted.gline accepted.shun sent now site⟩

def quietSite : Site := ⟨Store.empty, 0, "d".toList, true, false, false⟩

def quietOper : Client := ⟨"o".toList, "o.net".toList, 0⟩

/-- A ban on everybody from `a.b`. -/
def quietMask : Ban :=
  { flags := { host := true, wilduser := true }
    u := none
    h := some "a.b".toList
    cidr4ip := 0
    cidr4mask := 0
    reason := none
    timeset := 0
    duration := 0
    internalEnt := 0 }

/-- `GLINE 0 *@a.b :spam`. -/
theorem quietGline (memory : Memory) : ∃ outcome, quietSite.mGline (vsnprintf memory) (some quietOper) "oper".toList
    ["0".toList, "*@a.b".toList, "spam".toList] = some outcome ∧
      Accepted (vsnprintf memory) quietSite "oper".toList 0 ['*'] "a.b".toList "spam".toList quietMask outcome := by
  have params : banParams defaultGlineTime ["0".toList, "*@a.b".toList, "spam".toList] =
      some (0, "*@a.b".toList, "spam".toList) := by decide +kernel
  have parts : userHost "*@a.b".toList = (['*'], "a.b".toList) := by decide +kernel
  have made : makeHostbasedBan (some ['*']) "a.b".toList = some quietMask := by decide +kernel
  have narrow : tooWide ['*'] "a.b".toList = false := tooWide_of_head (by decide) (by decide) (by decide) _ _
  obtain ⟨outcome, set⟩ : ∃ outcome, quietSite.mGline (vsnprintf memory) (some quietOper) "oper".toList
      ["0".toList, "*@a.b".toList, "spam".toList] = some outcome :=
    mGline_accepts params parts ⟨rfl, rfl⟩ narrow made (by decide +kernel) _
  obtain ⟨mask, accepted⟩ := mGline_accepted params parts set
  obtain rfl : mask = quietMask := Option.some.inj (accepted.made.symm.trans made)
  exact ⟨outcome, set, accepted⟩

/-- A permanent G-line for `*@a.b` is refused by the next server. -/
theorem permanentGline_lost : ∃ outcome, quietSite.mGline (vsnprintf fun _ => none) (some quietOper) "oper".toList
      ["0".toList, "*@a.b".toList, "spam".toList] = some outcome ∧
    outcome.line = some ":oper GLINE % (null)@* :a.b".toList ∧
    quietSite.hear (vsnprintf fun _ => none) ":oper GLINE % (null)@* :a.b".toList = none ∧
    ¬ Relayed (vsnprintf fun _ => none) [quietSite] outcome 0 := by
  obtain ⟨outcome, set, accepted⟩ := quietGline fun _ => none
  refine ⟨outcome, set, ?_, ?_, not_relayed (by decide) (by decide) accepted (by simp)⟩
  · rw [accepted.line, vsnprintf_glineFormat]
    rfl
  · have heard : quietSite.hear (vsnprintf fun _ => none)
      (':' :: "oper".toList ++ " GLINE % ".toList ++ "(null)@* :a.b".toList) =
        none := hear_percent (by decide) (by decide) _
    exact heard

theorem permanentGline_alone : ∃ outcome, quietSite.mGline (vsnprintf fun _ => none) (some quietOper) "oper".toList
      ["0".toList, "*@a.b".toList, "spam".toList] = some outcome ∧
    ∀ path, path ≠ [] → ¬ Relayed (vsnprintf fun _ => none) path outcome 0 := by
  obtain ⟨outcome, set, -⟩ := quietGline fun _ => none
  exact ⟨outcome, set, (gline_agreement (fun _ => none) (by decide) (by decide) set).1⟩

end SolidIrcd.Gline
