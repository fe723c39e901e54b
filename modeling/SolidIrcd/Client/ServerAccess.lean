import Mathlib.Data.List.Pairwise
import SolidIrcd.Channel.MaskMatch
import SolidIrcd.Dns.Resolver

/-! Who may link as a server: `check_server_init`. -/

namespace SolidIrcd.ServerAccess

open Scan (Text)
open Dns (InAddr)

/-- A Connect block. -/
structure AConnect where
  name : Text
  host : Text
  ipnum : InAddr
  legal : Int
  deriving DecidableEq, Repr

/-- Two blocks have not one name, if a server can present it at all. -/
def AConnect.Apart (first second : AConnect) : Prop :=
  first.name.length ≤ hostLen → mycmp first.name second.name = false

/-- The list `connects`. -/
structure Connects where
  list : List AConnect
  alone : list.Pairwise AConnect.Apart

/-- `find_aConnect`. -/
def findAConnect (connects : List AConnect) (name : Text) : Option AConnect :=
  connects.find? fun tmp => Mask.matchMask name tmp.name

/-- A new block in the loop of `merge_connects`; its address is what `lookup_confhost` finds. -/
def Connects.merge (connects : Connects) (aconn : AConnect) : Connects :=
  match found : findAConnect connects.list aconn.name with
  | some old =>
    { list := connects.list.map fun other =>
        if other = old then { old with host := aconn.host, ipnum := aconn.ipnum, legal := 1 } else other
      alone := by
        rw [List.pairwise_map]
        refine connects.alone.imp fun {first second} differ short => ?_
        have name (other : AConnect) : AConnect.name (if other = old then
            { old with host := aconn.host, ipnum := aconn.ipnum, legal := 1 } else other) = other.name := by
          split
          next same => rw [same]
          next => rfl
        rw [name] at short ⊢
        rw [name]
        exact differ short }
  | none =>
    { list := { aconn with legal := 1 } :: connects.list
      alone := by
        refine List.pairwise_cons.mpr ⟨fun other member short => ?_, connects.alone⟩
        have missed := List.find?_eq_none.mp found other member
        refine Bool.eq_false_iff.mpr fun same => missed (Mask.matchMask_of_mycmp same (short.trans ?_))
        decide }

/-- The end of `merge_connects`: what is no longer configured goes, unless a server is linked by it. -/
def Connects.prune (connects : Connects) (acpt : AConnect → Bool) : Connects :=
  { list := connects.list.filter fun aconn => aconn.legal ≠ -1 || acpt aconn
    alone := connects.alone.filter _ }

/-- A connection that has sent SERVER, and what it is checked against. -/
structure Request where
  name : Text
  short : name.length ≤ hostLen
  /-- What `getpeername` says, where it does not fail. -/
  peer : Option InAddr
  /-- The addresses of the host entry that was found when it connected. -/
  hostp : Option (List InAddr)
  connects : Connects
  uservers : List Text
  /-- The addresses that the resolver knows for a name. -/
  gethostByname : Text → Option (List InAddr)

/-- `find_aUserver`. -/
def findAUserver (uservers : List Text) (name : Text) : Bool := uservers.any (mycmp name)

/-- The host of a block, without the user in front of it. -/
def AConnect.hostname (aconn : AConnect) : Text :=
  match aconn.host.dropWhile (· ≠ '@') with
  | [] => aconn.host
  | _ :: s => s

/-- `hostp` after `check_init`, which drops it for the loopback net. -/
def Request.entry (request : Request) (ip : InAddr) : Option (List InAddr) :=
  if ip.b0 = 127 then none else request.hostp

/-- The host entry `hp` that the addresses are taken from. One that is looked up must have the peer's address. -/
def Request.hp (request : Request) (aconn : AConnect) (ip : InAddr) : Option (List InAddr) :=
  match request.entry ip with
  | some hp => some hp
  | none =>
    match request.gethostByname aconn.hostname with
    | some hp => if ip ∈ hp then some hp else none
    | none => none

/-- `ok`, which every address of the entry sets anew. -/
def Request.ok (request : Request) (aconn : AConnect) (ip : InAddr) : Bool :=
  match request.hp aconn ip with
  | some hp => hp.foldl (fun _ addr => aconn.ipnum == addr) false
  | none => aconn.ipnum == ip

inductive Answer where
  | badSocket
  | denied
  /-- `serv->aconn`, and whether the client is marked as U:lined. -/
  | granted (aconn : AConnect) (uline : Bool)
  deriving DecidableEq, Repr

def InAddr.ones : InAddr := ⟨255, 255, 255, 255⟩

/-- `check_server_init`. -/
def checkServerInit (request : Request) : Answer :=
  match request.peer with
  | none => .badSocket
  | some ip =>
    match findAConnect request.connects.list request.name with
    | none => .denied
    | some aconn =>
      if request.ok aconn ip then
        .granted (if aconn.ipnum = InAddr.ones then { aconn with ipnum := ip } else aconn)
          (findAUserver request.uservers request.name)
      else .denied

def Answer.accepts : Answer → Bool
  | .granted _ _ => true
  | _ => false

/-- The addresses that the resolver knows for the host of a block. -/
def Request.resolved (request : Request) (aconn : AConnect) : List InAddr :=
  (request.gethostByname aconn.hostname).getD []

/-- The block has the peer's address, or its host is the peer's. -/
def Request.Serves (request : Request) (ip : InAddr) (aconn : AConnect) : Prop :=
  aconn.ipnum = ip ∨ ip ∈ request.resolved aconn

/-- Accepted where a block of the name is for the server that presents itself, and only there. -/
def Request.Exact (request : Request) : Prop :=
  ((checkServerInit request).accepts = true → ∃ ip, request.peer = some ip ∧
    ∃ aconn ∈ request.connects.list, mycmp request.name aconn.name = true ∧ request.Serves ip aconn) ∧
  (∀ ip, request.peer = some ip → (∃ aconn ∈ request.connects.list, aconn.legal ≠ -1 ∧
    mycmp request.name aconn.name = true ∧ request.Serves ip aconn) → (checkServerInit request).accepts = true)

/-- The block of the presented name. -/
def Request.namesake (request : Request) : Option AConnect :=
  request.connects.list.find? fun aconn => mycmp request.name aconn.name

/-- The address that is compared with that of a block: the last one of the host entry, or the last one of the block's
host where that has the peer's, or the peer's. -/
def Request.compared (request : Request) (ip : InAddr) (aconn : AConnect) : Option InAddr :=
  match request.entry ip with
  | some hp => hp.getLast?
  | none => if ip ∈ request.resolved aconn then (request.resolved aconn).getLast? else some ip

/-- The inputs for which the check goes right, by the first block that the name finds as a mask and the block that has
the name. -/
def Request.Right (request : Request) (ip : InAddr) : Prop :=
  match findAConnect request.connects.list request.name, request.namesake with
  | none, _ => True
  | some first, none => request.compared ip first ≠ some first.ipnum
  | some first, some block =>
    if first ≠ block then
      if request.compared ip first = some first.ipnum then request.Serves ip block
      else block.legal = -1 ∨ ¬ request.Serves ip block
    else
      match request.entry ip with
      | some hp =>
        if hp.getLast? = some block.ipnum then request.Serves ip block
        else block.legal = -1 ∨ ¬ request.Serves ip block
      -- the host of the block has not the peer's address, or that of the block last
      | none => ip ∈ request.resolved block → (request.resolved block).getLast? = some block.ipnum ∨ block.legal = -1

variable {request : Request}

/-- Only the last address counts. -/
theorem foldl_last (ipnum : InAddr) (hp : List InAddr) (ok : Bool) :
    hp.foldl (fun _ addr => ipnum == addr) ok = true ↔ hp.getLast? = some ipnum ∨ hp = [] ∧ ok = true := by
  induction hp generalizing ok with
  | nil => simp
  | cons addr rest ih =>
    rw [List.foldl_cons, ih]
    cases rest with
    | nil => simp [@eq_comm _ ipnum addr]
    | cons next rest => simp

theorem ok_iff (aconn : AConnect) (ip : InAddr) :
    request.ok aconn ip = true ↔ request.compared ip aconn = some aconn.ipnum := by
  have last (hp : List InAddr) :
      hp.foldl (fun _ addr => aconn.ipnum == addr) false = true ↔ hp.getLast? = some aconn.ipnum := by
    rw [foldl_last]
    exact or_iff_left fun none => Bool.false_ne_true none.2
  have own : (aconn.ipnum == ip) = true ↔ some ip = some aconn.ipnum := by
    rw [beq_iff_eq, Option.some.injEq, eq_comm]
  unfold Request.ok Request.hp Request.compared Request.resolved
  cases request.entry ip with
  | some hp => exact last hp
  | none =>
    cases request.gethostByname aconn.hostname with
    | none => exact own
    | some hp =>
      by_cases listed : ip ∈ hp
      · simpa [listed] using last hp
      · simpa [listed] using own

theorem accepts_iff (request : Request) : (checkServerInit request).accepts = true ↔
    ∃ ip, request.peer = some ip ∧ ∃ aconn, findAConnect request.connects.list request.name = some aconn ∧
      request.compared ip aconn = some aconn.ipnum := by
  simp only [← ok_iff]
  unfold checkServerInit
  cases request.peer with
  | none => simp [Answer.accepts]
  | some ip =>
    cases findAConnect request.connects.list request.name with
    | none => simp [Answer.accepts]
    | some aconn =>
      cases ok : request.ok aconn ip with
      | false => simp [Answer.accepts, ok]
      | true => simp [Answer.accepts, ok]

instance : Std.Symm AConnect.Apart where
  symm first second apart short := by
    rw [mycmp_comm]
    refine Bool.eq_false_iff.mpr fun same => ?_
    rw [apart (length_of_mycmp same ▸ short)] at same
    cases same

/-- There is one block of a name at most. -/
theorem namesake_iff : request.namesake = some aconn ↔
    aconn ∈ request.connects.list ∧ mycmp request.name aconn.name = true := by
  have found (block : AConnect) (namesake : request.namesake = some block) :
      block ∈ request.connects.list ∧ mycmp request.name block.name = true :=
    ⟨List.mem_of_find?_eq_some namesake,
      List.find?_some (p := fun aconn : AConnect => mycmp request.name aconn.name) namesake⟩
  refine ⟨found aconn, ?_⟩
  rintro ⟨member, same⟩
  cases namesake : request.namesake with
  | none => exact absurd same (List.find?_eq_none.mp namesake aconn member)
  | some other =>
    obtain ⟨member', same'⟩ := found other namesake
    by_contra differ
    have apart : AConnect.Apart other aconn :=
      request.connects.alone.forall member' member fun equal => differ (congrArg some equal)
    rw [mycmp_comm] at same'
    have equal := mycmp_trans same' same
    rw [apart (length_of_mycmp same' ▸ request.short)] at equal
    cases equal

/-- A name that some block has finds one as a mask. -/
theorem namesake_none (found : findAConnect request.connects.list request.name = none) :
    request.namesake = none := by
  cases named : request.namesake with
  | none => rfl
  | some block =>
    obtain ⟨member, same⟩ := namesake_iff.mp named
    exact absurd (Mask.matchMask_of_mycmp same (request.short.trans (by decide)))
      (List.find?_eq_none.mp found block member)

/-- What the claimed access comes to for one peer address: the comparison decides, and the block of the name is what
it ought to decide for. -/
theorem exact_iff (request : Request) : request.Exact ↔ ∀ ip, request.peer = some ip →
    ((∃ first, findAConnect request.connects.list request.name = some first ∧
        request.compared ip first = some first.ipnum) →
      ∃ block, request.namesake = some block ∧ request.Serves ip block) ∧
    ((∃ block, request.namesake = some block ∧ block.legal ≠ -1 ∧ request.Serves ip block) →
      ∃ first, findAConnect request.connects.list request.name = some first ∧
        request.compared ip first = some first.ipnum) := by
  simp only [Request.Exact, accepts_iff, namesake_iff, and_assoc]
  constructor
  · rintro ⟨sound, complete⟩ ip peer
    constructor
    · intro accepted
      obtain ⟨ip', peer', authorised⟩ := sound ⟨ip, peer, accepted⟩
      obtain rfl := Option.some.inj (peer.symm.trans peer')
      exact authorised
    · rintro ⟨block, member, named, legal, serves⟩
      obtain ⟨ip', peer', accepted⟩ := complete ip peer ⟨block, member, legal, named, serves⟩
      obtain rfl := Option.some.inj (peer.symm.trans peer')
      exact accepted
  · intro each
    constructor
    · rintro ⟨ip, peer, accepted⟩
      exact ⟨ip, peer, (each ip peer).1 accepted⟩
    · rintro ip peer ⟨block, member, legal, named, serves⟩
      exact ⟨ip, peer, (each ip peer).2 ⟨block, member, named, legal, serves⟩⟩

/-- The check is exact just for these inputs. -/
theorem checkServerInit_exact (request : Request) :
    request.Exact ↔ ∀ ip, request.peer = some ip → request.Right ip := by
  rw [exact_iff]
  refine forall_congr' fun ip => forall_congr' fun _ => ?_
  unfold Request.Right
  cases found : findAConnect request.connects.list request.name with
  | none => simp [namesake_none found]
  | some first =>
    cases named : request.namesake with
    | none => simp
    | some block =>
      have sides : (request.compared ip first = some first.ipnum → request.Serves ip block) ∧
          (block.legal ≠ -1 ∧ request.Serves ip block → request.compared ip first = some first.ipnum) ↔
          if request.compared ip first = some first.ipnum then request.Serves ip block
          else block.legal = -1 ∨ ¬ request.Serves ip block := by
        by_cases same : request.compared ip first = some first.ipnum
        · simp [same]
        · simp only [same, false_imp_iff, true_and, if_false, imp_false, not_and_or, ne_eq, not_not]
      simp only [Option.some.injEq, exists_eq_left', sides]
      by_cases other : first ≠ block
      · rw [if_pos other]
      · rw [if_neg other]
        obtain rfl := not_not.mp other
        cases entry : request.entry ip with
        | some hp => simp only [Request.compared, entry]
        | none =>
          by_cases resolved : ip ∈ request.resolved first
          · have serves : request.Serves ip first := .inr resolved
            simp only [Request.compared, entry, resolved, if_true, serves, not_true, or_false, forall_const]
            by_cases last : (request.resolved first).getLast? = some first.ipnum <;> simp [last]
          · simp only [Request.compared, entry, resolved, if_false, Request.Serves, or_false, false_imp_iff, iff_true,
              Option.some.injEq]
            by_cases own : ip = first.ipnum
            · simp [own]
            · simp [own, Ne.symm own]

/-- The hub links from its address and says that its name is `???.net`. -/
def maskedHub : Request where
  name := "???.net".toList
  short := by decide
  peer := some ⟨10, 0, 0, 1⟩
  hostp := none
  connects := ⟨[⟨"hub.net".toList, "ircd@10.0.0.1".toList, ⟨10, 0, 0, 1⟩, 1⟩], List.pairwise_singleton ..⟩
  uservers := []
  gethostByname := fun _ => none

theorem questions_match : Mask.matchMask "???.net".toList "hub.net".toList = true := by
  have nickless : Mask.skipCommon '!' "???.net".toList "hub.net".toList = some ("???.net".toList, "hub.net".toList) := by
    decide
  have userless : Mask.skipCommon '@' "???.net".toList "hub.net".toList = some ("???.net".toList, "hub.net".toList) := by
    decide
  rw [Mask.matchMask, Mask.matchCall_skip, if_neg (by decide), nickless, Option.bind_some]
  dsimp only
  rw [userless]
  simp [Mask.matchLoop]

/-- It is accepted under a name that no block has. -/
theorem maskedHub_accepted : (checkServerInit maskedHub).accepts = true ∧ ¬ maskedHub.Exact := by
  have found : findAConnect maskedHub.connects.list maskedHub.name = maskedHub.connects.list.head? := by
    rw [findAConnect]
    exact List.find?_cons_of_pos questions_match
  have accepted : (checkServerInit maskedHub).accepts = true :=
    (accepts_iff maskedHub).mpr ⟨⟨10, 0, 0, 1⟩, rfl, _, found, by decide⟩
  refine ⟨accepted, ?_⟩
  intro exact
  obtain ⟨ip, _, aconn, member, same, _⟩ := exact.1 accepted
  rw [List.mem_singleton.mp member] at same
  exact absurd same (by decide)

end SolidIrcd.ServerAccess
