import SolidIrcd.Dns.Requests

/-! Which names the server takes for its clients: those that a forward answer has confirmed, as long as the order of
the records in a reply does not hide what it answers. -/

namespace SolidIrcd.Dns

open Scan (Text)

inductive Event where
  /-- `add_connection`. -/
  | addConnection (cptr : ClientId) (sending : Option Sending)
  /-- For a connect block. -/
  | gethostByname (name : Text) (lp : Link) (sending : Option Sending)
  /-- A turn of `do_dns_async`. -/
  | getRes (packet : Packet) (sending : Option Sending)
  | timeoutQuery (address : Nat) (sending : Option Sending)
  | delQueries (cp : ClientId ⊕ Nat)
  /-- `expire_cache` and `flush_cache`. -/
  | remCache (ocp : ACache)

/-- The resolver, with the forward answers that were accepted (the name that was asked for and the addresses) and the
names that were returned for clients. -/
structure World where
  resolver : Resolver
  answers : List (Text × List InAddr)
  returned : List (ClientId × Text)

def Record.address : Record → Option InAddr
  | .a _ dr => dr
  | _ => none

/-- The name a record gives to a host that has none. -/
def Record.gives (res : Res) : Record → Option Text
  | .a owner _ => some (defaultDomain res owner)
  | .ptr _ target => target
  | _ => none

variable (res : Res) (ip : ClientId → InAddr)

def perform (world : World) : Event → World
  | .addConnection cptr sending =>
    let (resolver, hostp) := gethostByaddr world.resolver (ip cptr) (.client cptr) sending
    { world with resolver := resolver, returned := world.returned ++ (hostp.map fun cp => (cptr, cp.hName)).toList }
  | .gethostByname name lp sending => { world with resolver := gethostByname world.resolver name lp sending }
  | .getRes packet sending =>
    let answers := (answered res world.resolver packet).bind fun rptr =>
      rptr.name.map fun name => (name, packet.answers.filterMap Record.address)
    match getRes res world.resolver packet sending with
    | (resolver, some (.client cptr), hp) =>
      { resolver := delQueries resolver (.inl cptr), answers := world.answers ++ answers.toList
        returned := world.returned ++ (hp.map fun cp => (cptr, cp.hName)).toList }
    | (resolver, _, _) => { world with resolver := resolver, answers := world.answers ++ answers.toList }
  | .timeoutQuery address sending => { world with resolver := timeoutQuery world.resolver address sending }
  | .delQueries cp => { world with resolver := delQueries world.resolver cp }
  | .remCache ocp => { world with resolver := remCache world.resolver ocp }

/-- Names are looked up for connect blocks only. -/
def possible (_ : World) : Event → Prop
  | .gethostByname _ lp _ => ∀ cptr, lp ≠ .client cptr
  | _ => True

def lookups : Machine World Event := ⟨perform res ip, possible⟩

def World.start : World := ⟨⟨[], [], fun _ => [], 0, .success, 0⟩, [], []⟩

/-- The name was asked for, and the address was in the answer. -/
def Confirmed (answers : List (Text × List InAddr)) (name : Text) (addr : InAddr) : Prop :=
  ∃ question addrs, (question, addrs) ∈ answers ∧ mycmp question name = true ∧ addr ∈ addrs

/-- The type of the last record that is kept, for a host that may have a name and some aliases already. -/
def lastKept : Bool → Nat → List Record → Option RType
  | _, _, [] => none
  | _, aliases, .a _ _ :: rest => (lastKept true aliases rest).or (some .a)
  | false, aliases, .ptr _ (some _) :: rest => (lastKept true aliases rest).or (some .ptr)
  | true, aliases, .ptr _ (some _) :: rest =>
    if maxAliases - 1 ≤ aliases then lastKept true aliases rest
    else (lastKept true (aliases + 1) rest).or (some .ptr)
  | named, aliases, .cname _ _ :: rest =>
    if maxAliases - 1 ≤ aliases then lastKept named aliases rest
    else (lastKept named (aliases + 1) rest).or (some .cname)
  | named, aliases, _ :: rest => lastKept named aliases rest

/-- A reply that is not refused: its last record is of the type that was asked for; and where a name was asked for,
the host gets that name, and there is no address in the request from a reply before. -/
def Orderly (world : World) : Event → Prop
  | .getRes packet _ =>
    ∀ rptr, answered res world.resolver packet = some rptr →
      match rptr.name with
      | none => lastKept rptr.he.hName.isSome rptr.he.hAliases.length packet.answers = some .ptr
      | some name =>
        lastKept rptr.he.hName.isSome rptr.he.hAliases.length packet.answers = some .a ∧
          (∀ host, rptr.he.hName.or (packet.answers.findSome? (·.gives res)) = some host → mycmp name host = true) ∧
          ∀ addr ∈ rptr.he.hAddrList, addr = .zero
  | _ => True

/-! What a reply does to a request -/

section

variable {res ip} {proc next : Proc}

/-- What is known of a host when every record has been kept. -/
structure Holds (res : Res) (proc : Proc) (records : List Record) (after : ResRQ) : Prop where
  type : after.type =
    (lastKept proc.rptr.he.hName.isSome proc.rptr.he.hAliases.length records).getD proc.rptr.type
  hName : after.he.hName = proc.rptr.he.hName.or (records.findSome? (·.gives res))
  addresses : ∀ addr ∈ after.he.hAddrList, addr ∈ proc.rptr.he.hAddrList ∨ addr ∈ records.filterMap Record.address

theorem getD_or_some (kept : Option RType) (type before : RType) :
    (kept.or (some type)).getD before = kept.getD type := by
  cases kept <;> rfl

theorem keep_holds (keeps : proc.keep res record = some next) (holds : Holds res next rest final) :
    Holds res proc (record :: rest) final := by
  obtain ⟨type, hName, addresses⟩ := holds
  cases record with
  | a owner dr =>
    cases dr with
    | none => simp [Proc.keep] at keeps
    | some dr =>
      obtain rfl := Option.some.inj keeps
      refine ⟨?_, ?_, fun addr member => ?_⟩
      · rw [type, lastKept, getD_or_some, Option.isSome_or, Option.isSome_some, Bool.or_true]
      · rw [hName, List.findSome?_cons, Option.or_assoc]
        rfl
      · rcases addresses addr member with collected | behind
        · dsimp only at collected
          split at collected
          · rcases List.mem_or_eq_of_mem_set collected with before | new
            · exact .inl before
            · exact .inr (by simp [Record.address, new])
          · exact .inl collected
        · exact .inr (by simp only [List.filterMap_cons, Record.address]; exact .tail _ behind)
  | ptr owner target =>
    have behind (addr : InAddr) (member : addr ∈ rest.filterMap Record.address) :
        addr ∈ (Record.ptr owner target :: rest).filterMap Record.address := by
      simpa [List.filterMap_cons, Record.address] using member
    cases target with
    | none =>
      obtain rfl := Option.some.inj keeps
      refine ⟨?_, ?_, fun addr member => (addresses addr member).imp_right (behind addr)⟩
      · rw [type, lastKept]
        all_goals simp
      · rw [hName, List.findSome?_cons]
        rfl
    | some target =>
      simp only [Proc.keep] at keeps
      cases named : proc.rptr.he.hName with
      | none =>
        simp only [named] at keeps
        obtain rfl := Option.some.inj keeps
        refine ⟨?_, ?_, fun addr member => (addresses addr member).imp_right (behind addr)⟩
        · rw [type, named, Option.isSome_none, lastKept, getD_or_some]
          rfl
        · rw [hName, List.findSome?_cons, named]
          rfl
      | some host =>
        simp only [named] at keeps
        split at keeps
        · rename_i full
          obtain rfl := Option.some.inj keeps
          refine ⟨?_, ?_, fun addr member => (addresses addr member).imp_right (behind addr)⟩
          · rw [type, named, Option.isSome_some, lastKept, if_pos full]
          · rw [hName, named]
            rfl
        · rename_i room
          obtain rfl := Option.some.inj keeps
          refine ⟨?_, ?_, fun addr member => (addresses addr member).imp_right (behind addr)⟩
          · rw [type, named, Option.isSome_some, lastKept, if_neg room, getD_or_some, List.length_append,
              List.length_singleton]
          · rw [hName, named]
            rfl
  | cname owner target =>
    have behind (addr : InAddr) (member : addr ∈ rest.filterMap Record.address) :
        addr ∈ (Record.cname owner target :: rest).filterMap Record.address := by
      simpa [List.filterMap_cons, Record.address] using member
    simp only [Proc.keep] at keeps
    split at keeps
    · rename_i full
      obtain rfl := Option.some.inj keeps
      refine ⟨?_, ?_, fun addr member => (addresses addr member).imp_right (behind addr)⟩
      · rw [type, lastKept, if_pos full]
      · rw [hName, List.findSome?_cons]
        rfl
    · rename_i room
      obtain rfl := Option.some.inj keeps
      refine ⟨?_, ?_, fun addr member => (addresses addr member).imp_right (behind addr)⟩
      · rw [type, lastKept, if_neg room, getD_or_some, List.length_append, List.length_singleton]
      · rw [hName, List.findSome?_cons]
        rfl
  | other owner =>
    obtain rfl := Option.some.inj keeps
    refine ⟨?_, ?_, fun addr member => ?_⟩
    · rw [type, lastKept]
      all_goals simp
    · rw [hName, List.findSome?_cons]
      rfl
    · simpa [List.filterMap_cons, Record.address] using addresses addr member

theorem procRecords_holds (answers : procRecords res origtype proc records = (final, .answers ans)) :
    Holds res proc records final := by
  induction records generalizing proc with
  | nil =>
    rw [procRecords] at answers
    obtain rfl := congrArg Prod.fst answers
    exact ⟨rfl, by simp, fun addr member => .inl member⟩
  | cons record rest ih =>
    rw [procRecords] at answers
    split at answers
    · cases keeps : proc.keep res record with
      | none => simp [keeps] at answers
      | some after => exact keep_holds keeps (ih (by simpa only [keeps] using answers))
    · cases answers

/-! What is known of the resolver -/

/-- What a lookup for a client holds of addresses is the client's: those of its reverse request, and those that the
forward answer is compared with. -/
def Traced (ip : ClientId → InAddr) (rptr : ResRQ) : Prop :=
  ∀ cptr, rptr.cinfo = .client cptr →
    match rptr.name with
    | none => ∀ addr ∈ rptr.he.addrs, addr = ip cptr
    | some _ => rptr.hasRev = true ∧ ∀ addr ∈ rptr.heRev.addrs, addr = ip cptr

structure Sound (ip : ClientId → InAddr) (answers : List (Text × List InAddr)) (state : Resolver) : Prop where
  cached : ∀ hashv, ∀ cp ∈ state.numList hashv, ∀ addr ∈ cp.hAddrList, Confirmed answers cp.hName addr
  traced : ∀ rptr ∈ state.requests, Traced ip rptr

theorem Confirmed.more (confirmed : Confirmed answers name addr) (more : List (Text × List InAddr)) :
    Confirmed (answers ++ more) name addr := by
  obtain ⟨question, addrs, member, same, inside⟩ := confirmed
  exact ⟨question, addrs, List.mem_append_left _ member, same, inside⟩

theorem Sound.more (sound : Sound ip answers state) (more : List (Text × List InAddr)) :
    Sound ip (answers ++ more) state :=
  ⟨fun hashv cp member addr inside => (sound.cached hashv cp member addr inside).more more, sound.traced⟩

theorem Traced.collects (traced : Traced ip before) (collects : Collects before after) : Traced ip after := by
  intro cptr forClient
  have known := traced cptr (collects.cinfo.symm.trans forClient)
  rw [collects.name]
  cases name : before.name with
  | none =>
    rw [name] at known
    simpa only [Hent.addrs, collects.reverse name] using known
  | some name =>
    simp only [name] at known
    rw [collects.hasRev, collects.heRev]
    exact known

theorem Sound.of_lists (sound : Sound ip answers state) (requests : after.requests = state.requests)
    (numList : after.numList = state.numList) : Sound ip answers after :=
  ⟨by rw [numList]; exact sound.cached, by rw [requests]; exact sound.traced⟩

theorem Sound.of_sameCache (sound : Sound ip answers state) (cache : SameCache state after)
    (traced : Outstanding (Traced ip) after) : Sound ip answers after :=
  ⟨by rw [cache.numList]; exact sound.cached, traced⟩

theorem traced_steady : Steady (Traced ip) := by
  intro before after resent traced cptr forClient
  have known := traced cptr (resent.cinfo.symm.trans forClient)
  rw [resent.name]
  cases name : before.name with
  | none =>
    rw [name] at known
    rw [resent.he]
    exact known
  | some name =>
    simp only [name] at known
    rw [resent.hasRev, resent.heRev]
    exact known

theorem Sound.remRequest (sound : Sound ip answers state) (address : Nat) :
    Sound ip answers (remRequest state address) :=
  sound.of_sameCache (remRequest_sameCache state address) (Outstanding.remRequest sound.traced address)

theorem Sound.delQueries (sound : Sound ip answers state) (cp : ClientId ⊕ Nat) :
    Sound ip answers (delQueries state cp) :=
  sound.of_sameCache (delQueries_sameCache state cp) (Outstanding.delQueries sound.traced cp)

theorem findCacheNumbers_spec (sound : Sound ip answers state) (numbs : List InAddr) :
    Sound ip answers (findCacheNumbers state numbs).1 ∧
      ∀ cp, (findCacheNumbers state numbs).2 = some cp → ∃ numb ∈ numbs, Confirmed answers cp.hName numb := by
  induction numbs generalizing state with
  | nil => exact ⟨sound, fun _ same => nomatch same⟩
  | cons numb rest ih =>
    obtain ⟨requests, numList, found⟩ := findCacheNumber_spec state numb
    rw [findCacheNumbers]
    rcases step : findCacheNumber state numb with ⟨middle, hit⟩
    rw [step] at requests numList found
    have after := sound.of_lists requests numList
    cases hit with
    | none =>
      obtain ⟨rest', later⟩ := ih after
      exact ⟨rest', fun cp same => (later cp same).imp fun _ found => ⟨.tail _ found.1, found.2⟩⟩
    | some cp =>
      refine ⟨after, fun other same => ⟨numb, .head _, ?_⟩⟩
      obtain ⟨member, inside⟩ := found cp rfl
      rw [← Option.some.inj same]
      exact sound.cached _ cp member numb inside

theorem Sound.remCache (sound : Sound ip answers state) (ocp : ACache) : Sound ip answers (remCache state ocp) := by
  refine ⟨fun hashv cp member => ?_, sound.traced⟩
  simp only [Dns.remCache, Function.update_apply] at member
  split at member
  · exact sound.cached _ cp (List.mem_filter.mp member).1
  · exact sound.cached hashv cp member

theorem Sound.addToCache (sound : Sound ip answers state)
    (confirmed : ∀ addr ∈ ocp.hAddrList, Confirmed answers ocp.hName addr) :
    Sound ip answers (addToCache state ocp) := by
  have added : Sound ip answers { state with
      cachetop := ocp :: state.cachetop
      numList := Function.update state.numList (hashNumber (ocp.hAddrList.headD .zero))
        (ocp :: state.numList (hashNumber (ocp.hAddrList.headD .zero)))
      incache := state.incache + 1
      made := state.made + 1 } := by
    refine ⟨fun hashv cp member => ?_, sound.traced⟩
    simp only [Function.update_apply] at member
    split at member
    · rcases List.mem_cons.mp member with rfl | before
      · exact confirmed
      · exact sound.cached _ cp before
    · exact sound.cached hashv cp member
  unfold Dns.addToCache
  dsimp only
  split
  · rw [List.getLast?_cons, Option.map_some, Option.getD_some]
    exact added.remCache _
  · exact added

/-- What `make_cache` returns is confirmed for one of the addresses. -/
theorem makeCache_spec (rptr : ResRQ) (sound : Sound ip answers state)
    (confirmed : ∀ hName, rptr.he.hName = some hName → ∀ addr ∈ rptr.he.addrs, Confirmed answers hName addr) :
    Sound ip answers (makeCache state rptr).1 ∧
      ∀ cp, (makeCache state rptr).2 = some cp → ∃ addr ∈ rptr.he.addrs, Confirmed answers cp.hName addr := by
  unfold makeCache
  split
  · exact ⟨sound, fun _ same => nomatch same⟩
  · exact ⟨sound, fun _ same => nomatch same⟩
  · rename_i hName named some
    obtain ⟨after, found⟩ := findCacheNumbers_spec sound rptr.he.addrs
    rcases search : findCacheNumbers state rptr.he.addrs with ⟨middle, hit⟩
    rw [search] at after found
    cases hit with
    | some cp => exact ⟨after, found⟩
    | none =>
      refine ⟨after.addToCache (confirmed hName named), fun cp same => ?_⟩
      obtain ⟨addr, rest, addrs⟩ := List.exists_cons_of_ne_nil (fun none => some none)
      rw [← Option.some.inj same]
      exact ⟨addr, by rw [addrs]; exact .head _, confirmed hName named addr (by rw [addrs]; exact .head _)⟩

theorem doQueryName_sound (sound : Sound ip answers state) (name : Text) (lp : Link) (sending : Option Sending)
    (other : ∀ cptr, lp ≠ .client cptr) : Sound ip answers (doQueryName state lp name sending) := by
  have traced : Traced ip { makeRequest state lp with type := .a, name := some name } :=
    fun cptr same => absurd same (other cptr)
  have resent := traced_steady _ _ (queryName_resent _ state.hErrno sending) traced
  exact sound.of_sameCache (doQueryName_sameCache state lp name sending) (Outstanding.addRequest sound.traced resent)

theorem doQueryNumber_sound (sound : Sound ip answers state) (cptr : ClientId) (sending : Option Sending) :
    Sound ip answers (doQueryNumber state (.client cptr) (ip cptr) sending) := by
  have traced : Traced ip { makeRequest state (.client cptr) with
      type := .ptr, addr := ip cptr, he := { Hent.blank with hAddrList := Hent.blank.hAddrList.set 0 (ip cptr) } } := by
    intro other forClient addr member
    obtain rfl := Link.client.inj forClient
    have known := (List.takeWhile_sublist _).subset member
    have nonzero := List.mem_takeWhile_imp member
    rcases List.mem_or_eq_of_mem_set known with blank | same
    · simp [List.eq_of_mem_replicate blank] at nonzero
    · exact same
  have resent := traced_steady _ _ (queryName_resent _ state.hErrno sending) traced
  exact sound.of_sameCache (doQueryNumber_sameCache state (.client cptr) (ip cptr) sending)
    (Outstanding.addRequest sound.traced resent)

/-- A reverse answer is followed by a forward request that knows the client's address. -/
theorem accept_ptr (sound : Sound ip answers state) (traced : Traced ip rptr) (type : rptr.type = .ptr)
    (name : rptr.name = none) (sending : Option Sending) :
    Sound ip answers (accept state rptr sending).1 ∧ (accept state rptr sending).2.2 = none := by
  unfold accept
  rw [type]
  dsimp only
  split
  · exact ⟨sound.remRequest _, rfl⟩
  · rename_i hName _
    refine ⟨?_, rfl⟩
    apply Sound.remRequest
    refine ⟨sound.cached, ?_⟩
    apply Outstanding.relookup traced_steady sound.traced
    intro cptr forClient
    have known := traced cptr forClient
    rw [name] at known
    exact ⟨rfl, known⟩

theorem confirm_spec (confirms : confirm rptr = some after) :
    after.he.hName = rptr.he.hName ∧ (∀ addr ∈ after.he.addrs, addr ∈ rptr.he.addrs ∧ addr ∈ rptr.heRev.addrs) ∧
      after.cinfo = rptr.cinfo := by
  unfold confirm at confirms
  split at confirms
  · cases confirms
  · split at confirms
    · cases confirms
    · split at confirms
      · rename_i all
        obtain rfl := Option.some.inj confirms
        have same : matching rptr = rptr.he.addrs := List.filter_sublist.eq_of_length all
        refine ⟨rfl, fun addr member => ⟨member, ?_⟩, rfl⟩
        rw [← same] at member
        simpa using (List.mem_filter.mp member).2
      · obtain rfl := Option.some.inj confirms
        refine ⟨rfl, fun addr member => ?_, rfl⟩
        have inside : addr ∈ matching rptr := (List.takeWhile_sublist _).subset member
        obtain ⟨forward, reverse⟩ := List.mem_filter.mp inside
        exact ⟨forward, by simpa using reverse⟩

/-- A forward answer is taken for the client whose address it names. -/
theorem accept_a (sound : Sound ip answers state) (traced : Traced ip rptr) (type : rptr.type = .a)
    (name : rptr.name ≠ none)
    (confirmed : ∀ hName, rptr.he.hName = some hName → ∀ addr ∈ rptr.he.addrs, Confirmed answers hName addr)
    (sending : Option Sending) :
    Sound ip answers (accept state rptr sending).1 ∧
      ∀ cptr cp, (accept state rptr sending).2.1 = some (.client cptr) →
        (accept state rptr sending).2.2 = some cp → Confirmed answers cp.hName (ip cptr) := by
  obtain ⟨question, asked⟩ := Option.ne_none_iff_exists'.mp name
  unfold accept
  rw [type]
  cases hasRev : rptr.hasRev with
  | false =>
    obtain ⟨after, _⟩ := makeCache_spec rptr sound confirmed
    refine ⟨after.remRequest _, fun cptr cp forClient _ => ?_⟩
    have known := traced cptr (Option.some.inj forClient)
    rw [asked] at known
    simp [hasRev] at known
  | true =>
    dsimp only
    cases confirms : confirm rptr with
    | none => exact ⟨sound.remRequest _, fun _ _ _ same => nomatch same⟩
    | some final =>
      obtain ⟨hName, addrs, cinfo⟩ := confirm_spec confirms
      obtain ⟨after, found⟩ := makeCache_spec final sound
        fun host named addr member => confirmed host (hName ▸ named) addr (addrs addr member).1
      refine ⟨after.remRequest _, fun cptr cp forClient hit => ?_⟩
      obtain ⟨addr, member, known⟩ := found cp hit
      have trace := traced cptr (cinfo ▸ Option.some.inj forClient)
      rw [asked] at trace
      rwa [trace.2 addr (addrs addr member).2] at known

theorem answered_spec (answer : answered res state packet = some rptr) :
    state.requests.find? (·.id = some packet.id) = some rptr ∧ fromNameserver res rptr packet.sin = true ∧
      packet.rcode = .noError ∧ packet.ancount ≠ 0 ∧
      ∃ after ans, procAnswer res rptr packet = (after, .answers (ans + 1)) := by
  obtain ⟨found, fits⟩ := Option.filter_eq_some_iff.mp answer
  simp only [Bool.and_eq_true, beq_iff_eq, bne_iff_ne] at fits
  obtain ⟨⟨⟨nameserver, rcode⟩, ancount⟩, verdict⟩ := fits
  refine ⟨found, nameserver, rcode, ancount, ?_⟩
  rcases answer : procAnswer res rptr packet with ⟨after, result⟩
  rw [answer] at verdict
  cases result with
  | answers ans =>
    cases ans with
    | zero => cases verdict
    | succ ans => exact ⟨after, ans, rfl⟩
  | _ => cases verdict

theorem procAnswer_holds (answers : procAnswer res rptr packet = (after, .answers (ans + 1))) :
    Holds res ⟨rptr, [], rptr.he.addrs.length, 0⟩ packet.answers after := by
  unfold procAnswer at answers
  split at answers
  · cases answers
  · split at answers
    · cases answers
    · cases answers
    · exact procRecords_holds answers

theorem getRes_answered (answer : answered res state packet = some rptr) (sending : Option Sending) :
    ∃ after ans, procAnswer res rptr packet = (after, .answers (ans + 1)) ∧
      getRes res state packet sending = accept state after sending := by
  obtain ⟨found, nameserver, rcode, ancount, after, ans, verdict⟩ := answered_spec answer
  refine ⟨after, ans, verdict, ?_⟩
  unfold getRes
  simp [found, nameserver, rcode, ancount, verdict]

/-- A host that a reply returns for a client bears a name that the address confirms. -/
theorem getRes_spec (sending : Option Sending) (sound : Sound ip world.answers world.resolver)
    (orderly : Orderly res world (.getRes packet sending)) :
    let answers := world.answers ++ ((answered res world.resolver packet).bind fun rptr =>
      rptr.name.map fun name => (name, packet.answers.filterMap Record.address)).toList
    Sound ip answers (getRes res world.resolver packet sending).1 ∧
      ∀ cptr cp, (getRes res world.resolver packet sending).2.1 = some (.client cptr) →
        (getRes res world.resolver packet sending).2.2 = some cp → Confirmed answers cp.hName (ip cptr) := by
  intro answers
  have sound' : Sound ip answers world.resolver := sound.more _
  cases answer : answered res world.resolver packet with
  | none =>
    obtain ⟨traced, cache, none⟩ := getRes_unanswered res traced_steady
      (fun rptr traced => traced.collects (procAnswer_collects res rptr packet)) sound'.traced answer sending
    refine ⟨sound'.of_sameCache cache traced, fun cptr cp _ hit => ?_⟩
    rw [none] at hit
    cases hit
  | some rptr =>
    have fits := orderly rptr answer
    obtain ⟨after, ans, verdict, accepts⟩ := getRes_answered answer sending
    obtain ⟨found, _⟩ := answered_spec answer
    have collects : Collects rptr after := by
      simpa only [verdict] using procAnswer_collects res rptr packet
    have traced := (sound'.traced rptr (List.mem_of_find?_eq_some found)).collects collects
    obtain ⟨type, hName, addresses⟩ := procAnswer_holds verdict
    rw [accepts]
    cases name : rptr.name with
    | none =>
      rw [name] at fits
      obtain ⟨sound, none⟩ := accept_ptr sound' traced (by rw [type, fits]; rfl) (collects.name.trans name) sending
      refine ⟨sound, fun cptr cp _ hit => ?_⟩
      rw [none] at hit
      cases hit
    | some question =>
      rw [name] at fits
      obtain ⟨last, named, clean⟩ := fits
      apply accept_a sound' traced (by rw [type, last]; rfl) (by rw [collects.name, name]; exact Option.some_ne_none _)
      intro host is addr member
      refine ⟨question, packet.answers.filterMap Record.address, ?_, named host (hName.symm.trans is), ?_⟩
      · simp [answers, answer, name]
      · rcases addresses addr ((List.takeWhile_sublist _).subset member) with before | new
        · have nonzero := List.mem_takeWhile_imp member
          simp [clean addr before] at nonzero
        · exact new

/-- The resolver is sound, and what was returned is confirmed. -/
structure Trusted (ip : ClientId → InAddr) (world : World) : Prop where
  sound : Sound ip world.answers world.resolver
  returned : ∀ entry ∈ world.returned, Confirmed world.answers entry.2 (ip entry.1)

theorem Trusted.add (more : List (Text × List InAddr)) (trusted : Trusted ip world)
    (sound : Sound ip (world.answers ++ more) resolver)
    (cptr : ClientId) (hp : Option ACache)
    (confirmed : ∀ cp, hp = some cp → Confirmed (world.answers ++ more) cp.hName (ip cptr)) :
    Trusted ip ⟨resolver, world.answers ++ more, world.returned ++ (hp.map fun cp => (cptr, cp.hName)).toList⟩ := by
  refine ⟨sound, fun entry member => ?_⟩
  rcases List.mem_append.mp member with before | new
  · exact (trusted.returned entry before).more more
  · cases hp with
    | none => cases new
    | some cp =>
      simp only [Option.map_some, Option.toList_some, List.mem_singleton] at new
      rw [new]
      exact confirmed cp rfl

theorem perform_trusted (event : Event) (possible : possible world event) (orderly : Orderly res world event)
    (trusted : Trusted ip world) : Trusted ip (perform res ip world event) := by
  cases event with
  | addConnection cptr sending =>
    obtain ⟨requests, numList, found⟩ := findCacheNumber_spec world.resolver (ip cptr)
    simp only [perform, gethostByaddr]
    rcases step : findCacheNumber world.resolver (ip cptr) with ⟨middle, hit⟩
    rw [step] at requests numList found
    have after := trusted.sound.of_lists requests numList
    cases hit with
    | some cp =>
      obtain ⟨member, inside⟩ := found cp rfl
      have known := trusted.sound.cached _ cp member _ inside
      have added := Trusted.add [] trusted (by rwa [List.append_nil]) cptr (some cp) fun other same => by
        rw [List.append_nil, ← Option.some.inj same]
        exact known
      rwa [List.append_nil] at added
    | none =>
      refine ⟨?_, by simpa using trusted.returned⟩
      exact doQueryNumber_sound after cptr sending
  | gethostByname name lp sending =>
    exact ⟨doQueryName_sound trusted.sound name lp sending possible, trusted.returned⟩
  | getRes packet sending =>
    obtain ⟨sound, confirmed⟩ := getRes_spec sending trusted.sound orderly
    simp only [perform]
    rcases result : getRes res world.resolver packet sending with ⟨resolver, lp, hp⟩
    rw [result] at sound confirmed
    have others : Trusted ip ⟨resolver, _, world.returned⟩ :=
      ⟨sound, fun entry member => (trusted.returned entry member).more _⟩
    cases lp with
    | none => exact others
    | some lp =>
      cases lp with
      | client cptr => exact trusted.add _ (sound.delQueries _) cptr hp fun cp hit => confirmed cptr cp rfl hit
      | connect aconn => exact others
      | conf aconn => exact others
  | timeoutQuery address sending =>
    refine ⟨?_, trusted.returned⟩
    exact trusted.sound.of_sameCache (timeoutQuery_sameCache world.resolver address sending)
      (Outstanding.timeoutQuery traced_steady trusted.sound.traced address sending)
  | delQueries cp => exact ⟨trusted.sound.delQueries cp, trusted.returned⟩
  | remCache ocp => exact ⟨trusted.sound.remCache ocp, trusted.returned⟩

/-- While replies are orderly, every name that is returned for a client was asked for, with an answer that held the
client's address; and so was every name of the cache, with the addresses it is kept for. -/
theorem hosts_confirmed (run : (lookups res ip).Run (Orderly res) World.start world) :
    (∀ entry ∈ world.returned, Confirmed world.answers entry.2 (ip entry.1)) ∧
      ∀ hashv, ∀ cp ∈ world.resolver.numList hashv, ∀ addr ∈ cp.hAddrList, Confirmed world.answers cp.hName addr := by
  have trusted : Trusted ip world := by
    refine run.invariant (Trusted ip) (fun world event possible orderly => perform_trusted event possible orderly) ?_
    exact ⟨⟨fun _ _ member => absurd member List.not_mem_nil, fun _ member => absurd member List.not_mem_nil⟩,
      fun _ member => absurd member List.not_mem_nil⟩
  exact ⟨trusted.returned, trusted.sound.cached⟩

end

private def local1 : InAddr := ⟨127, 0, 0, 1⟩

private def nameserver : Res := ⟨[local1], false, [], 4⟩

private def peer : ClientId → InAddr := fun _ => ⟨192, 0, 2, 7⟩

private def reverseZone : Text := "7.2.0.192.in-addr.arpa".toList

private def reverse (records : List Record) : Event :=
  .getRes ⟨local1, 1, .noError, 1, records.length, some (reverseZone, .ptr, true), records⟩ (some ⟨2, 1⟩)

private def forged : List Event :=
  [.addConnection 0 (some ⟨1, 1⟩),
    reverse [.ptr reverseZone (some "irc.example.net".toList), .cname reverseZone (some "a.example.org".toList)]]

/-- A CNAME behind the PTR hides what the reply is: the name is taken without a forward lookup. -/
theorem hosts_forged :
    ¬ ∀ (res : Res) (ip : ClientId → InAddr) (world : World),
      (lookups res ip).Run Machine.Any World.start world →
        ∀ entry ∈ world.returned, Confirmed world.answers entry.2 (ip entry.1) := by
  intro claim
  have run : (lookups nameserver peer).Run Machine.Any World.start _ :=
    Machine.Run.of_list forged (.refl _) ⟨trivial, trivial, trivial, trivial, trivial⟩
  have returned : (0, "irc.example.net".toList) ∈ (forged.foldl (perform nameserver peer) .start).returned := by decide
  obtain ⟨_, _, member, _⟩ := claim nameserver peer _ run _ returned
  have none : (forged.foldl (perform nameserver peer) .start).answers = [] := by decide
  exact absurd (none ▸ member) List.not_mem_nil

private def genuine : List Event :=
  [.addConnection 0 (some ⟨1, 1⟩),
    reverse [.cname reverseZone (some "7.net.example.org".toList),
      .ptr "7.net.example.org".toList (some "a.example.org".toList)],
    .getRes ⟨local1, 2, .noError, 1, 1, some ("a.example.org".toList, .a, true),
      [.a "a.example.org".toList (some (peer 0))]⟩ none]

private theorem genuine_allows : (lookups nameserver peer).Allows (Orderly nameserver) World.start genuine := by
  refine ⟨trivial, trivial, trivial, ?_, trivial, ?_, trivial⟩
  · intro rptr answer
    change some _ = some rptr at answer
    obtain rfl := Option.some.inj answer
    change lastKept _ _ _ = some RType.ptr
    decide
  · intro rptr answer
    change some _ = some rptr at answer
    obtain rfl := Option.some.inj answer
    refine ⟨by decide, fun host is => ?_, by decide⟩
    change some _ = some host at is
    obtain rfl := Option.some.inj is
    decide

theorem hosts_confirmed_classless :
    let world := genuine.foldl (perform nameserver peer) .start
    world.returned = [(0, "a.example.org".toList)] ∧
      (∀ entry ∈ world.returned, Confirmed world.answers entry.2 (peer entry.1)) ∧
      ∀ hashv, ∀ cp ∈ world.resolver.numList hashv, ∀ addr ∈ cp.hAddrList, Confirmed world.answers cp.hName addr :=
  ⟨by decide, hosts_confirmed (Machine.Run.of_list genuine (.refl _) genuine_allows)⟩

end SolidIrcd.Dns
