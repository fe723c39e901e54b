import SolidIrcd.Dns.Cache

/-! What holds of the cache after every run: the list, the chains, the counter and the pointers agree, and the list is
in order of last use. -/

namespace SolidIrcd.Dns

open Scan (Text)

/-- The bucket of a host: that of its first address. -/
def bucket (cp : ACache) : Nat := hashNumber (cp.hAddrList.headD .zero)

/-- The resolver with another host, which may be one too many. -/
abbrev inserted (state : Resolver) (cp : ACache) : Resolver :=
  { state with
    cachetop := cp :: state.cachetop
    numList := Function.update state.numList (bucket cp) (cp :: state.numList (bucket cp))
    incache := state.incache + 1
    made := state.made + 1 }

/-- The list, the chains, the counter and the use of hosts agree. -/
structure Kept (state : Resolver) (lastUse : ACache → Nat) (uses : Nat) : Prop where
  indexed : Recency.Indexed bucket state.cachetop state.numList
  count : state.incache = state.cachetop.length
  ordered : Recency.Ordered lastUse state.cachetop
  earlier : ∀ cp ∈ state.cachetop, lastUse cp < uses
  fresh : ∀ cp ∈ state.cachetop, cp.address < state.made

/-- No pointer of a connection dangles, and none is behind `highest_fd`. -/
structure Pointed (server : Server) : Prop where
  hosts : ∀ fd cptr cp, server.locals fd = some cptr → cptr.hostp = some cp → cp ∈ server.resolver.cachetop
  open_ : ∀ fd, server.locals fd ≠ none → fd ≤ server.highestFd

section

variable {res : Res} {server : Server} {state after : Resolver} {lastUse : ACache → Nat} {uses : Nat} {cp : ACache}

theorem Kept.of_sameCache (kept : Kept state lastUse uses) (same : SameCache state after) : Kept after lastUse uses where
  indexed := by rw [same.cachetop, same.numList]; exact kept.indexed
  count := by rw [same.cachetop, same.incache]; exact kept.count
  ordered := by rw [same.cachetop]; exact kept.ordered
  earlier := by rw [same.cachetop]; exact kept.earlier
  fresh cp member := Nat.lt_of_lt_of_le (kept.fresh cp (same.cachetop ▸ member)) same.made

/-- The host that is used comes to the front of the list. -/
theorem Kept.updateList (kept : Kept state lastUse uses) (here : cp ∈ state.cachetop) :
    Kept (updateList state cp) (Function.update lastUse cp uses) (uses + 1) := by
  unfold Dns.updateList
  rw [if_pos here]
  have members (other : ACache) : other ∈ Recency.touch cp state.cachetop ↔ other ∈ state.cachetop :=
    Recency.mem_touch here
  refine ⟨kept.indexed.touch here, ?_, kept.ordered.touch kept.earlier, fun other member => ?_,
    fun other member => kept.fresh other ((members other).mp member)⟩
  · exact kept.count.trans (Recency.length_touch kept.indexed.nodup here).symm
  · rw [Function.update_apply]
    split
    · exact Nat.lt_succ_self uses
    · exact Nat.lt_succ_of_lt (kept.earlier other ((members other).mp member))

theorem Kept.remCache (kept : Kept state lastUse uses) (here : cp ∈ state.cachetop) :
    Kept (remCache state cp) lastUse uses := by
  have inside (other : ACache) (member : other ∈ state.cachetop.filter (· ≠ cp)) : other ∈ state.cachetop :=
    (List.mem_filter.mp member).1
  refine ⟨kept.indexed.remove cp, ?_, kept.ordered.filter _,
    fun other member => kept.earlier other (inside other member), fun other member => kept.fresh other (inside other member)⟩
  change state.incache - 1 = (state.cachetop.filter (· ≠ cp)).length
  rw [Recency.length_filter_ne kept.indexed.nodup here, kept.count]

theorem Kept.insert (kept : Kept state lastUse uses) (new : cp.address = state.made) :
    Kept (inserted state cp) (Function.update lastUse cp uses) (uses + 1) := by
  have absent : cp ∉ state.cachetop := fun member => Nat.lt_irrefl _ (new ▸ kept.fresh cp member)
  refine ⟨kept.indexed.cons absent, ?_, kept.ordered.cons absent kept.earlier, fun other member => ?_,
    fun other member => ?_⟩
  · rw [List.length_cons, ← kept.count]
  · rw [Function.update_apply]
    split
    · exact Nat.lt_succ_self uses
    · rename_i differ
      exact Nat.lt_succ_of_lt (kept.earlier other ((List.mem_cons.mp member).resolve_left differ))
  · rcases List.mem_cons.mp member with rfl | before
    · exact Nat.lt_succ_of_le (Nat.le_of_eq new)
    · exact Nat.lt_succ_of_lt (kept.fresh other before)

/-- What is taken out for a new host is the last of the list. -/
theorem addToCache_cases (kept : Kept server.resolver lastUse uses) (cp : ACache) :
    (server.resolver.incache < maxCached ∧
        server.addToCache cp = { server.use cp with resolver := inserted server.resolver cp }) ∨
      ∃ gone, server.resolver.cachetop.getLast? = some gone ∧ maxCached ≤ server.resolver.incache ∧
        server.addToCache cp = ({ server.use cp with resolver := inserted server.resolver cp }).remCache gone := by
  unfold Server.addToCache
  dsimp only
  split
  · rename_i full
    right
    cases last : server.resolver.cachetop.getLast? with
    | none =>
      have count := kept.count
      rw [List.getLast?_eq_none_iff.mp last] at count
      rw [count] at full
      exact absurd full (by decide)
    | some gone =>
      refine ⟨gone, rfl, Nat.le_of_lt_succ full, ?_⟩
      rw [List.getLast?_cons, last]
      rfl
  · rename_i room
    exact .inl ⟨Nat.lt_of_succ_le (Nat.le_of_not_lt room), rfl⟩

theorem addToCache_resolver (server : Server) (cp : ACache) :
    (server.addToCache cp).resolver = addToCache server.resolver cp := by
  unfold Server.addToCache addToCache
  dsimp only
  split
  · rw [List.getLast?_cons]
    rfl
  · rfl

/-! The pointers of the connections -/

theorem Pointed.of_locals (pointed : Pointed server) {other : Server} (locals : other.locals = server.locals)
    (highestFd : other.highestFd = server.highestFd)
    (kept : ∀ cp ∈ server.resolver.cachetop, cp ∈ other.resolver.cachetop) : Pointed other where
  hosts fd cptr cp opened points := kept cp (pointed.hosts fd cptr cp (locals ▸ opened) points)
  open_ fd opened := by
    rw [highestFd]
    exact pointed.open_ fd (locals ▸ opened)

theorem Pointed.remCache (pointed : Pointed server) (ocp : ACache) : Pointed (server.remCache ocp) where
  hosts fd cptr cp opened points := by
    simp only [Server.remCache, Server.clearHostp] at opened
    split at opened
    · obtain ⟨old, was, rfl⟩ := Option.map_eq_some_iff.mp opened
      split at points
      · cases points
      · rename_i other
        refine List.mem_filter.mpr ⟨pointed.hosts fd old cp was points, ?_⟩
        simp only [decide_eq_true_eq]
        rintro rfl
        exact other points
    · rename_i beyond
      exact absurd (pointed.open_ fd (by rw [opened]; exact Option.some_ne_none _)) beyond
  open_ fd opened := by
    apply pointed.open_ fd
    intro closed
    apply opened
    simp only [Server.remCache, Server.clearHostp, closed]
    split <;> rfl

theorem Pointed.setLocal (pointed : Pointed server) (fd : Nat) (cptr : Local)
    (points : ∀ cp, cptr.hostp = some cp → cp ∈ server.resolver.cachetop) : Pointed (server.setLocal fd cptr) where
  hosts fd' cptr' cp opened points' := by
    simp only [Server.setLocal, Function.update_apply] at opened
    split at opened
    · obtain rfl := Option.some.inj opened
      exact points cp points'
    · exact pointed.hosts fd' cptr' cp opened points'
  open_ fd' opened := by
    simp only [Server.setLocal, Function.update_apply] at opened ⊢
    split at opened
    · rename_i same
      rw [same]
      exact Nat.le_max_left _ _
    · exact Nat.le_trans (pointed.open_ fd' opened) (Nat.le_max_right _ _)

/-- Connections that change in place, or go. -/
theorem Pointed.map (pointed : Pointed server) {other : Server} (highestFd : other.highestFd = server.highestFd)
    (cachetop : other.resolver.cachetop = server.resolver.cachetop)
    (locals : ∀ fd cptr, other.locals fd = some cptr → ∃ old, server.locals fd = some old ∧
      ∀ cp, cptr.hostp = some cp → old.hostp = some cp ∨ cp ∈ server.resolver.cachetop) : Pointed other where
  hosts fd cptr cp opened points := by
    obtain ⟨old, was, points'⟩ := locals fd cptr opened
    rw [cachetop]
    exact (points' cp points).elim (pointed.hosts fd old cp was) id
  open_ fd opened := by
    obtain ⟨cptr, is⟩ := Option.ne_none_iff_exists'.mp opened
    obtain ⟨old, was, _⟩ := locals fd cptr is
    rw [highestFd]
    exact pointed.open_ fd (by rw [was]; exact Option.some_ne_none _)

theorem le_lowerFd (locals : Nat → Option Local) (highestFd fd : Nat) (opened : locals fd ≠ none) (below : fd ≤ highestFd) :
    fd ≤ Server.lowerFd locals highestFd := by
  induction highestFd with
  | zero => exact below
  | succ highestFd ih =>
    rw [Server.lowerFd]
    split
    · exact below
    · rename_i closed
      rcases Nat.lt_or_eq_of_le below with less | rfl
      · exact ih (Nat.le_of_lt_succ less)
      · exact absurd (Option.isSome_iff_ne_none.mpr opened) closed

theorem Pointed.lower (pointed : Pointed server) :
    Pointed { server with highestFd := Server.lowerFd server.locals server.highestFd } where
  hosts := pointed.hosts
  open_ fd opened := le_lowerFd server.locals server.highestFd fd opened (pointed.open_ fd opened)

/-! What the server does with the cache -/

structure Consistent (server : Server) : Prop where
  kept : Kept server.resolver server.lastUse server.uses
  bounded : server.resolver.incache ≤ maxCached
  pointed : Pointed server

theorem Consistent.of_sameCache (consistent : Consistent server) (same : SameCache server.resolver after) :
    Consistent { server with resolver := after } where
  kept := consistent.kept.of_sameCache same
  bounded := Nat.le_trans (Nat.le_of_eq same.incache) consistent.bounded
  pointed := consistent.pointed.of_locals rfl rfl fun _ member => same.cachetop ▸ member

theorem Consistent.dated (consistent : Consistent server) (expireat : ACache → Nat) :
    Consistent { server with expireat := expireat } :=
  ⟨consistent.kept, consistent.bounded, consistent.pointed.of_locals rfl rfl fun _ member => member⟩

theorem Consistent.remCache (consistent : Consistent server) (here : cp ∈ server.resolver.cachetop) :
    Consistent (server.remCache cp) where
  kept := consistent.kept.remCache here
  bounded := Nat.le_trans (Nat.sub_le _ 1) consistent.bounded
  pointed := consistent.pointed.remCache cp

theorem Consistent.hit (consistent : Consistent server) (here : cp ∈ server.resolver.cachetop) :
    Consistent (({ server with resolver := updateList server.resolver cp }).use cp) where
  kept := consistent.kept.updateList here
  bounded := by
    simp only [Server.use, updateList, if_pos here]
    exact consistent.bounded
  pointed := by
    refine consistent.pointed.of_locals rfl rfl fun other member => ?_
    simp only [Server.use, updateList, if_pos here]
    exact (Recency.mem_touch here).mpr member

theorem Consistent.addToCache (consistent : Consistent server) (cp : ACache) (new : cp.address = server.resolver.made) :
    Consistent (server.addToCache cp) ∧ cp ∈ (server.addToCache cp).resolver.cachetop := by
  have kept := consistent.kept.insert new
  have pointed : Pointed { server.use cp with resolver := inserted server.resolver cp } :=
    consistent.pointed.of_locals rfl rfl fun _ member => List.mem_cons_of_mem _ member
  rcases addToCache_cases consistent.kept cp with ⟨room, added⟩ | ⟨gone, last, full, added⟩
  · rw [added]
    exact ⟨⟨kept, room, pointed⟩, .head _⟩
  · have member := List.mem_of_getLast? last
    rw [added]
    refine ⟨⟨kept.remCache (List.mem_cons_of_mem _ member), consistent.bounded, pointed.remCache gone⟩, ?_⟩
    refine List.mem_filter.mpr ⟨.head _, ?_⟩
    simp only [decide_eq_true_eq]
    rintro rfl
    exact Nat.lt_irrefl _ (new ▸ consistent.kept.fresh _ member)

/-- What leaves the cache for a new host was used before all others. -/
theorem addToCache_evicts (consistent : Consistent server) (member : gone ∈ server.resolver.cachetop)
    (evicted : gone ∉ (server.addToCache cp).resolver.cachetop) (here : other ∈ server.resolver.cachetop)
    (differ : other ≠ gone) : server.lastUse gone < server.lastUse other := by
  rcases addToCache_cases consistent.kept cp with ⟨room, added⟩ | ⟨last, is, full, added⟩
  · rw [added] at evicted
    exact absurd (List.mem_cons_of_mem _ member) evicted
  · have same : gone = last := by
      by_contra other
      rw [added] at evicted
      refine evicted (List.mem_filter.mpr ⟨List.mem_cons_of_mem _ member, ?_⟩)
      simpa using other
    subst same
    exact consistent.kept.ordered.getLast? is here differ

theorem findCacheNumber_cases (kept : Kept state lastUse uses) (numb : InAddr) :
    findCacheNumber state numb = (state, none) ∨
      ∃ cp ∈ state.cachetop, numb ∈ cp.hAddrList ∧ findCacheNumber state numb = (updateList state cp, some cp) := by
  unfold findCacheNumber
  cases found : (state.numList (hashNumber numb)).find? fun cp => numb ∈ cp.hAddrList with
  | none => exact .inl rfl
  | some cp =>
    right
    refine ⟨cp, ?_, by simpa using List.find?_some found, rfl⟩
    exact ((kept.indexed.mem _ cp).mp (List.mem_of_find?_eq_some found)).1

theorem findCacheNumbers_cases (kept : Kept state lastUse uses) (numbs : List InAddr) :
    findCacheNumbers state numbs = (state, none) ∨
      ∃ cp ∈ state.cachetop, findCacheNumbers state numbs = (updateList state cp, some cp) := by
  induction numbs with
  | nil => exact .inl rfl
  | cons numb rest ih =>
    rw [findCacheNumbers]
    rcases findCacheNumber_cases kept numb with missed | ⟨cp, member, _, hit⟩
    · rw [missed]
      exact ih
    · rw [hit]
      exact .inr ⟨cp, member, rfl⟩

/-- A lookup of the first address of a host finds a host with that address. -/
theorem findCacheNumber_finds (kept : Kept state lastUse uses) (member : cp ∈ state.cachetop)
    (first : cp.hAddrList.head? = some numb) :
    ∃ hit ∈ state.cachetop, numb ∈ hit.hAddrList ∧ (findCacheNumber state numb).2 = some hit := by
  rcases findCacheNumber_cases kept numb with missed | ⟨hit, inside, has, found⟩
  · have addresses : numb ∈ cp.hAddrList := List.mem_of_head? first
    have chained : cp ∈ state.numList (hashNumber numb) := by
      refine (kept.indexed.mem _ cp).mpr ⟨member, ?_⟩
      rw [bucket, List.headD_eq_head?_getD, first, Option.getD_some]
    have missed := congrArg Prod.snd missed
    unfold findCacheNumber at missed
    split at missed
    · cases missed
    · rename_i none
      have absent := List.find?_eq_none.mp none cp chained
      simp [addresses] at absent
  · exact ⟨hit, inside, has, by rw [found]⟩

theorem makeCache_resolver (kept : Kept server.resolver lastUse uses) (rptr : ResRQ) (ttl now : Nat) :
    ((server.makeCache rptr ttl now).1.resolver, (server.makeCache rptr ttl now).2) = makeCache server.resolver rptr := by
  unfold Server.makeCache makeCache
  cases rptr.he.hName with
  | none => rfl
  | some hName =>
    cases addrs : rptr.he.addrs with
    | nil => rfl
    | cons addr rest =>
      rcases findCacheNumbers_cases kept (addr :: rest) with missed | ⟨cp, _, hit⟩
      · simp only [missed, addToCache_resolver]
      · simp only [hit, Server.use]

theorem Consistent.makeCache (consistent : Consistent server) (rptr : ResRQ) (ttl now : Nat) :
    Consistent (server.makeCache rptr ttl now).1 ∧
      ∀ cp, (server.makeCache rptr ttl now).2 = some cp → cp ∈ (server.makeCache rptr ttl now).1.resolver.cachetop := by
  unfold Server.makeCache
  split
  · exact ⟨consistent, fun _ same => nomatch same⟩
  · exact ⟨consistent, fun _ same => nomatch same⟩
  · rename_i hName _ _
    rcases findCacheNumbers_cases consistent.kept rptr.he.addrs with missed | ⟨cp, member, hit⟩
    · rw [missed]
      dsimp only
      generalize new : (⟨server.resolver.made, hName, rptr.he.hAliases, rptr.he.addrs⟩ : ACache) = cp
      obtain ⟨added, inside⟩ :=
        (consistent.dated (Function.update server.expireat cp (now + max 600 ttl))).addToCache cp (by rw [← new])
      exact ⟨added, fun other same => Option.some.inj same ▸ inside⟩
    · rw [hit]
      refine ⟨consistent.hit member, fun other same => ?_⟩
      rw [← Option.some.inj same]
      simp only [Server.use, updateList, if_pos member]
      exact .head _

theorem makeCache_evicts (consistent : Consistent server) (member : gone ∈ server.resolver.cachetop)
    (evicted : gone ∉ (server.makeCache rptr ttl now).1.resolver.cachetop) (here : other ∈ server.resolver.cachetop)
    (differ : other ≠ gone) : server.lastUse gone < server.lastUse other := by
  unfold Server.makeCache at evicted
  split at evicted
  · exact absurd member evicted
  · exact absurd member evicted
  · rcases findCacheNumbers_cases consistent.kept rptr.he.addrs with missed | ⟨cp, inside, hit⟩
    · rw [missed] at evicted
      dsimp only at evicted
      have before := addToCache_evicts (consistent.dated (Function.update server.expireat _ _)) member evicted here differ
      exact before
    · rw [hit] at evicted
      simp only [Server.use, updateList, if_pos inside] at evicted
      exact absurd ((Recency.mem_touch inside).mpr member) evicted

/-! Replies -/

theorem accept_cached (state : Resolver) (rptr : ResRQ) (sending : Option Sending) :
    match (match rptr.type, rptr.hasRev with
      | .ptr, _ => none
      | .a, true => confirm rptr
      | _, _ => some rptr) with
    | none => SameCache state (accept state rptr sending).1 ∧ (accept state rptr sending).2.2 = none
    | some final =>
      SameCache (makeCache state final).1 (accept state rptr sending).1 ∧
        (accept state rptr sending).2.2 = (makeCache state final).2 := by
  have made (final : ResRQ) : SameCache (makeCache state final).1
      (remRequest (makeCache state final).1 final.address) := remRequest_sameCache _ _
  unfold accept
  cases rptr.type with
  | ptr =>
    dsimp only
    split
    · exact ⟨remRequest_sameCache state _, rfl⟩
    · refine ⟨?_, rfl⟩
      exact ⟨rfl, rfl, rfl, Nat.le_succ _⟩
  | a =>
    cases rptr.hasRev with
    | false => exact ⟨remRequest_sameCache _ _, rfl⟩
    | true =>
      dsimp only
      cases confirm rptr with
      | none => exact ⟨remRequest_sameCache state _, rfl⟩
      | some final => exact ⟨made final, rfl⟩
  | cname => exact ⟨remRequest_sameCache _ _, rfl⟩
  | other => exact ⟨remRequest_sameCache _ _, rfl⟩

/-- The cache after `get_res` is that after `make_cache`, where it is called. -/
theorem getRes_cached (res : Res) (state : Resolver) (packet : Packet) (sending : Option Sending) :
    match cached res state packet with
    | none => SameCache state (getRes res state packet sending).1 ∧ (getRes res state packet sending).2.2 = none
    | some final =>
      SameCache (makeCache state final).1 (getRes res state packet sending).1 ∧
        (getRes res state packet sending).2.2 = (makeCache state final).2 := by
  unfold cached
  cases answer : answered res state packet with
  | none =>
    have steady : Steady fun _ => True := fun _ _ _ _ => trivial
    exact (getRes_unanswered res steady (fun _ _ => trivial) (fun _ _ => trivial) answer sending).2
  | some rptr =>
    obtain ⟨after, ans, verdict, accepts⟩ := getRes_answered answer sending
    rw [Option.bind_some, verdict, accepts]
    exact accept_cached state after sending

theorem Consistent.getRes (consistent : Consistent server) (res : Res) (packet : Packet)
    (ttl now : Nat) (sending : Option Sending) :
    Consistent (server.getRes res packet ttl now sending).1 ∧
      ∀ cp, (server.getRes res packet ttl now sending).2.2 = some cp →
        cp ∈ (server.getRes res packet ttl now sending).1.resolver.cachetop := by
  have cache := getRes_cached res server.resolver packet sending
  unfold Server.getRes
  rcases result : Dns.getRes res server.resolver packet sending with ⟨resolver, lp, hp⟩
  rw [result] at cache
  cases final : cached res server.resolver packet with
  | none =>
    rw [final] at cache
    obtain ⟨same, none⟩ := cache
    refine ⟨consistent.of_sameCache same, fun cp is => ?_⟩
    exact absurd (is.symm.trans none) (Option.some_ne_none _)
  | some rptr =>
    rw [final] at cache
    obtain ⟨same, found⟩ := cache
    obtain ⟨made, inside⟩ := consistent.makeCache rptr ttl now
    have resolvers := makeCache_resolver consistent.kept rptr ttl now
    rw [← resolvers] at same found
    refine ⟨made.of_sameCache same, fun cp is => ?_⟩
    have member := inside cp (found.symm.trans is)
    exact same.cachetop ▸ member

theorem Consistent.doDnsAsync (consistent : Consistent server) (packet : Packet) (ttl now : Nat)
    (sending : Option Sending) (connection : Option (Nat × ClientId)) :
    Consistent (server.doDnsAsync res packet ttl now sending connection) := by
  obtain ⟨after, inside⟩ := consistent.getRes res packet ttl now sending
  unfold Server.doDnsAsync
  rcases result : server.getRes res packet ttl now sending with ⟨next, lp, hp⟩
  rw [result] at after inside
  have others : Consistent next := after
  cases lp with
  | none => exact others
  | some lp =>
    cases lp with
    | client cptr =>
      have same := delQueries_sameCache next.resolver (.inl cptr)
      refine ⟨others.kept.of_sameCache same, Nat.le_trans (Nat.le_of_eq same.incache) others.bounded, ?_⟩
      refine others.pointed.map rfl same.cachetop fun fd new opened => ?_
      obtain ⟨old, was, rfl⟩ := Option.map_eq_some_iff.mp opened
      refine ⟨old, was, fun cp points => ?_⟩
      split at points
      · exact .inr (inside cp points)
      · exact .inl points
    | connect aconn =>
      cases hp with
      | none => exact others
      | some cp =>
        cases connection with
        | none => exact others
        | some place =>
          have points (other : ACache) (same : some cp = some other) : other ∈ next.resolver.cachetop :=
            Option.some.inj same ▸ inside cp rfl
          exact ⟨others.kept, others.bounded, others.pointed.setLocal place.1 _ points⟩
    | conf aconn => exact others

theorem Consistent.addConnection (consistent : Consistent server) (fd : Nat) (cptr : ClientId) (ip : InAddr)
    (sending : Option Sending) : Consistent (server.addConnection fd cptr ip sending) := by
  unfold Server.addConnection gethostByaddr
  rcases findCacheNumber_cases consistent.kept ip with missed | ⟨cp, member, _, hit⟩
  · rw [missed]
    have asked := consistent.of_sameCache (doQueryNumber_sameCache server.resolver (.client cptr) ip sending)
    exact ⟨asked.kept, asked.bounded, asked.pointed.setLocal fd _ fun _ same => nomatch same⟩
  · rw [hit]
    have used := consistent.hit member
    refine ⟨used.kept, used.bounded, used.pointed.setLocal fd _ fun other same => ?_⟩
    rw [← Option.some.inj same]
    simp only [Server.use, updateList, if_pos member]
    exact .head _

/-! Expiry and flushes -/

/-- Hosts are removed one after the other, each still there when its turn comes. -/
theorem Consistent.expire (now : Nat) (hosts : List ACache) (nodup : hosts.Nodup) (consistent : Consistent server)
    (here : ∀ cp ∈ hosts, cp ∈ server.resolver.cachetop) :
    Consistent (hosts.foldl (fun server cp => if server.expireat cp ≤ now then server.remCache cp else server) server) := by
  induction hosts generalizing server with
  | nil => exact consistent
  | cons cp rest ih =>
    obtain ⟨absent, nodup⟩ := List.nodup_cons.mp nodup
    rw [List.foldl_cons]
    split
    · refine ih nodup (consistent.remCache (here cp (.head _))) fun other member => ?_
      refine List.mem_filter.mpr ⟨here other (.tail _ member), ?_⟩
      simp only [decide_eq_true_eq]
      rintro rfl
      exact absent member
    · exact ih nodup consistent fun other member => here other (.tail _ member)

theorem flushLoop_consistent (count : Nat) (consistent : Consistent server) : Consistent (Server.flushLoop count server) := by
  induction count generalizing server with
  | zero => exact consistent
  | succ count ih =>
    rw [Server.flushLoop]
    split
    · exact consistent
    · rename_i cp _ top
      exact ih (consistent.remCache (top ▸ .head _))

/-- As many turns as there are hosts empty the cache. -/
theorem flushLoop_empties (count : Nat) (consistent : Consistent server)
    (enough : server.resolver.cachetop.length ≤ count) : (Server.flushLoop count server).resolver.cachetop = [] := by
  induction count generalizing server with
  | zero => exact List.eq_nil_of_length_eq_zero (Nat.le_zero.mp enough)
  | succ count ih =>
    rw [Server.flushLoop]
    split
    · assumption
    · rename_i cp rest top
      have here : cp ∈ server.resolver.cachetop := top ▸ .head _
      apply ih (consistent.remCache here)
      have shorter := Recency.length_filter_ne consistent.kept.indexed.nodup here
      change (server.resolver.cachetop.filter (· ≠ cp)).length ≤ count
      rw [shorter]
      omega

theorem Consistent.flushCache (consistent : Consistent server) :
    Consistent server.flushCache ∧ server.flushCache.resolver.cachetop = [] :=
  ⟨flushLoop_consistent _ consistent, flushLoop_empties _ consistent (Nat.le_refl _)⟩

theorem perform_consistent (event : CacheEvent) (consistent : Consistent server) :
    Consistent (server.perform res event) := by
  cases event with
  | addConnection fd cptr ip sending => exact consistent.addConnection fd cptr ip sending
  | connectServer fd cptr ip =>
    exact ⟨consistent.kept, consistent.bounded, consistent.pointed.setLocal fd _ fun _ same => nomatch same⟩
  | doDnsAsync packet ttl now sending connection => exact consistent.doDnsAsync packet ttl now sending connection
  | checkInit fd =>
    refine ⟨consistent.kept, consistent.bounded, consistent.pointed.map rfl rfl fun fd' cptr opened => ?_⟩
    simp only [Server.perform, Function.update_apply] at opened
    split at opened
    · rename_i same
      obtain ⟨old, was, rfl⟩ := Option.map_eq_some_iff.mp opened
      exact ⟨old, same ▸ was, fun _ points => nomatch points⟩
    · exact ⟨cptr, opened, fun _ points => .inl points⟩
  | closeConnection fd cptr =>
    have same := delQueries_sameCache server.resolver (.inl cptr)
    refine ⟨consistent.kept.of_sameCache same, Nat.le_trans (Nat.le_of_eq same.incache) consistent.bounded, ?_⟩
    have closed : Pointed { server with
        resolver := delQueries server.resolver (.inl cptr), locals := Function.update server.locals fd none } := by
      refine consistent.pointed.map rfl same.cachetop fun fd' cptr' opened => ?_
      simp only [Function.update_apply] at opened
      split at opened
      · cases opened
      · exact ⟨cptr', opened, fun _ points => .inl points⟩
    exact closed.lower
  | startAuth authfd =>
    refine ⟨consistent.kept, consistent.bounded, consistent.pointed.hosts, fun fd opened => ?_⟩
    exact Nat.le_trans (consistent.pointed.open_ fd opened) (Nat.le_max_right _ _)
  | endAuth authfd =>
    simp only [Server.perform]
    split
    · exact ⟨consistent.kept, consistent.bounded, consistent.pointed.lower⟩
    · exact consistent
  | gethostByname name lp sending =>
    exact consistent.of_sameCache (doQueryName_sameCache server.resolver lp name sending)
  | timeoutQuery address sending =>
    exact consistent.of_sameCache (timeoutQuery_sameCache server.resolver address sending)
  | expireCache now =>
    exact consistent.expire now server.resolver.cachetop consistent.kept.indexed.nodup fun _ member => member
  | flushCache => exact consistent.flushCache.1
  | rehash flush =>
    have dropped : Consistent server.dropHostp := by
      refine ⟨consistent.kept, consistent.bounded, consistent.pointed.map rfl rfl fun fd cptr opened => ?_⟩
      simp only [Server.dropHostp] at opened
      split at opened
      · obtain ⟨old, was, rfl⟩ := Option.map_eq_some_iff.mp opened
        exact ⟨old, was, fun _ points => nomatch points⟩
      · exact ⟨cptr, opened, fun _ points => .inl points⟩
    simp only [Server.perform]
    split
    · exact dropped.flushCache.1
    · exact dropped

/-- After every run the list and the chains hold the same hosts, each once, and the counter is their number and within
the bound; the list is in order of last use, and what `make_cache` takes out was used before all others; a lookup of
the first address of a host finds a host with that address; and no connection points to a host that was removed. -/
theorem cache_consistent (run : (hosts res).Run Machine.Any Server.start server) :
    (server.resolver.cachetop.Nodup ∧ (∀ hashv, (server.resolver.numList hashv).Nodup) ∧
        ∀ hashv cp, cp ∈ server.resolver.numList hashv ↔
          cp ∈ server.resolver.cachetop ∧ hashNumber (cp.hAddrList.headD .zero) = hashv) ∧
      (server.resolver.incache = server.resolver.cachetop.length ∧ server.resolver.incache ≤ maxCached) ∧
      Recency.Ordered server.lastUse server.resolver.cachetop ∧
      (∀ rptr ttl now, ∀ gone ∈ server.resolver.cachetop,
        gone ∉ (server.makeCache rptr ttl now).1.resolver.cachetop →
          ∀ other ∈ server.resolver.cachetop, other ≠ gone → server.lastUse gone < server.lastUse other) ∧
      (∀ numb, ∀ cp ∈ server.resolver.cachetop, cp.hAddrList.head? = some numb →
        ∃ hit ∈ server.resolver.cachetop, numb ∈ hit.hAddrList ∧ (findCacheNumber server.resolver numb).2 = some hit) ∧
      ∀ fd cptr cp, server.locals fd = some cptr → cptr.hostp = some cp → cp ∈ server.resolver.cachetop := by
  have consistent : Consistent server := by
    refine run.invariant Consistent (fun server event _ _ consistent => perform_consistent event consistent) ?_
    refine ⟨⟨.empty, rfl, .nil, ?_, ?_⟩, Nat.zero_le _, ?_, ?_⟩
    · exact fun _ member => absurd member List.not_mem_nil
    · exact fun _ member => absurd member List.not_mem_nil
    · exact fun _ _ _ opened => nomatch opened
    · exact fun _ opened => absurd rfl opened
  have kept := consistent.kept
  refine ⟨⟨kept.indexed.nodup, kept.indexed.chain, kept.indexed.mem⟩, ⟨kept.count, consistent.bounded⟩, kept.ordered,
    ?_, ?_, consistent.pointed.hosts⟩
  · exact fun rptr ttl now gone member evicted other here differ =>
      makeCache_evicts consistent member evicted here differ
  · exact fun numb cp member first => findCacheNumber_finds kept member first

end

private def resolvConf : Res := ⟨[⟨127, 0, 0, 1⟩], false, [], 4⟩

private def hubHost : Text := "hub.example.net".toList

private def hubIp : InAddr := ⟨192, 0, 2, 7⟩

private def hubLookup : List CacheEvent :=
  [.gethostByname hubHost (.conf 0) (some ⟨1, 1⟩),
    .doDnsAsync ⟨⟨127, 0, 0, 1⟩, 1, .noError, 1, 1, some (hubHost, .a, true), [.a hubHost (some hubIp)]⟩ 60 1000 none none,
    .addConnection 5 0 hubIp none]

/-- A host that was looked up for a connect block is found for a connection from its address. -/
theorem cache_consistent_hub :
    let server := hubLookup.foldl (Server.perform resolvConf) .start
    server.resolver.incache = 1 ∧ server.resolver.incache = server.resolver.cachetop.length ∧
      ∃ cptr cp, server.locals 5 = some cptr ∧ cptr.hostp = some cp ∧ cp ∈ server.resolver.cachetop := by
  have run : (hosts resolvConf).Run Machine.Any Server.start _ :=
    Machine.Run.of_list hubLookup (.refl _) ⟨trivial, trivial, trivial, trivial, trivial, trivial, trivial⟩
  obtain ⟨_, ⟨count, _⟩, _, _, _, pointed⟩ := cache_consistent run
  exact ⟨by decide, count, ⟨0, hubIp, some ⟨1, hubHost, [], [hubIp]⟩⟩, ⟨1, hubHost, [], [hubIp]⟩, rfl, rfl,
    pointed 5 _ _ rfl rfl⟩

end SolidIrcd.Dns
