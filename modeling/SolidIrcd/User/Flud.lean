import SolidIrcd.Lib.Machine
import SolidIrcd.Lib.Mirror

/-! Flood protection against bots: the clients that have lately flooded a client or a
channel (`fluders`), and for each of them whom it has flooded (`fludees`). `check_for_flud`,
`free_fluders` and `free_fludees` of `s_user.c`. -/

namespace SolidIrcd.Flud

open Function (update)
open Mirror (Mirrored)

abbrev ClientId := Nat
abbrev ChannelId := Nat

/-- Whom a flood is aimed at; a link of `fludees` tells the two apart by its flag. -/
inductive Target where
  | client (cptr : ClientId)
  | channel (chptr : ChannelId)
  deriving DecidableEq, Repr

structure Fludbot where
  fluder : ClientId
  count : Nat
  firstMsg : Int
  lastMsg : Int
  deriving DecidableEq, Repr

/-- Clients by their descriptor and channels by whether they are there, and the lists
these have. -/
structure Server where
  clients : ClientId → Option Int
  channels : ChannelId → Bool
  fluders : Target → List Fludbot
  fludblock : Target → Int
  fludees : ClientId → List Target

def Server.start : Server := ⟨fun _ => none, fun _ => false, fun _ => [], fun _ => 0, fun _ => []⟩

/-- What `check_for_flud` looks at of the configuration. -/
structure Settings where
  hub : Bool
  servhub : Bool
  fludNum : Nat
  fludTime : Nat
  fludBlock : Nat
  deriving Repr

/-- `MyFludConnect`. -/
def myFludConnect (fd : Int) : Bool := decide (fd ≥ 0) || fd == -2

/-- The target is there, and is a channel or a client of this server. -/
def Server.takes (server : Server) : Target → Bool
  | .client cptr => (server.clients cptr).any myFludConnect
  | .channel chptr => server.channels chptr

/-- `remove_fludee_reference`. -/
def Server.removeFludeeReference (server : Server) (fluder : ClientId) (fludee : Target) : Server :=
  { server with fludees := update server.fludees fluder ((server.fludees fluder).filter (· ≠ fludee)) }

/-- `remove_fluder_reference`. -/
def Server.removeFluderReference (server : Server) (target : Target) (fluder : ClientId) : Server :=
  { server with fluders := update server.fluders target ((server.fluders target).filter (·.fluder ≠ fluder)) }

/-- One turn of the loop that collects the garbage. -/
def Server.collectOne (target : Target) (before : Int) (server : Server) (current : Fludbot) : Server :=
  if current.lastMsg < before then
    let server := server.removeFludeeReference current.fluder target
    { server with fluders := update server.fluders target ((server.fluders target).erase current) }
  else server

def Server.collect (server : Server) (target : Target) (before : Int) : Server :=
  (server.fluders target).foldl (Server.collectOne target before) server

/-- The record of the flooder as the loop that counts leaves it. -/
def Fludbot.heard (fluder : ClientId) (now : Int) (record : Fludbot) : Fludbot :=
  if record.fluder = fluder then { record with lastMsg := now, count := record.count + 1 } else record

/-- What a record adds to the running total. -/
def Fludbot.messages (before : Int) (record : Fludbot) : Nat :=
  if record.firstMsg < before then 1 else record.count

/-- A new record for the flooder, and the link back. -/
def Server.enlist (server : Server) (fluder : ClientId) (target : Target) (now : Int) : Server :=
  { server with
    fluders := update server.fluders target (⟨fluder, 1, now, now⟩ :: server.fluders target)
    fludees := update server.fludees fluder (target :: server.fludees fluder) }

/-- `check_for_flud`, and whether it says to block the message. -/
def Server.checkForFlud (server : Server) (settings : Settings) (fluder : ClientId) (target : Target) (now : Int) :
    Server × Bool :=
  if settings.hub || settings.servhub || settings.fludBlock == 0 then (server, false)
  else if !server.takes target then (server, false)
  else
    let before := now - settings.fludTime
    let blocking := decide (now - settings.fludBlock < server.fludblock target)
    let server := if blocking then server else server.collect target before
    let heard := (server.fluders target).map (Fludbot.heard fluder now)
    let found := heard.any (·.fluder = fluder)
    let server := { server with fluders := update server.fluders target heard }
    let count := heard.foldl (fun count current => count + current.messages before) 0
    let (server, count) := if found then (server, count) else (server.enlist fluder target now, count + 1)
    let blocking := blocking || decide (count > settings.fludNum)
    (if blocking then { server with fludblock := update server.fludblock target now } else server, blocking)

def Server.freeFluders (server : Server) (target : Target) : Server :=
  if server.takes target then
    (server.fluders target).foldl (fun server current => server.removeFludeeReference current.fluder target) server
  else server

/-- One turn of the loop of `free_fludees`. -/
def Server.freeFludee (badguy : ClientId) (server : Server) : Target → Server
  | .channel chptr => server.removeFluderReference (.channel chptr) badguy
  | .client cptr =>
    if (server.clients cptr).any myFludConnect then server.removeFluderReference (.client cptr) badguy else server

def Server.freeFludees (server : Server) (badguy : ClientId) : Server :=
  (server.fludees badguy).foldl (Server.freeFludee badguy) server

/-- `remove_client_from_list`, as far as floods go; the client is freed with its lists. -/
def Server.removeClientFromList (server : Server) (cptr : ClientId) : Server :=
  let server := (server.freeFluders (.client cptr)).freeFludees cptr
  { server with
    clients := update server.clients cptr none
    fluders := update server.fluders (.client cptr) []
    fludees := update server.fludees cptr [] }

/-- The end of a channel in `sub1_from_channel`. -/
def Server.destroyChannel (server : Server) (chptr : ChannelId) : Server :=
  let server := server.freeFluders (.channel chptr)
  { server with
    channels := update server.channels chptr false
    fluders := update server.fluders (.channel chptr) [] }

inductive Action where
  /-- `make_client`, which clears the client. -/
  | connect (cptr : ClientId) (fd : Int)
  /-- A connection is accepted or closed. -/
  | setFd (cptr : ClientId) (fd : Int)
  | create (chptr : ChannelId)
  | check (settings : Settings) (fluder : ClientId) (target : Target) (now : Int)
  | exit (cptr : ClientId)
  | destroy (chptr : ChannelId)

def Server.perform (server : Server) : Action → Server
  | .connect cptr fd =>
    { server with
      clients := update server.clients cptr (some fd)
      fluders := update server.fluders (.client cptr) []
      fludblock := update server.fludblock (.client cptr) 0
      fludees := update server.fludees cptr [] }
  | .setFd cptr fd => { server with clients := update server.clients cptr (some fd) }
  | .create chptr =>
    { server with
      channels := update server.channels chptr true
      fluders := update server.fluders (.channel chptr) []
      fludblock := update server.fludblock (.channel chptr) 0 }
  | .check settings fluder target now => (server.checkForFlud settings fluder target now).1
  | .exit cptr => server.removeClientFromList cptr
  | .destroy chptr => server.destroyChannel chptr

/-- Allocators return what nobody holds; a client stays one of this server or of another. -/
def Server.Possible (server : Server) : Action → Prop
  | .connect cptr _ => server.clients cptr = none
  | .setFd cptr fd => ∃ old, server.clients cptr = some old ∧ myFludConnect old = myFludConnect fd
  | .create chptr => server.channels chptr = false
  | .check _ fluder _ _ => (server.clients fluder).isSome = true
  | .exit cptr => (server.clients cptr).isSome = true
  | .destroy chptr => server.channels chptr = true

def machine : Machine Server Action := ⟨Server.perform, Server.Possible⟩

/-- Who is on the flood list of a client or a channel. -/
def Server.flooders (server : Server) (target : Target) : List ClientId := (server.fluders target).map Fludbot.fluder

def Server.gone (server : Server) : Target → Prop
  | .client cptr => server.clients cptr = none
  | .channel chptr => server.channels chptr = false

structure Server.Sound (server : Server) : Prop where
  mirrored : Mirrored server.flooders server.fludees
  taken : ∀ target, server.fluders target ≠ [] → server.takes target = true
  present : ∀ cptr, server.fludees cptr ≠ [] → server.clients cptr ≠ none

variable {server server' : Server}

/-- Only the lists change, and nobody gets one who may not have it. -/
theorem Server.Sound.relist (sound : server.Sound) (mirrored : Mirrored server'.flooders server'.fludees)
    (clients : server'.clients = server.clients) (channels : server'.channels = server.channels)
    (fluders : ∀ target, server'.fluders target ≠ [] → server.fluders target ≠ [] ∨ server.takes target = true)
    (fludees : ∀ cptr, server'.fludees cptr ≠ [] → server.fludees cptr ≠ [] ∨ server.clients cptr ≠ none) :
    server'.Sound := by
  refine ⟨mirrored, ?_, ?_⟩
  · intro target filled
    have same : server'.takes target = server.takes target := by
      cases target <;> simp only [Server.takes, clients, channels]
    rw [same]
    exact (fluders target filled).elim (sound.taken target) id
  · intro cptr filled
    rw [clients]
    exact (fludees cptr filled).elim (sound.present cptr) id

theorem Server.Sound.start : Server.start.Sound := by
  refine ⟨Mirrored.empty, ?_, ?_⟩ <;> simp [Server.start]

section Lists

variable (records : List Fludbot) (targets : List Target)

theorem foldl_removeFludee (server : Server) (target : Target) :
    (records.foldl (fun server current => server.removeFludeeReference current.fluder target) server).clients =
        server.clients ∧
      (records.foldl (fun server current => server.removeFludeeReference current.fluder target) server).channels =
        server.channels ∧
      (records.foldl (fun server current => server.removeFludeeReference current.fluder target) server).fluders =
        server.fluders := by
  induction records generalizing server with
  | nil => exact ⟨rfl, rfl, rfl⟩
  | cons current records ih => exact ih _

/-- The loop of `free_fluders`: all flooders lose their link. -/
theorem fludees_foldl_removeFludee (cptr : ClientId) :
    (records.foldl (fun server current => server.removeFludeeReference current.fluder target) server).fludees cptr =
      if cptr ∈ records.map Fludbot.fluder then (server.fludees cptr).filter (· ≠ target) else server.fludees cptr := by
  induction records generalizing server with
  | nil => simp
  | cons current records ih =>
    rw [List.foldl_cons, ih]
    by_cases same : cptr = current.fluder
    · subst same
      simp [Server.removeFludeeReference, List.filter_filter]
    · simp [Server.removeFludeeReference, same]

theorem takes_removeFluder (server : Server) (other : Target) (fluder : ClientId) :
    (server.removeFluderReference other fluder).takes = server.takes := by
  funext target
  cases target <;> rfl

theorem freeFludee_of_takes (badguy : ClientId) (taken : server.takes target = true) :
    server.freeFludee badguy target = server.removeFluderReference target badguy := by
  cases target with
  | channel chptr => rfl
  | client cptr =>
    exact if_pos taken

/-- The loop of `free_fludees`: everyone flooded loses the record. -/
theorem foldl_freeFludee (badguy : ClientId) (taken : ∀ target ∈ targets, server.takes target = true) :
    (targets.foldl (Server.freeFludee badguy) server).clients = server.clients ∧
      (targets.foldl (Server.freeFludee badguy) server).channels = server.channels ∧
      (targets.foldl (Server.freeFludee badguy) server).fludees = server.fludees ∧
      ∀ other, (targets.foldl (Server.freeFludee badguy) server).fluders other =
        if other ∈ targets then (server.fluders other).filter (·.fluder ≠ badguy) else server.fluders other := by
  induction targets generalizing server with
  | nil => simp
  | cons target targets ih =>
    have step := freeFludee_of_takes badguy (taken target (List.mem_cons_self ..))
    have later : ∀ other ∈ targets, (server.removeFluderReference target badguy).takes other = true := by
      intro other member
      rw [takes_removeFluder]
      exact taken other (List.mem_cons_of_mem _ member)
    obtain ⟨clients, channels, fludees, fluders⟩ := ih later
    rw [List.foldl_cons, step]
    refine ⟨clients, channels, fludees, ?_⟩
    intro other
    rw [fluders]
    by_cases same : other = target
    · subst same
      simp [Server.removeFluderReference, List.filter_filter]
    · simp [Server.removeFluderReference, same]

end Lists

namespace Server.Sound

/-- Nobody has a link to the target any more. -/
theorem freeFluders (sound : server.Sound) (target : Target) :
    (server.freeFluders target).clients = server.clients ∧ (server.freeFluders target).channels = server.channels ∧
      (server.freeFluders target).fluders = server.fluders ∧
      ∀ cptr, (server.freeFluders target).fludees cptr = (server.fludees cptr).filter (· ≠ target) := by
  have absent : ∀ cptr, cptr ∉ server.flooders target →
      server.fludees cptr = (server.fludees cptr).filter (· ≠ target) := by
    intro cptr unlisted
    refine (List.filter_eq_self.mpr ?_).symm
    intro other member
    apply decide_eq_true
    rintro rfl
    exact unlisted ((sound.mirrored.both _ _).mpr member)
  unfold Server.freeFluders
  split
  next =>
    obtain ⟨clients, channels, fluders⟩ := foldl_removeFludee (server.fluders target) server target
    refine ⟨clients, channels, fluders, ?_⟩
    intro cptr
    rw [fludees_foldl_removeFludee]
    split
    next => rfl
    next unlisted => exact absent cptr unlisted
  next untaken =>
    refine ⟨rfl, rfl, rfl, fun cptr => absent cptr ?_⟩
    intro listed
    obtain ⟨record, member, -⟩ := List.mem_map.mp listed
    exact untaken (sound.taken target (List.ne_nil_of_mem member))

theorem destroyChannel (sound : server.Sound) (chptr : ChannelId) : (server.destroyChannel chptr).Sound := by
  obtain ⟨clients, channels, fluders, fludees⟩ := sound.freeFluders (.channel chptr)
  have lists : ∀ target, (server.destroyChannel chptr).fluders target =
      if target = .channel chptr then [] else server.fluders target := by
    intro target
    simp only [Server.destroyChannel, fluders, Function.update_apply]
  refine ⟨sound.mirrored.drop (.channel chptr) ?_ ?_ fludees, ?_, ?_⟩
  · simp only [Server.flooders, lists, if_true, List.map_nil]
  · intro target other
    simp only [Server.flooders, lists, if_neg other]
  · intro target filled
    rw [lists] at filled
    split at filled
    next => exact absurd rfl filled
    next other =>
      have taken := sound.taken target filled
      cases target with
      | client cptr => simpa only [Server.takes, Server.destroyChannel, clients] using taken
      | channel chptr' =>
        have apart : chptr' ≠ chptr := fun same => other (congrArg Target.channel same)
        simpa only [Server.takes, Server.destroyChannel, channels, Function.update_of_ne apart] using taken
  · intro cptr filled
    simp only [Server.destroyChannel] at filled ⊢
    rw [clients]
    rw [fludees] at filled
    exact sound.present cptr fun empty => filled (by rw [empty, List.filter_nil])

theorem removeClientFromList (sound : server.Sound) (cptr : ClientId) : (server.removeClientFromList cptr).Sound := by
  obtain ⟨clients, channels, fluders, fludees⟩ := sound.freeFluders (.client cptr)
  have taken : ∀ target ∈ (server.freeFluders (.client cptr)).fludees cptr,
      (server.freeFluders (.client cptr)).takes target = true := by
    intro target member
    rw [fludees] at member
    have listed := (sound.mirrored.both target cptr).mpr (List.mem_filter.mp member).1
    obtain ⟨record, there, -⟩ := List.mem_map.mp listed
    have taken := sound.taken target (List.ne_nil_of_mem there)
    cases target <;> simpa only [Server.takes, clients, channels] using taken
  obtain ⟨clients', channels', fludees', fluders'⟩ := foldl_freeFludee _ cptr taken
  -- First the lists without the target, then those without the flooder as well.
  have first : Mirrored (fun target => if target = .client cptr then [] else server.flooders target)
      (server.freeFluders (.client cptr)).fludees :=
    sound.mirrored.drop (.client cptr) (if_pos rfl) (fun _ other => if_neg other) fludees
  have backs : ∀ other, (server.removeClientFromList cptr).fludees other =
      if other = cptr then [] else (server.freeFluders (.client cptr)).fludees other := by
    intro other
    simp only [Server.removeClientFromList, Server.freeFludees, Function.update_apply, fludees']
  have theres : ∀ target, (server.removeClientFromList cptr).flooders target =
      (if target = .client cptr then [] else server.flooders target).filter (· ≠ cptr) := by
    intro target
    simp only [Server.flooders, Server.removeClientFromList, Server.freeFludees, Function.update_apply, fluders']
    split
    next => rfl
    next other =>
      rw [fluders]
      split
      next => rw [List.filter_map]; rfl
      next unlisted =>
        refine (List.filter_eq_self.mpr ?_).symm
        intro fluder member
        apply decide_eq_true
        rintro rfl
        refine unlisted ((first.both target fluder).mp ?_)
        rw [if_neg other]
        exact member
  have filled' : ∀ target, (server.removeClientFromList cptr).fluders target ≠ [] →
      target ≠ .client cptr ∧ server.fluders target ≠ [] := by
    intro target filled
    have flooded : (server.removeClientFromList cptr).flooders target ≠ [] := by
      simpa only [Server.flooders, ne_eq, List.map_eq_nil_iff] using filled
    rw [theres] at flooded
    split at flooded
    next => exact absurd rfl flooded
    next other =>
      refine ⟨other, fun empty => flooded ?_⟩
      simp only [Server.flooders, empty, List.map_nil, List.filter_nil]
  refine ⟨(first.symm.drop cptr ?_ ?_ theres).symm, ?_, ?_⟩
  · rw [backs, if_pos rfl]
  · intro other apart
    rw [backs, if_neg apart]
  · intro target filled
    obtain ⟨other, before⟩ := filled' target filled
    have taken := sound.taken target before
    cases target with
    | channel chptr =>
      simpa only [Server.takes, Server.removeClientFromList, Server.freeFludees, channels', channels] using taken
    | client cptr' =>
      have apart : cptr' ≠ cptr := fun same => other (congrArg Target.client same)
      simpa only [Server.takes, Server.removeClientFromList, Server.freeFludees, clients', clients,
        Function.update_of_ne apart] using taken
  · intro other filled
    rw [backs] at filled
    split at filled
    next => exact absurd rfl filled
    next apart =>
      simp only [Server.removeClientFromList, Server.freeFludees, clients', clients, Function.update_of_ne apart]
      rw [fludees] at filled
      exact sound.present other fun empty => filled (by rw [empty, List.filter_nil])

/-- The loop that collects the garbage: what it takes off one list it takes off the other. -/
theorem collectOne (sound : server.Sound) (target : Target) (before : Int) (current : Fludbot)
    (listed : server.fluders target = kept ++ current :: rest) :
    (server.collectOne target before current).Sound ∧
      (server.collectOne target before current).takes = server.takes ∧
      (server.collectOne target before current).clients = server.clients ∧
      ∃ kept', (server.collectOne target before current).fluders target = kept' ++ rest := by
  unfold Server.collectOne
  split
  next =>
    have distinct := sound.mirrored.once target
    rw [Server.flooders, listed, List.map_append, List.map_cons, List.nodup_append] at distinct
    have new : current.fluder ∉ kept.map Fludbot.fluder := fun member =>
      distinct.2.2 _ member _ (List.mem_cons_self ..) rfl
    have unlisted : current ∉ kept := fun member => new (List.mem_map_of_mem member)
    have erased : (server.fluders target).erase current = kept ++ rest := by
      rw [listed, List.erase_append_right _ unlisted, List.erase_cons_head]
    refine ⟨sound.relist ?_ rfl rfl ?_ ?_, ?_, rfl, kept, ?_⟩
    · refine sound.mirrored.unlink (a := target) (b := current.fluder) ?_ ?_ ?_ ?_
      · simp only [Server.flooders, Function.update_self]
        change ((server.fluders target).erase current).map Fludbot.fluder = _
        rw [erased, listed, List.map_append, List.map_append, List.map_cons, List.erase_append_right _ new,
          List.erase_cons_head]
      · intro other apart
        simp only [Server.flooders, Server.removeFludeeReference, Function.update_of_ne apart]
      · simp only [Server.removeFludeeReference, Function.update_self]
        rw [(sound.mirrored.onceBack _).erase_eq_filter]
        exact List.filter_congr fun other _ => by by_cases same : other = target <;> simp [same]
      · intro other apart
        simp only [Server.removeFludeeReference, Function.update_of_ne apart]
    · intro other filled
      by_cases same : other = target
      · subst same
        refine .inl ?_
        rw [listed]
        simp
      · simp only [Server.removeFludeeReference, Function.update_of_ne same] at filled
        exact .inl filled
    · intro other filled
      by_cases same : other = current.fluder
      · subst same
        simp only [Server.removeFludeeReference, Function.update_self] at filled
        exact .inl fun empty => filled (by rw [empty, List.filter_nil])
      · simp only [Server.removeFludeeReference, Function.update_of_ne same] at filled
        exact .inl filled
    · funext other
      cases other <;> rfl
    · simp only [Function.update_self]
      exact erased
  next => exact ⟨sound, rfl, rfl, kept ++ [current], by rw [listed, List.append_assoc, List.cons_append, List.nil_append]⟩

theorem collect (sound : server.Sound) (target : Target) (before : Int) :
    (server.collect target before).Sound ∧ (server.collect target before).takes = server.takes ∧
      (server.collect target before).clients = server.clients := by
  have loop : ∀ (records : List Fludbot) (server : Server), server.Sound →
      (∃ kept, server.fluders target = kept ++ records) →
      (records.foldl (Server.collectOne target before) server).Sound ∧
        (records.foldl (Server.collectOne target before) server).takes = server.takes ∧
        (records.foldl (Server.collectOne target before) server).clients = server.clients := by
    intro records
    induction records with
    | nil => exact fun server sound _ => ⟨sound, rfl, rfl⟩
    | cons current records ih =>
      intro server sound listed
      obtain ⟨kept, listed⟩ := listed
      obtain ⟨next, takes, clients, listed⟩ := sound.collectOne target before current listed
      obtain ⟨last, takes', clients'⟩ := ih _ next listed
      exact ⟨last, takes'.trans takes, clients'.trans clients⟩
  exact loop _ server sound ⟨[], rfl⟩

/-- New counts for records that are there. -/
theorem heard (sound : server.Sound) (target : Target) (fluder : ClientId) (now : Int) :
    Server.Sound { server with
      fluders := update server.fluders target ((server.fluders target).map (Fludbot.heard fluder now)) } := by
  have same : (Server.flooders { server with
      fluders := update server.fluders target ((server.fluders target).map (Fludbot.heard fluder now)) }) =
        server.flooders := by
    funext other
    by_cases self : other = target
    · subst self
      simp only [Server.flooders, Function.update_self, List.map_map]
      apply List.map_congr_left
      intro record _
      simp only [Function.comp_apply, Fludbot.heard]
      split <;> rfl
    · simp only [Server.flooders, Function.update_of_ne self]
  refine sound.relist (same ▸ sound.mirrored) rfl rfl ?_ fun _ filled => .inl filled
  intro other filled
  have names : server.flooders other ≠ [] := by
    rw [← same]
    simpa only [Server.flooders, ne_eq, List.map_eq_nil_iff] using filled
  exact .inl fun empty => names (by simp only [Server.flooders, empty, List.map_nil])

/-- A flooder that is not on the list yet. -/
theorem enlist (sound : server.Sound) (taken : server.takes target = true) (present : server.clients fluder ≠ none)
    (new : fluder ∉ server.flooders target) (now : Int) : (server.enlist fluder target now).Sound := by
  refine sound.relist ?_ rfl rfl ?_ ?_
  · refine sound.mirrored.link new ?_ ?_ ?_ ?_
    · simp only [Server.flooders, Server.enlist, Function.update_self, List.map_cons]
      exact .refl _
    · intro other apart
      simp only [Server.flooders, Server.enlist, Function.update_of_ne apart]
    · simp only [Server.enlist, Function.update_self]
      exact .refl _
    · intro other apart
      simp only [Server.enlist, Function.update_of_ne apart]
  · intro other filled
    by_cases same : other = target
    · exact .inr (same ▸ taken)
    · simp only [Server.enlist, Function.update_of_ne same] at filled
      exact .inl filled
  · intro other filled
    by_cases same : other = fluder
    · exact .inr (same ▸ present)
    · simp only [Server.enlist, Function.update_of_ne same] at filled
      exact .inl filled

theorem checkForFlud (sound : server.Sound) (settings : Settings) (present : server.clients fluder ≠ none)
    (target : Target) (now : Int) : (server.checkForFlud settings fluder target now).1.Sound := by
  have blocked : ∀ (server : Server) (blocking : Bool) (time : Target → Int), server.Sound →
      (if blocking then { server with fludblock := time } else server).Sound := by
    intro server blocking time sound
    split
    next => exact ⟨sound.mirrored, fun target => by cases target <;> exact sound.taken _, sound.present⟩
    next => exact sound
  unfold Server.checkForFlud
  split
  next => exact sound
  next =>
    split
    next => exact sound
    next taken =>
      dsimp only
      generalize decide (now - settings.fludBlock < server.fludblock target) = blocking
      generalize cleaned : (if blocking then server else server.collect target (now - settings.fludTime)) = clean
      have kept : clean.Sound ∧ clean.takes = server.takes ∧ clean.clients = server.clients := by
        rw [← cleaned]
        split
        next => exact ⟨sound, rfl, rfl⟩
        next => exact sound.collect target _
      have heard := kept.1.heard target fluder now
      apply blocked
      split
      next => exact heard
      next missing =>
        refine heard.enlist ?_ ?_ ?_ now
        · have same : clean.takes target = server.takes target := congrFun kept.2.1 target
          cases target <;> exact same.trans (by simpa using taken)
        · exact kept.2.2 ▸ present
        · intro listed
          obtain ⟨record, member, same⟩ := List.mem_map.mp listed
          simp only [Function.update_self] at member
          exact missing (List.any_eq_true.mpr ⟨record, member, decide_eq_true same⟩)

/-- What is not there has no list, and is on none. -/
theorem unlisted (sound : server.Sound) (absent : server.takes target = false) : server.fluders target = [] := by
  by_contra filled
  rw [sound.taken target filled] at absent
  cases absent

theorem unlinked (sound : server.Sound) (absent : server.clients cptr = none) : server.fludees cptr = [] := by
  by_contra filled
  exact sound.present cptr filled absent

/-- The lists stay, and whoever has one can still have it. -/
theorem keep (sound : server.Sound) (fluders : server'.fluders = server.fluders)
    (fludees : server'.fludees = server.fludees)
    (takes : ∀ target, server.takes target = true → server'.takes target = true)
    (clients : ∀ cptr, server.clients cptr ≠ none → server'.clients cptr ≠ none) : server'.Sound := by
  refine ⟨?_, ?_, ?_⟩
  · have same : server'.flooders = server.flooders := by
      funext target
      simp only [Server.flooders, fluders]
    rw [same, fludees]
    exact sound.mirrored
  · intro target filled
    exact takes target (sound.taken target (fluders ▸ filled))
  · intro cptr filled
    exact clients cptr (sound.present cptr (fludees ▸ filled))

theorem connect (sound : server.Sound) (absent : server.clients cptr = none) (fd : Int) :
    (server.perform (.connect cptr fd)).Sound := by
  have untaken : server.takes (.client cptr) = false := by simp only [Server.takes, absent, Option.any_none]
  refine sound.keep ?_ ?_ ?_ ?_
  · simp only [Server.perform]
    rw [← sound.unlisted untaken, Function.update_eq_self]
  · simp only [Server.perform]
    rw [← sound.unlinked absent, Function.update_eq_self]
  · intro target taken
    cases target with
    | channel chptr => exact taken
    | client other =>
      have apart : other ≠ cptr := by
        rintro rfl
        rw [untaken] at taken
        cases taken
      simpa only [Server.takes, Server.perform, Function.update_of_ne apart] using taken
  · intro other present
    simp only [Server.perform, Function.update_apply]
    split
    next => exact Option.some_ne_none _
    next => exact present

theorem setFd (sound : server.Sound) (known : server.clients cptr = some old) (same : myFludConnect old = myFludConnect fd) :
    (server.perform (.setFd cptr fd)).Sound := by
  refine sound.keep rfl rfl ?_ ?_
  · intro target taken
    cases target with
    | channel chptr => exact taken
    | client other =>
      by_cases self : other = cptr
      · subst self
        simp only [Server.takes, known, Option.any_some] at taken
        simp only [Server.takes, Server.perform, Function.update_self, Option.any_some, ← same, taken]
      · simpa only [Server.takes, Server.perform, Function.update_of_ne self] using taken
  · intro other present
    simp only [Server.perform, Function.update_apply]
    split
    next => exact Option.some_ne_none _
    next => exact present

theorem create (sound : server.Sound) (absent : server.channels chptr = false) :
    (server.perform (.create chptr)).Sound := by
  refine sound.keep ?_ rfl ?_ fun _ present => present
  · have untaken : server.takes (.channel chptr) = false := absent
    simp only [Server.perform]
    rw [← sound.unlisted untaken, Function.update_eq_self]
  · intro target taken
    cases target with
    | client cptr => exact taken
    | channel other =>
      simp only [Server.takes, Server.perform, Function.update_apply]
      split
      next => rfl
      next => exact taken

/-- Every step keeps it. -/
theorem perform (sound : server.Sound) (possible : server.Possible action) : (server.perform action).Sound := by
  cases action with
  | connect cptr fd => exact sound.connect possible fd
  | setFd cptr fd =>
    obtain ⟨old, known, same⟩ := possible
    exact sound.setFd known same
  | create chptr => exact sound.create possible
  | check settings fluder target now =>
    exact sound.checkForFlud settings (Option.isSome_iff_ne_none.mp possible) target now
  | exit cptr => exact sound.removeClientFromList cptr
  | destroy chptr => exact sound.destroyChannel chptr

theorem run (run : machine.Run Machine.Any Server.start server) : server.Sound :=
  run.invariant Server.Sound (fun _ _ possible _ sound => sound.perform possible) .start

end Server.Sound

/-- A flooder is on a list once when it has the link back once, or not at all; and what has
gone is on nobody's. -/
theorem flood_lists_mirrored (run : machine.Run Machine.Any Server.start server) (target : Target) (fluder : ClientId) :
    (server.flooders target).count fluder = (server.fludees fluder).count target ∧
      (server.flooders target).count fluder ≤ 1 ∧
      (server.clients fluder = none → fluder ∉ server.flooders target ∧ server.fludees fluder = []) ∧
      (server.gone target → target ∉ server.fludees fluder ∧ server.flooders target = []) := by
  have sound := Server.Sound.run run
  obtain ⟨same, once⟩ := sound.mirrored.count target fluder
  refine ⟨same, once, ?_, ?_⟩
  · intro gone
    have none := sound.unlinked gone
    refine ⟨fun listed => ?_, none⟩
    have linked := (sound.mirrored.both target fluder).mp listed
    rw [none] at linked
    cases linked
  · intro gone
    have untaken : server.takes target = false := by
      cases target with
      | client cptr =>
        have absent : server.clients cptr = none := gone
        simp only [Server.takes, absent, Option.any_none]
      | channel chptr => exact gone
    have none : server.flooders target = [] := by simp only [Server.flooders, sound.unlisted untaken, List.map_nil]
    refine ⟨fun linked => ?_, none⟩
    have listed := (sound.mirrored.both target fluder).mpr linked
    rw [none] at listed
    cases listed

private def settings : Settings := ⟨false, false, 4, 3, 15⟩

/-- Two clients flood each other and a channel, one floods itself, and then it leaves. -/
private def actions : List Action :=
  [.connect 1 5, .connect 2 6, .create 7, .check settings 1 (.client 2) 100, .check settings 2 (.client 1) 100,
    .check settings 1 (.channel 7) 101, .check settings 1 (.client 1) 101, .check settings 2 (.channel 7) 102, .exit 1]

theorem flood_lists_mirrored_exit :
    ((actions.foldl machine.perform Server.start).flooders (.channel 7)).count 1 = 0 ∧
      ((actions.foldl machine.perform Server.start).flooders (.channel 7)).count 2 = 1 := by
  have run : machine.Run Machine.Any Server.start (actions.foldl machine.perform Server.start) :=
    Machine.Run.of_list actions (.refl _) ⟨rfl, trivial, rfl, trivial, rfl, trivial, rfl, trivial, rfl, trivial, rfl,
      trivial, rfl, trivial, rfl, trivial, rfl, trivial, trivial⟩
  constructor
  · rw [(flood_lists_mirrored run (.channel 7) 1).1]
    decide +kernel
  · rw [(flood_lists_mirrored run (.channel 7) 2).1]
    decide +kernel

end SolidIrcd.Flud
