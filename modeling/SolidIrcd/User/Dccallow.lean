import SolidIrcd.Lib.Machine
import SolidIrcd.Lib.Mirror
import SolidIrcd.Lib.Scan

/-! DCCALLOW: from whom a client takes files, and who takes files from it, on one list with
a flag. `add_dccallow`, `del_dccallow` and `m_dccallow` of `s_user.c`, and
`remove_dcc_references` of `s_misc.c`. -/

namespace SolidIrcd.Dccallow

open Function (update)
open Mirror (Mirrored)
open Scan (Text)

abbrev ClientId := Nat

def maxDccallow : Nat := 5

/-- `DCC_LINK_ME` and `DCC_LINK_REMOTE`. -/
inductive Flag where
  | me | remote
  deriving DecidableEq, Repr

def Flag.opposite : Flag → Flag
  | .me => .remote
  | .remote => .me

structure Link where
  flags : Flag
  cptr : ClientId
  deriving DecidableEq, Repr

structure Client where
  myClient : Bool
  anOper : Bool
  deriving DecidableEq, Repr

structure Server where
  clients : ClientId → Option Client
  dccallow : ClientId → List Link

def Server.start : Server := ⟨fun _ => none, fun _ => []⟩

/-- The loop of `add_dccallow` over the list of the client. -/
def refuses (anOper : Bool) (optr : ClientId) : Nat → List Link → Bool
  | _, [] => false
  | cnt, lp :: rest =>
    if lp.flags ≠ .me then refuses anOper optr cnt rest
    else if cnt + 1 ≥ maxDccallow && !anOper then true
    else if lp.cptr = optr then true
    else refuses anOper optr (cnt + 1) rest

def Server.addDccallow (server : Server) (sptr : ClientId) (client : Client) (optr : ClientId) : Server :=
  if refuses client.anOper optr 0 (server.dccallow sptr) then server
  else
    let dccallow := update server.dccallow sptr (⟨.me, optr⟩ :: server.dccallow sptr)
    { server with dccallow := update dccallow optr (⟨.remote, sptr⟩ :: dccallow optr) }

/-- A link goes, and then its counterpart at the other end. -/
def Server.unlink (server : Server) (owner : ClientId) (lp : Link) : Server :=
  let dccallow := update server.dccallow owner ((server.dccallow owner).erase lp)
  { server with dccallow := update dccallow lp.cptr ((dccallow lp.cptr).erase ⟨lp.flags.opposite, owner⟩) }

def Server.delDccallow (server : Server) (sptr optr : ClientId) : Server :=
  if (⟨.me, optr⟩ : Link) ∈ server.dccallow sptr then server.unlink sptr ⟨.me, optr⟩ else server

/-- One turn of the loop of `m_dccallow`. -/
def Server.dccallowToken (findPerson : Text → Option ClientId) (sptr : ClientId) (client : Client) (server : Server) :
    Text → Server
  | '+' :: cn =>
    match findPerson cn with
    | some acptr => if cn = [] ∨ acptr = sptr then server else server.addDccallow sptr client acptr
    | none => server
  | '-' :: cn =>
    match findPerson cn with
    | some acptr => if cn = [] ∨ acptr = sptr then server else server.delDccallow sptr acptr
    | none => server
  | _ => server

/-- `m_dccallow`; the pieces stand between commas and blanks. -/
def Server.mDccallow (server : Server) (findPerson : Text → Option ClientId) (sptr : ClientId) (client : Client)
    (parameter : Text) : Server :=
  if client.myClient then
    ((parameter.splitOnP fun c => c == ',' || c == ' ').filter (· ≠ [])).foldl
      (Server.dccallowToken findPerson sptr client) server
  else server

/-- `remove_dcc_references`. -/
def Server.removeDccReferences (server : Server) (sptr : ClientId) : Server :=
  (server.dccallow sptr).foldl (fun server lp => server.unlink sptr lp) server

/-- `exit_one_client` and `exit_one_client_in_split`, as far as DCCALLOW goes. -/
def Server.exitOneClient (server : Server) (sptr : ClientId) : Server :=
  let server := server.removeDccReferences sptr
  { clients := update server.clients sptr none, dccallow := update server.dccallow sptr [] }

inductive Action where
  | connect (cptr : ClientId) (client : Client)
  | oper (cptr : ClientId) (anOper : Bool)
  | dccallow (sptr : ClientId) (findPerson : Text → Option ClientId) (parameter : Text)
  | exit (sptr : ClientId)

def Server.perform (server : Server) : Action → Server
  | .connect cptr client =>
    { clients := update server.clients cptr (some client), dccallow := update server.dccallow cptr [] }
  | .oper cptr anOper =>
    { server with clients := update server.clients cptr ((server.clients cptr).map ({ · with anOper := anOper })) }
  | .dccallow sptr findPerson parameter =>
    match server.clients sptr with
    | none => server
    | some client => server.mDccallow findPerson sptr client parameter
  | .exit sptr => server.exitOneClient sptr

/-- Allocators return what nobody holds, and `find_person` finds clients that are there. -/
def Server.Possible (server : Server) : Action → Prop
  | .connect cptr _ => server.clients cptr = none
  | .dccallow _ findPerson _ => ∀ name cptr, findPerson name = some cptr → server.clients cptr ≠ none
  | .oper _ _ | .exit _ => True

def machine : Machine Server Action := ⟨Server.perform, Server.Possible⟩

/-- No operator steps down. -/
def StaysOper (_ : Server) : Action → Prop
  | .oper _ anOper => anOper = true
  | _ => True

/-- The clients on a list under one flag. -/
def part (flag : Flag) (links : List Link) : List ClientId :=
  links.filterMap fun lp => if lp.flags = flag then some lp.cptr else none

def Server.allowed (server : Server) (cptr : ClientId) : List ClientId := part .me (server.dccallow cptr)

def Server.allowing (server : Server) (cptr : ClientId) : List ClientId := part .remote (server.dccallow cptr)

structure Server.Sound (server : Server) : Prop where
  mirrored : Mirrored server.allowed server.allowing
  apart : ∀ cptr, ∀ lp ∈ server.dccallow cptr, lp.cptr ≠ cptr
  present : ∀ cptr, server.dccallow cptr ≠ [] → server.clients cptr ≠ none

def Server.Bounded (server : Server) : Prop :=
  ∀ cptr client, server.clients cptr = some client → client.anOper = false →
    (server.allowed cptr).length ≤ maxDccallow

variable {server server' : Server}

@[simp] theorem mem_part : cptr ∈ part flag links ↔ (⟨flag, cptr⟩ : Link) ∈ links := by
  simp only [part, List.mem_filterMap]
  constructor
  · rintro ⟨lp, member, found⟩
    split at found
    next same =>
      cases found
      exact same ▸ member
    next => cases found
  · intro member
    exact ⟨_, member, if_pos rfl⟩

@[simp] theorem part_cons_self (flag : Flag) (cptr : ClientId) (links : List Link) :
    part flag (⟨flag, cptr⟩ :: links) = cptr :: part flag links := by
  simp [part]

theorem part_cons_of_ne (differ : other ≠ flag) (cptr : ClientId) (links : List Link) :
    part flag (⟨other, cptr⟩ :: links) = part flag links := by
  simp [part, differ]

theorem count_part (flag : Flag) (cptr : ClientId) (links : List Link) :
    (part flag links).count cptr = links.count ⟨flag, cptr⟩ := by
  induction links with
  | nil => rfl
  | cons lp links ih =>
    obtain ⟨other, name⟩ := lp
    by_cases same : other = flag
    · subst same
      rw [part_cons_self, List.count_cons, List.count_cons, ih]
      simp
    · rw [part_cons_of_ne same, ih, List.count_cons_of_ne (by simp [same])]

theorem length_part (flag : Flag) (links : List Link) :
    (part flag links).length = (links.filter (·.flags = flag)).length := by
  induction links with
  | nil => rfl
  | cons lp links ih =>
    obtain ⟨other, name⟩ := lp
    by_cases same : other = flag
    · subst same
      simp [ih]
    · rw [part_cons_of_ne same, ih]
      simp [same]

theorem part_erase_self (flag : Flag) (cptr : ClientId) (links : List Link) :
    part flag (links.erase ⟨flag, cptr⟩) = (part flag links).erase cptr := by
  induction links with
  | nil => rfl
  | cons lp links ih =>
    obtain ⟨other, name⟩ := lp
    by_cases same : other = flag
    · subst same
      by_cases equal : name = cptr
      · simp [equal]
      · rw [List.erase_cons_tail (by simpa using equal), part_cons_self, part_cons_self, ih,
          List.erase_cons_tail (by simpa using equal)]
    · rw [List.erase_cons_tail (by simp [same]), part_cons_of_ne same, part_cons_of_ne same, ih]

theorem part_erase_of_ne (differ : other ≠ flag) (cptr : ClientId) (links : List Link) :
    part flag (links.erase ⟨other, cptr⟩) = part flag links := by
  induction links with
  | nil => rfl
  | cons lp links ih =>
    by_cases same : lp = ⟨other, cptr⟩
    · rw [same, List.erase_cons_head, part_cons_of_ne differ]
    · rw [List.erase_cons_tail (by simpa using same)]
      simp only [part, List.filterMap_cons] at ih ⊢
      rw [ih]

/-- What `add_dccallow` does not refuse is new, and there is room for it. -/
theorem new_of_refuses (accepted : refuses anOper optr cnt links = false) :
    optr ∉ part .me links ∧ (anOper = false → cnt < maxDccallow → cnt + (part .me links).length < maxDccallow) := by
  induction links generalizing cnt with
  | nil => exact ⟨by simp, fun _ room => room⟩
  | cons lp links ih =>
    obtain ⟨flags, cptr⟩ := lp
    unfold refuses at accepted
    by_cases mine : flags = .me
    · subst mine
      simp only [ne_eq, not_true_eq_false, if_false] at accepted
      split at accepted
      next => cases accepted
      next below =>
        split at accepted
        next => cases accepted
        next differs =>
          obtain ⟨new, room⟩ := ih accepted
          rw [part_cons_self, List.mem_cons, not_or, List.length_cons]
          refine ⟨⟨Ne.symm differs, new⟩, ?_⟩
          intro user _
          have more : cnt + 1 < maxDccallow := by simpa [user] using below
          have rest := room user more
          omega
    · simp only [ne_eq, mine, not_false_eq_true, if_true] at accepted
      rw [part_cons_of_ne mine]
      exact ih accepted

theorem unlink_sublist (server : Server) (owner : ClientId) (lp : Link) (cptr : ClientId) :
    ((server.unlink owner lp).dccallow cptr).Sublist (server.dccallow cptr) := by
  have first : ∀ other, (update server.dccallow owner ((server.dccallow owner).erase lp) other).Sublist
      (server.dccallow other) := by
    intro other
    by_cases same : other = owner
    · subst same
      rw [Function.update_self]
      exact List.erase_sublist
    · rw [Function.update_of_ne same]
  simp only [Server.unlink]
  by_cases same : cptr = lp.cptr
  · subst same
    rw [Function.update_self]
    exact List.erase_sublist.trans (first _)
  · rw [Function.update_of_ne same]
    exact first cptr

namespace Server.Sound

/-- Two links go together. -/
theorem unlink {lp : Link} (sound : server.Sound) (listed : lp ∈ server.dccallow owner) : (server.unlink owner lp).Sound := by
  obtain ⟨flag, other⟩ := lp
  have apart : other ≠ owner := sound.apart owner _ listed
  have self : (server.unlink owner ⟨flag, other⟩).dccallow owner = (server.dccallow owner).erase ⟨flag, other⟩ := by
    simp only [Server.unlink, Function.update_of_ne apart.symm, Function.update_self]
  have far : (server.unlink owner ⟨flag, other⟩).dccallow other =
      (server.dccallow other).erase ⟨flag.opposite, owner⟩ := by
    simp only [Server.unlink, Function.update_self, Function.update_of_ne apart]
  have others : ∀ cptr, cptr ≠ owner → cptr ≠ other →
      (server.unlink owner ⟨flag, other⟩).dccallow cptr = server.dccallow cptr := by
    intro cptr first second
    simp only [Server.unlink, Function.update_of_ne second, Function.update_of_ne first]
  refine ⟨?_, ?_, ?_⟩
  · cases flag with
    | me =>
      refine sound.mirrored.unlink (a := owner) (b := other) ?_ ?_ ?_ ?_
      · simp only [Server.allowed, self, part_erase_self]
      · intro cptr differs
        by_cases second : cptr = other
        · simp only [Server.allowed, second, far]
          exact part_erase_of_ne (by simp [Flag.opposite]) _ _
        · simp only [Server.allowed, others cptr differs second]
      · simp only [Server.allowing, far]
        exact part_erase_self _ _ _
      · intro cptr differs
        by_cases first : cptr = owner
        · simp only [Server.allowing, first, self]
          exact part_erase_of_ne (by simp) _ _
        · simp only [Server.allowing, others cptr first differs]
    | remote =>
      refine sound.mirrored.unlink (a := other) (b := owner) ?_ ?_ ?_ ?_
      · simp only [Server.allowed, far]
        exact part_erase_self _ _ _
      · intro cptr differs
        by_cases first : cptr = owner
        · simp only [Server.allowed, first, self]
          exact part_erase_of_ne (by simp) _ _
        · simp only [Server.allowed, others cptr first differs]
      · simp only [Server.allowing, self, part_erase_self]
      · intro cptr differs
        by_cases second : cptr = other
        · simp only [Server.allowing, second, far]
          exact part_erase_of_ne (by simp [Flag.opposite]) _ _
        · simp only [Server.allowing, others cptr differs second]
  · exact fun cptr lp member => sound.apart cptr lp ((unlink_sublist ..).subset member)
  · intro cptr filled
    exact sound.present cptr fun empty => filled (List.sublist_nil.mp (empty ▸ unlink_sublist ..))

theorem addDccallow (sound : server.Sound) (client : Client) (apart : optr ≠ sptr) (presence : server.clients sptr ≠ none)
    (found : server.clients optr ≠ none) : (server.addDccallow sptr client optr).Sound := by
  unfold Server.addDccallow
  split
  next => exact sound
  next accepted =>
    obtain ⟨new, -⟩ := new_of_refuses (Bool.eq_false_iff.mpr accepted)
    refine ⟨?_, ?_, ?_⟩
    · refine sound.mirrored.link (a := sptr) (b := optr) new ?_ ?_ ?_ ?_
      · simp only [Server.allowed, Function.update_of_ne apart.symm, Function.update_self, part_cons_self]
        exact .refl _
      · intro cptr differs
        by_cases second : cptr = optr
        · simp only [Server.allowed, second, Function.update_self, Function.update_of_ne apart]
          exact part_cons_of_ne (by simp) _ _
        · simp only [Server.allowed, Function.update_of_ne second, Function.update_of_ne differs]
      · simp only [Server.allowing, Function.update_self, Function.update_of_ne apart, part_cons_self]
        exact .refl _
      · intro cptr differs
        by_cases first : cptr = sptr
        · simp only [Server.allowing, first, Function.update_of_ne apart.symm, Function.update_self]
          exact part_cons_of_ne (by simp) _ _
        · simp only [Server.allowing, Function.update_of_ne differs, Function.update_of_ne first]
    · intro cptr lp member
      simp only [Function.update_apply] at member
      split at member
      next second =>
        rw [List.mem_cons] at member
        rcases member with rfl | old
        · exact fun same => apart (second.symm.trans same.symm)
        · exact second ▸ sound.apart optr lp old
      next =>
        split at member
        next first =>
          rcases List.mem_cons.mp member with rfl | old
          · exact fun same => apart (same.trans first)
          · exact first ▸ sound.apart sptr lp old
        next => exact sound.apart cptr lp member
    · intro cptr filled
      by_cases second : cptr = optr
      · exact second ▸ found
      · by_cases first : cptr = sptr
        · exact first ▸ presence
        · simp only [Function.update_of_ne second, Function.update_of_ne first] at filled
          exact sound.present cptr filled

theorem delDccallow (sound : server.Sound) (sptr optr : ClientId) : (server.delDccallow sptr optr).Sound := by
  unfold Server.delDccallow
  split
  next listed => exact sound.unlink listed
  next => exact sound

/-- The loop of an exit takes all links of the client away, and their counterparts. -/
theorem removeDccReferences (sound : server.Sound) (sptr : ClientId) :
    (server.removeDccReferences sptr).Sound ∧ (server.removeDccReferences sptr).dccallow sptr = [] ∧
      (server.removeDccReferences sptr).clients = server.clients := by
  have loop : ∀ (links : List Link) (server : Server), server.Sound → server.dccallow sptr = links →
      (links.foldl (fun server lp => server.unlink sptr lp) server).Sound ∧
        (links.foldl (fun server lp => server.unlink sptr lp) server).dccallow sptr = [] ∧
        (links.foldl (fun server lp => server.unlink sptr lp) server).clients = server.clients := by
    intro links
    induction links with
    | nil => exact fun server sound empty => ⟨sound, empty, rfl⟩
    | cons lp links ih =>
      intro server sound own
      have listed : lp ∈ server.dccallow sptr := own ▸ List.mem_cons_self ..
      have rest : (server.unlink sptr lp).dccallow sptr = links := by
        simp only [Server.unlink, Function.update_of_ne (sound.apart sptr lp listed).symm, Function.update_self, own,
          List.erase_cons_head]
      exact ih _ (sound.unlink listed) rest
  exact loop _ server sound rfl

/-- The lists stay, and whoever has one is still there. -/
theorem keep (sound : server.Sound) (lists : server'.dccallow = server.dccallow)
    (clients : ∀ cptr, server.clients cptr ≠ none → server.dccallow cptr ≠ [] → server'.clients cptr ≠ none) :
    server'.Sound := by
  refine ⟨?_, lists ▸ sound.apart, ?_⟩
  · have same : server'.allowed = server.allowed ∧ server'.allowing = server.allowing := by
      constructor <;> funext cptr <;> simp only [Server.allowed, Server.allowing, lists]
    rw [same.1, same.2]
    exact sound.mirrored
  · intro cptr filled
    rw [lists] at filled
    exact clients cptr (sound.present cptr filled) filled

theorem exitOneClient (sound : server.Sound) (sptr : ClientId) : (server.exitOneClient sptr).Sound := by
  obtain ⟨next, empty, -⟩ := sound.removeDccReferences sptr
  have lists : (server.exitOneClient sptr).dccallow = (server.removeDccReferences sptr).dccallow := by
    simp only [Server.exitOneClient, ← empty, Function.update_eq_self]
  refine next.keep lists fun cptr present filled => ?_
  have differs : cptr ≠ sptr := by
    rintro rfl
    exact filled empty
  simpa only [Server.exitOneClient, Function.update_of_ne differs] using present

theorem connect (sound : server.Sound) (absent : server.clients cptr = none) (client : Client) :
    (server.perform (.connect cptr client)).Sound := by
  have empty : server.dccallow cptr = [] := by
    by_contra filled
    exact sound.present cptr filled absent
  have lists : (server.perform (.connect cptr client)).dccallow = server.dccallow := by
    simp only [Server.perform, ← empty, Function.update_eq_self]
  refine sound.keep lists ?_
  intro other present _
  simp only [Server.perform, Function.update_apply]
  split
  next => exact Option.some_ne_none _
  next => exact present

end Server.Sound

namespace Server.Bounded

/-- Shorter lists for the same clients. -/
theorem of_le (bounded : server.Bounded) (clients : server'.clients = server.clients)
    (less : ∀ cptr, (server'.allowed cptr).length ≤ (server.allowed cptr).length) : server'.Bounded := by
  intro cptr client known user
  rw [clients] at known
  exact Nat.le_trans (less cptr) (bounded cptr client known user)

theorem unlink (bounded : server.Bounded) (owner : ClientId) (lp : Link) : (server.unlink owner lp).Bounded :=
  bounded.of_le rfl fun cptr => ((unlink_sublist server owner lp cptr).filterMap _).length_le

theorem addDccallow (bounded : server.Bounded) (known : server.clients sptr = some client) (apart : optr ≠ sptr) :
    (server.addDccallow sptr client optr).Bounded := by
  unfold Server.addDccallow
  split
  next => exact bounded
  next accepted =>
    obtain ⟨-, room⟩ := new_of_refuses (Bool.eq_false_iff.mpr accepted)
    intro cptr client' known' user
    by_cases second : cptr = optr
    · simp only [Server.allowed, second, Function.update_self, Function.update_of_ne apart]
      rw [part_cons_of_ne (by simp)]
      exact bounded optr client' (second ▸ known') user
    · by_cases first : cptr = sptr
      · simp only [first] at known'
        rw [known] at known'
        cases known'
        have below := room user (by decide)
        simp only [Server.allowed, first, Function.update_of_ne apart.symm, Function.update_self, part_cons_self,
          List.length_cons]
        omega
      · simp only [Server.allowed, Function.update_of_ne second, Function.update_of_ne first]
        exact bounded cptr client' known' user

theorem removeDccReferences (bounded : server.Bounded) (sptr : ClientId) :
    (server.removeDccReferences sptr).Bounded := by
  have loop : ∀ (links : List Link) (server : Server), server.Bounded →
      (links.foldl (fun server lp => server.unlink sptr lp) server).Bounded := by
    intro links
    induction links with
    | nil => exact fun _ bounded => bounded
    | cons lp links ih => exact fun _ bounded => ih _ (bounded.unlink sptr lp)
  exact loop _ server bounded

end Server.Bounded

/-- Both together, for the same clients; `calm` says that no operator has stepped down. -/
structure Server.Kept (calm : Prop) (server : Server) : Prop where
  sound : server.Sound
  bounded : calm → server.Bounded

namespace Server.Kept

variable {calm : Prop}

theorem dccallowToken (kept : server.Kept calm) (findPerson : Text → Option ClientId)
    (known : server.clients sptr = some client)
    (finds : ∀ name cptr, findPerson name = some cptr → server.clients cptr ≠ none) (token : Text) :
    (server.dccallowToken findPerson sptr client token).Kept calm ∧
      (server.dccallowToken findPerson sptr client token).clients = server.clients := by
  have presence : server.clients sptr ≠ none := by simp [known]
  unfold Server.dccallowToken
  split
  next cn =>
    split
    next acptr found =>
      split
      next => exact ⟨kept, rfl⟩
      next other =>
        have apart : acptr ≠ sptr := fun same => other (.inr same)
        refine ⟨⟨kept.sound.addDccallow client apart presence (finds cn acptr found),
          fun still => (kept.bounded still).addDccallow known apart⟩, ?_⟩
        unfold Server.addDccallow
        split <;> rfl
    next => exact ⟨kept, rfl⟩
  next cn =>
    split
    next acptr found =>
      split
      next => exact ⟨kept, rfl⟩
      next other =>
        refine ⟨⟨kept.sound.delDccallow sptr acptr, ?_⟩, ?_⟩
        · intro still
          unfold Server.delDccallow
          split
          next => exact (kept.bounded still).unlink _ _
          next => exact kept.bounded still
        · unfold Server.delDccallow
          split <;> rfl
    next => exact ⟨kept, rfl⟩
  next => exact ⟨kept, rfl⟩

theorem mDccallow (kept : server.Kept calm) (findPerson : Text → Option ClientId)
    (known : server.clients sptr = some client)
    (finds : ∀ name cptr, findPerson name = some cptr → server.clients cptr ≠ none) (parameter : Text) :
    (server.mDccallow findPerson sptr client parameter).Kept calm := by
  have loop : ∀ (tokens : List Text) (next : Server), next.Kept calm → next.clients = server.clients →
      (tokens.foldl (Server.dccallowToken findPerson sptr client) next).Kept calm := by
    intro tokens
    induction tokens with
    | nil => exact fun _ kept _ => kept
    | cons token tokens ih =>
      intro next kept same
      obtain ⟨after, same'⟩ := kept.dccallowToken findPerson (same ▸ known) (same ▸ finds) token
      exact ih _ after (same'.trans same)
  unfold Server.mDccallow
  split
  next => exact loop _ server kept rfl
  next => exact kept

/-- Every step keeps the lists mirrored, and no list of a user grows too long. -/
theorem perform (kept : server.Kept calm) (possible : server.Possible action)
    (stays : calm → StaysOper server action) : (server.perform action).Kept calm := by
  cases action with
  | connect cptr client =>
    refine ⟨kept.sound.connect possible client, ?_⟩
    intro still other client' known user
    by_cases same : other = cptr
    · simp only [Server.perform, Server.allowed, same, Function.update_self]
      exact Nat.zero_le _
    · simp only [Server.perform, Function.update_of_ne same] at known
      simp only [Server.perform, Server.allowed, Function.update_of_ne same]
      exact kept.bounded still other client' known user
  | oper cptr anOper =>
    refine ⟨kept.sound.keep rfl ?_, ?_⟩
    · intro other present _
      by_cases same : other = cptr
      · subst same
        simpa only [Server.perform, Function.update_self, ne_eq, Option.map_eq_none_iff] using present
      · simpa only [Server.perform, Function.update_of_ne same] using present
    · intro still other client known user
      have oper : anOper = true := stays still
      by_cases same : other = cptr
      · simp only [Server.perform, same, Function.update_self] at known
        obtain ⟨before, -, rfl⟩ := Option.map_eq_some_iff.mp known
        rw [oper] at user
        cases user
      · simp only [Server.perform, Function.update_of_ne same] at known
        exact kept.bounded still other client known user
  | dccallow sptr findPerson parameter =>
    simp only [Server.perform]
    split
    next => exact kept
    next client known => exact kept.mDccallow findPerson known possible parameter
  | exit sptr =>
    refine ⟨kept.sound.exitOneClient sptr, ?_⟩
    obtain ⟨-, -, clients⟩ := kept.sound.removeDccReferences sptr
    intro still other client known user
    by_cases same : other = sptr
    · simp only [Server.perform, Server.exitOneClient, same, Function.update_self] at known
      cases known
    · simp only [Server.perform, Server.exitOneClient, Function.update_of_ne same] at known
      simp only [Server.perform, Server.exitOneClient, Server.allowed, Function.update_of_ne same]
      exact (kept.bounded still).removeDccReferences sptr other client known user

theorem start : Server.start.Kept calm := by
  refine ⟨⟨Mirrored.empty, ?_, ?_⟩, ?_⟩ <;> simp [Server.start, Server.Bounded]

theorem run {guard : Server → Action → Prop} (run : machine.Run guard Server.start server)
    (stays : calm → ∀ server action, guard server action → StaysOper server action) : server.Kept calm :=
  run.invariant (Server.Kept calm)
    (fun server action possible guarded kept => kept.perform possible fun still => stays still server action guarded) start

end Server.Kept

/-- Who is allowed once has the reverse entry once, and who is not has none; a user has few of them,
unless an operator has stepped down, and nobody who has left is on a list. -/
theorem dccallow_mirrored (run : machine.Run Machine.Any Server.start server) (sptr optr : ClientId) :
    (server.dccallow sptr).count ⟨.me, optr⟩ = (server.dccallow optr).count ⟨.remote, sptr⟩ ∧
      (server.dccallow sptr).count ⟨.me, optr⟩ ≤ 1 ∧
      (machine.Run StaysOper Server.start server → ∀ client, server.clients sptr = some client → client.anOper = false →
        ((server.dccallow sptr).filter (·.flags = .me)).length ≤ maxDccallow) ∧
      (server.clients optr = none → ∀ lp ∈ server.dccallow sptr, lp.cptr ≠ optr) := by
  have kept : server.Kept False := .run run False.elim
  obtain ⟨same, once⟩ := kept.sound.mirrored.count sptr optr
  simp only [Server.allowed, Server.allowing, count_part] at same once
  refine ⟨same, once, ?_, ?_⟩
  · intro calm client known user
    rw [← length_part]
    exact (Server.Kept.run calm fun (_ : True) _ _ => id).bounded trivial sptr client known user
  · rintro gone ⟨flag, other⟩ member rfl
    have empty : server.dccallow other = [] := by
      by_contra filled
      exact kept.sound.present other filled gone
    have reverse : (⟨flag.opposite, sptr⟩ : Link) ∈ server.dccallow other := by
      cases flag with
      | me => exact mem_part.mp ((kept.sound.mirrored.both sptr other).mp (mem_part.mpr member))
      | remote => exact mem_part.mp ((kept.sound.mirrored.both other sptr).mpr (mem_part.mpr member))
    rw [empty] at reverse
    cases reverse

private def found (name : Text) : Option ClientId := if name = ['b'] then some 2 else if name = ['c'] then some 3 else none

/-- One allows two others, one of these leaves. -/
private def actions : List Action :=
  [.connect 1 ⟨true, false⟩, .connect 2 ⟨true, false⟩, .connect 3 ⟨false, false⟩, .dccallow 1 found "+b,+c".toList,
    .exit 2]

theorem dccallow_mirrored_exit :
    ((actions.foldl machine.perform Server.start).dccallow 3).count ⟨.remote, 1⟩ = 1 ∧
      ((actions.foldl machine.perform Server.start).dccallow 2).count ⟨.remote, 1⟩ = 0 ∧
      (((actions.foldl machine.perform Server.start).dccallow 1).filter (·.flags = .me)).length ≤ maxDccallow := by
  have finds : ∀ name cptr, found name = some cptr → cptr = 2 ∨ cptr = 3 := by
    intro name cptr known
    unfold found at known
    split at known
    next => exact .inl (Option.some.inj known).symm
    next =>
      split at known
      next => exact .inr (Option.some.inj known).symm
      next => cases known
  have run : machine.Run StaysOper Server.start (actions.foldl machine.perform Server.start) := by
    refine Machine.Run.of_list actions (.refl _) ⟨rfl, trivial, rfl, trivial, rfl, trivial, ?_, trivial, trivial, trivial,
      trivial⟩
    intro name cptr known
    rcases finds name cptr known with rfl | rfl <;> exact Option.some_ne_none _
  have mirrored := dccallow_mirrored (run.mono fun _ _ _ => trivial)
  refine ⟨?_, ?_, (mirrored 1 3).2.2.1 run ⟨true, false⟩ (by decide +kernel) rfl⟩
  · rw [← (mirrored 1 3).1]
    decide +kernel
  · rw [← (mirrored 1 2).1]
    decide +kernel

end SolidIrcd.Dccallow
