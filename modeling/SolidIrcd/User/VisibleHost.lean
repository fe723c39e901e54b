import SolidIrcd.User.HostMask
import SolidIrcd.User.ModeString
import SolidIrcd.Lib.Machine

/-! The visible host of a user of this server, while its modes change. -/

namespace SolidIrcd.VisibleHost

open Scan
open Umode
open HostMask (Config Peer Hosts setHostmask makeHostmask initialHosts)

/-- A configuration whose host prefix is a string of C. -/
structure Site extends Config where
  clean : nul ∉ hostPrefix

/-- A user of this server. `foreign` tells that the host is the one of the last `SVHOST`. -/
structure State where
  site : Site
  peer : Peer
  user : User
  hosts : Hosts
  foreign : Bool

/-- What the host of a user of this server depends on. -/
inductive Action where
  | mode (letters : Text)
  /-- `OPER` with the name and the password of an oper block with these flags. -/
  | oper (flags : Finset OFlag)
  | svsmode (letters : Text)
  | svhost (host : Text)
  | rename
  | rehash (site : Site)

/-- The modes with which `m_umode` looks at the host: nobody has made itself an operator. -/
def askedUmodes (build : Build) (user : User) (letters : Text) : UModes :=
  let setflags := user.umode ∩ (userModes build).toFinset
  let changed := (letters.foldl (umodeChar build user.mine) (.add, user.umode)).2
  let changed := if .o ∈ setflags then changed else changed.erase .o
  if .O ∈ setflags then changed else changed.erase .O

/-- The calls of `set_hostmask` in `m_umode`. -/
def Remasks (setflags asked : UModes) : Prop :=
  (.v ∉ setflags ∧ .v ∈ asked) ∨ (.v ∈ setflags ∧ .v ∉ asked) ∨
    (.H ∈ setflags ∧ .H ∉ asked ∧ .o ∈ asked) ∨ (.H ∉ setflags ∧ .H ∈ asked ∧ .o ∈ asked)

instance (setflags asked : UModes) : Decidable (Remasks setflags asked) := by
  unfold Remasks
  infer_instance

def State.setHostmask (state : State) (umode : UModes) : State :=
  { state with hosts := HostMask.setHostmask state.site.toConfig state.peer umode state.hosts, foreign := false }

/-- What `register_user` takes for a bad character in a host name. -/
def badDns (host : Text) : Bool := host.any fun c => !(isAlpha c || isDigit c) && c ≠ '-' && c ≠ '.'

/-- A bad name gives way to the address, but in `realhost`. -/
def withoutBadDns (peer : Peer) : Peer × Hosts :=
  let hosts := initialHosts peer
  if badDns (textAt hosts.host 0) then
    (⟨peer.address.hostip, peer.address, Nat.le_trans (Nat.le_of_lt (HostMask.lengthAssertion_hostip _)) (by decide)⟩,
      { hosts with host := strcpy hosts.host peer.address.hostip })
  else (peer, hosts)

/-- `register_user`, for a name with a dot. Oper masking replaces the name and the address that the mask is made of. -/
def register (build : Build) (site : Site) (peer : Peer) (signon : Signon) : State :=
  let (peer, hosts) := withoutBadDns peer
  let peer' : Peer := if signon.masked then ⟨site.staffAddress, .any, site.staffAddress_le⟩ else peer
  let hosts := makeHostmask site.toConfig peer' hosts
  let user := User.ofSignon build signon
  State.setHostmask ⟨site, peer', user, hosts, false⟩ user.umode

def perform (build : Build) (letUmodez : Bool) (state : State) : Action → State
  | .mode letters =>
    let user := mUmode build letUmodez state.user letters
    let asked := askedUmodes build state.user letters
    if Remasks (state.user.umode ∩ (userModes build).toFinset) asked then { state.setHostmask asked with user := user }
    else { state with user := user }
  | .oper flags =>
    let user := mOper state.user flags
    if state.user.isAnOper then state else { state.setHostmask user.umode with user := user }
  | .svsmode letters => { state with user := mSvsmode build state.user letters }
  | .svhost host =>
    { state with
      user := mSvhost state.user
      hosts := { state.hosts with host := snprintf state.hosts.host host (hostLen + 1) }
      foreign := true }
  | .rename => { state with user := state.user.renamed }
  | .rehash site => { state with site := site }

def machine (build : Build) (letUmodez : Bool) : Machine State Action where
  perform := perform build letUmodez
  possible := fun _ _ => True

/-- The visible host is the one that `set_hostmask` computes from the modes the user has. -/
def State.Follows (state : State) : Prop :=
  textAt state.hosts.host 0 =
    textAt (HostMask.setHostmask state.site.toConfig state.peer state.user.umode state.hosts).host 0

/-- The staff address is for operators that do not hide. -/
def Staff (umode : UModes) : Prop := (.o ∈ umode ∨ .O ∈ umode) ∧ .H ∉ umode

instance (umode : UModes) : Decidable (Staff umode) := by
  unfold Staff
  infer_instance

/-- The same one of the three hosts belongs to both. -/
def SameHost (before after : UModes) : Prop :=
  (Staff before ↔ Staff after) ∧ (Staff before ∨ (.v ∈ before ↔ .v ∈ after))

instance (before after : UModes) : Decidable (SameHost before after) := by
  unfold SameHost
  infer_instance

/-- The modes that choose the host. -/
def hostUmodes : UModes := {.o, .O, .H, .v}

/-- A mode string asks for the mode, for a user with these modes. -/
def Asks (umode : UModes) (letters : Text) (flag : UMode) : Prop :=
  lastSign flag.letter .add letters = some .add ∨ (lastSign flag.letter .add letters = none ∧ flag ∈ umode)

instance (umode : UModes) (letters : Text) (flag : UMode) : Decidable (Asks umode letters flag) := by
  unfold Asks
  infer_instance

/-- What a `MODE` of the user makes of the modes that choose the host. -/
def wanted (umode : UModes) (letters : Text) : UModes :=
  hostUmodes.filter fun flag => Asks umode letters flag ∧ (flag = .o ∨ flag = .O → flag ∈ umode)

/-- What an `SVSMODE` makes of them: it only takes `o` and `O`. -/
def left (umode : UModes) (letters : Text) : UModes :=
  hostUmodes.filter fun flag =>
    if flag = .o ∨ flag = .O then flag ∈ umode ∧ takes flag.letter .add letters = false else Asks umode letters flag

/-- The action calls `set_hostmask`, or another host is not due. -/
def Action.Keeps (state : State) : Action → Prop
  | .mode letters =>
    Remasks state.user.umode (wanted state.user.umode letters) ∨
      (Staff state.user.umode ↔ Staff (wanted state.user.umode letters))
  | .svsmode letters => SameHost state.user.umode (left state.user.umode letters)
  | .rehash site => Staff state.user.umode → site.staffAddress = state.site.staffAddress
  | .oper _ | .svhost _ | .rename => True

instance (state : State) : (action : Action) → Decidable (action.Keeps state)
  | .mode _ | .svsmode _ | .rehash _ => by
    unfold Action.Keeps
    infer_instance
  | .oper _ | .svhost _ | .rename => isTrue trivial

section

variable {build : Build} {flag : UMode}

theorem hostUmodes_cases (host : flag ∈ hostUmodes) : flag = .o ∨ flag = .O ∨ flag = .H ∨ flag = .v := by
  simpa [hostUmodes] using host

theorem lookupUmode_hostUmodes (build : Build) (host : flag ∈ hostUmodes) :
    lookupUmode build flag.letter = some flag := by
  rcases hostUmodes_cases host with rfl | rfl | rfl | rfl <;> rfl

theorem mem_userModes (build : Build) (host : flag ∈ hostUmodes) : flag ∈ (userModes build).toFinset := by
  rw [List.mem_toFinset, userModes, List.mem_append]
  rcases hostUmodes_cases host with rfl | rfl | rfl | rfl <;> exact .inl (by decide)

theorem heard_hostUmodes (build : Build) (host : flag ∈ hostUmodes) :
    ¬ Skips build flag ∧ flag ≠ .a ∧ flag ≠ .d := by
  have known := lookupUmode_hostUmodes build host
  rcases hostUmodes_cases host with rfl | rfl | rfl | rfl <;> simpa [Skips] using known

theorem mem_wanted (host : flag ∈ hostUmodes) :
    flag ∈ wanted umode letters ↔ Asks umode letters flag ∧ (flag = .o ∨ flag = .O → flag ∈ umode) := by
  rw [wanted, Finset.mem_filter, and_iff_right host]

/-- The modes `m_umode` looks at are the ones the letters ask for. -/
theorem mem_askedUmodes (build : Build) (user : User) (letters : Text) (host : flag ∈ hostUmodes) :
    flag ∈ askedUmodes build user letters ↔ flag ∈ wanted user.umode letters := by
  have known (flag : UMode) (host : flag ∈ hostUmodes) :
      flag ∈ user.umode ∩ (userModes build).toFinset ↔ flag ∈ user.umode := by
    rw [Finset.mem_inter, and_iff_left (mem_userModes build host)]
  obtain ⟨heard, notA, _⟩ := heard_hostUmodes build host
  have letters' := mem_umodeChars flag build user.mine .add user.umode letters (absurd · notA)
  rw [if_neg heard] at letters'
  rw [mem_wanted host, Asks, ← letters', askedUmodes]
  simp only [mem_without, known .o (by decide), known .O (by decide)]
  rcases hostUmodes_cases host with rfl | rfl | rfl | rfl <;> simp

/-- A test on the four modes gives the same for both. -/
theorem staff_congr (same : ∀ flag ∈ hostUmodes, flag ∈ before ↔ flag ∈ after) : Staff before ↔ Staff after := by
  rw [Staff, Staff, same .o (by decide), same .O (by decide), same .H (by decide)]

theorem remasks_congr (sets : ∀ flag ∈ hostUmodes, flag ∈ setflags ↔ flag ∈ before)
    (same : ∀ flag ∈ hostUmodes, flag ∈ asked ↔ flag ∈ after) : Remasks setflags asked ↔ Remasks before after := by
  rw [Remasks, Remasks, sets .v (by decide), sets .H (by decide), same .v (by decide), same .H (by decide),
    same .o (by decide)]

theorem sameHost_congr (same : ∀ flag ∈ hostUmodes, flag ∈ before ↔ flag ∈ after) :
    SameHost before umode ↔ SameHost after umode := by
  rw [SameHost, SameHost, staff_congr same, same .v (by decide)]

/-- The checks at the end of `m_umode` change no host. -/
theorem sameHost_settle (user : User) : SameHost user.umode user.settle.umode := by
  have hidden : .H ∈ user.settle.umode ↔ .H ∈ user.umode ∧ (.o ∈ user.umode ∨ .O ∈ user.umode) := by
    rw [mem_settle]
    simp [UMode.needs, User.isAnOper, operUmodes]
  have global : .o ∈ user.settle.umode ↔ .o ∈ user.umode := mem_settle_plain user (by decide)
  have localOp : .O ∈ user.settle.umode ↔ .O ∈ user.umode := mem_settle_plain user (by decide)
  refine ⟨?_, .inr (mem_settle_plain user (by decide)).symm⟩
  rw [Staff, Staff, global, localOp, hidden]
  tauto

theorem mUmode_eq_settle (build : Build) (letUmodez : Bool) (mine : user.mine = true) (letters : Text) :
    ∃ umode oflag, mUmode build letUmodez user letters = { user with umode := umode, oflag := oflag }.settle ∧
      ∀ flag ≠ .z, flag ∈ umode ↔ flag ∈ askedUmodes build user letters := by
  unfold mUmode
  simp only [mine, if_true]
  refine ⟨_, _, rfl, ?_⟩
  intro flag notZ
  rw [askedUmodes, mine]
  split_ifs <;> simp [notZ]

/-- What comes behind the calls of `set_hostmask` in `m_umode` changes no host. -/
theorem sameHost_mUmode (build : Build) (letUmodez : Bool) (mine : user.mine = true) (letters : Text) :
    SameHost (askedUmodes build user letters) (mUmode build letUmodez user letters).umode := by
  obtain ⟨umode, oflag, same, asked⟩ := mUmode_eq_settle build letUmodez mine letters
  have hosts : ∀ flag ∈ hostUmodes, flag ∈ umode ↔ flag ∈ askedUmodes build user letters := by
    intro flag host
    apply asked
    rintro rfl
    exact absurd host (by decide)
  rw [same, ← sameHost_congr hosts]
  exact sameHost_settle { user with umode := umode, oflag := oflag }

theorem SameHost.symm (same : SameHost before after) : SameHost after before := by
  obtain ⟨staff, masked⟩ := same
  refine ⟨staff.symm, ?_⟩
  rcases masked with left | iff
  · exact .inl (staff.mp left)
  · exact .inr iff.symm

theorem SameHost.trans (first : SameHost before middle) (second : SameHost middle after) : SameHost before after := by
  obtain ⟨staff, masked⟩ := first
  obtain ⟨staff', masked'⟩ := second
  refine ⟨staff.trans staff', ?_⟩
  rcases masked with left | iff
  · exact .inl left
  · rcases masked' with left | iff'
    · exact .inl (staff.mpr left)
    · exact .inr (iff.trans iff')

theorem mem_mSvsmode (build : Build) (user : User) (letters : Text) (host : flag ∈ hostUmodes) :
    flag ∈ left user.umode letters ↔ flag ∈ (mSvsmode build user letters).umode := by
  have listens : ¬ (flag = .d ∨ lookupUmode build flag.letter ≠ some flag) := by
    simp [(heard_hostUmodes build host).2.2, lookupUmode_hostUmodes build host]
  rw [mSvsmode, mem_svsmodeChars build .add user letters, if_neg listens, left, Finset.mem_filter, and_iff_right host]
  rfl

end

section

variable {config : Config} {peer : Peer} {hosts : Hosts}

theorem textAt_strcpy (dest src : Text) : textAt (strcpy dest src) 0 = src.takeWhile (· != nul) := by
  rw [textAt, List.drop_zero, strcpy]
  generalize dest.drop (src.length + 1) = rest
  induction src with
  | nil => simp
  | cons c src ih => by_cases ended : c = nul <;> simp [ended, ih]

/-- The text that `snprintf` leaves of another. -/
def printed (src : Text) : Text := (src.take hostLen).takeWhile (· != nul)

theorem textAt_snprintf (dest src : Text) : textAt (snprintf dest src (hostLen + 1)) 0 = printed src :=
  textAt_strcpy dest (src.take hostLen)

/-- The host that is due to a user with these modes. -/
def due (config : Config) (umode : UModes) (hosts : Hosts) : Text :=
  if Staff umode then printed config.staffAddress
  else if .v ∉ umode then printed (textAt hosts.realhost 0)
  else printed (textAt hosts.maskhost 0)

theorem setHostmask_due (config : Config) (peer : Peer) (umode : UModes) (made : textAt hosts.maskhost 0 ≠ []) :
    textAt (HostMask.setHostmask config peer umode hosts).host 0 = due config umode hosts ∧
      (HostMask.setHostmask config peer umode hosts).maskhost = hosts.maskhost ∧
      (HostMask.setHostmask config peer umode hosts).realhost = hosts.realhost := by
  unfold HostMask.setHostmask due
  by_cases staff : Staff umode
  · rw [if_pos staff, if_pos (show _ ∧ _ from staff)]
    exact ⟨textAt_snprintf _ _, rfl, rfl⟩
  · rw [if_neg staff, if_neg (show ¬ (_ ∧ _) from staff), if_neg made]
    split_ifs
    · exact ⟨textAt_snprintf _ _, rfl, rfl⟩
    · exact ⟨textAt_snprintf _ _, rfl, rfl⟩

theorem SameHost.due_eq (same : SameHost before after) : due config before hosts = due config after hosts := by
  obtain ⟨staff, masked⟩ := same
  by_cases address : Staff before
  · rw [due, due, if_pos address, if_pos (staff.mp address)]
  · have iff := masked.resolve_left address
    rw [due, due, if_neg address, if_neg (address ∘ staff.mpr)]
    simp only [iff]

theorem mask_starts (site : Site) (peer : Peer) : ∃ c rest, HostMask.mask site.toConfig peer = c :: rest ∧ c ≠ nul := by
  have starts (text : Text) : ∃ c rest, site.hostPrefix ++ '-' :: text = c :: rest ∧ c ≠ nul := by
    cases front : site.hostPrefix with
    | nil => exact ⟨'-', text, rfl, by decide⟩
    | cons c rest =>
      refine ⟨c, rest ++ '-' :: text, rfl, ?_⟩
      rintro rfl
      exact site.clean (by simp [front])
  unfold HostMask.mask
  simp only []
  split
  · simpa using starts _
  · split
    · simpa using starts _
    · simpa using starts _

theorem makeHostmask_made (site : Site) (peer : Peer) (hosts : Hosts) :
    textAt (makeHostmask site.toConfig peer hosts).maskhost 0 ≠ [] := by
  obtain ⟨c, rest, starts, notNul⟩ := mask_starts site peer
  rw [makeHostmask, strncpy, starts]
  simp [textAt, hostLen, notNul]

end

/-- What every action keeps. -/
structure State.Good (state : State) : Prop where
  mine : state.user.mine = true
  made : textAt state.hosts.maskhost 0 ≠ []
  due : state.foreign = false → textAt state.hosts.host 0 = due state.site.toConfig state.user.umode state.hosts

section

variable {build : Build} {letUmodez : Bool} {state : State}

/-- `set_hostmask` under modes with the host of the new ones. -/
theorem State.Good.setHostmask (good : state.Good) (user : User) (mine : user.mine = true)
    (same : SameHost umode user.umode) : State.Good { state.setHostmask umode with user := user } := by
  obtain ⟨text, maskhost, realhost⟩ :=
    setHostmask_due state.site.toConfig state.peer umode good.made
  refine ⟨mine, by rw [State.setHostmask, maskhost]; exact good.made, fun _ => ?_⟩
  rw [State.setHostmask, text, same.due_eq]
  simp only [VisibleHost.due, maskhost, realhost]

theorem State.Good.unmasked (good : state.Good) (user : User) (mine : user.mine = true)
    (same : state.foreign = false → SameHost state.user.umode user.umode) :
    State.Good { state with user := user } :=
  ⟨mine, good.made, fun own => (good.due own).trans (same own).due_eq⟩

/-- The modes that choose the host are the ones the action asks for. -/
theorem sameHost_of (same : ∀ flag ∈ hostUmodes, flag ∈ before ↔ flag ∈ after) : SameHost before after :=
  ⟨staff_congr same, .inr (same .v (by decide))⟩

theorem register_good (build : Build) (site : Site) (peer : Peer) (signon : Signon) :
    (register build site peer signon).Good := by
  unfold register
  generalize withoutBadDns peer = named
  obtain ⟨peer, hosts⟩ := named
  dsimp only
  generalize (if signon.masked = true then (⟨site.staffAddress, .any, site.staffAddress_le⟩ : Peer) else peer) =
    peer'
  have made := makeHostmask_made site peer' hosts
  obtain ⟨text, maskhost, realhost⟩ :=
    setHostmask_due site.toConfig peer' (User.ofSignon build signon).umode made
  refine ⟨rfl, by rw [State.setHostmask, maskhost]; exact made, fun _ => ?_⟩
  simp only [State.setHostmask, text]
  simp only [due, maskhost, realhost]

theorem mode_good (good : state.Good) (letters : Text)
    (keeps : state.foreign = false → (Action.mode letters).Keeps state) :
    (perform build letUmodez state (.mode letters)).Good := by
  have mine : (mUmode build letUmodez state.user letters).mine = true :=
    (mUmode_humble build letUmodez good.mine letters).1.mine.trans good.mine
  have result := sameHost_mUmode build letUmodez good.mine letters
  have asked (flag : UMode) (host : flag ∈ hostUmodes) := mem_askedUmodes build state.user letters host
  have known (flag : UMode) (host : flag ∈ hostUmodes) :
      flag ∈ state.user.umode ∩ (userModes build).toFinset ↔ flag ∈ state.user.umode := by
    rw [Finset.mem_inter, and_iff_left (mem_userModes build host)]
  simp only [perform, remasks_congr known asked]
  split
  · exact good.setHostmask _ mine result
  next silent =>
    apply good.unmasked _ mine
    intro own
    refine SameHost.trans ⟨(keeps own).resolve_left silent, .inr ?_⟩ ((sameHost_of asked).symm.trans result)
    rw [Remasks] at silent
    tauto

theorem perform_good (good : state.Good) (action : Action) (keeps : state.foreign = false → action.Keeps state) :
    (perform build letUmodez state action).Good := by
  cases action with
  | mode letters => exact mode_good good letters keeps
  | oper flags =>
    rw [perform]
    split
    · exact good
    · apply good.setHostmask _ _ (sameHost_of fun _ _ => Iff.rfl)
      rw [← good.mine, mOper]
      split_ifs <;> rfl
  | svsmode letters =>
    apply good.unmasked
    · exact (mine_svsmodeChars build (.add, state.user) letters).trans good.mine
    · intro own
      exact SameHost.trans (keeps own) (sameHost_of fun flag host => mem_mSvsmode build state.user letters host)
  | svhost host => exact ⟨good.mine, good.made, nofun⟩
  | rename =>
    apply good.unmasked state.user.renamed good.mine
    intro _
    apply sameHost_of
    intro flag host
    rcases hostUmodes_cases host with rfl | rfl | rfl | rfl <;> simp [User.renamed]
  | rehash site =>
    refine ⟨good.mine, good.made, fun own => (good.due own).trans ?_⟩
    change VisibleHost.due _ state.user.umode state.hosts = VisibleHost.due _ state.user.umode state.hosts
    unfold VisibleHost.due
    split
    next staff => exact congrArg printed (keeps own staff).symm
    · rfl

theorem State.Good.follows (good : state.Good) (own : state.foreign = false) : state.Follows := by
  rw [State.Follows, good.due own, (setHostmask_due _ _ state.user.umode good.made).1]

end

/-- As long as every action that makes another host due calls `set_hostmask`, the host of a user is the one that
`set_hostmask` computes, or the one of an `SVHOST`. -/
theorem run_follows (build : Build) (letUmodez : Bool) (site : Site) (peer : Peer) (signon : Signon)
    (run : (machine build letUmodez).Run (fun state action => state.foreign = false → action.Keeps state)
      (register build site peer signon) final) (own : final.foreign = false) : final.Follows := by
  have good : final.Good := run.invariant State.Good (fun _ action _ keeps good => perform_good good action keeps)
    (register_good build site peer signon)
  exact good.follows own

/-- The registration of a user without host masking. -/
def site : Site := { HostMask.defaults with clean := by decide }

def peer : Peer := ⟨"h.example".toList, HostMask.deepHost.address, by decide⟩

def signon : Signon :=
  { wanted := ∅, autoUmodev := false, autoUmodeR := false, classUmodev := false, masked := false, forceFlood := false
    ssl := false }

def start : State := register ⟨false, false, false⟩ site peer signon

theorem run_follows_masked :
    let actions : List Action := [.oper {.groute}, .svsmode "+r".toList, .mode "+v-o".toList]
    State.Follows (actions.foldl (perform ⟨false, false, false⟩ false) start) := by
  intro actions
  refine run_follows ⟨false, false, false⟩ false site peer signon (.of_list actions (.refl _) ?_) (by decide +kernel)
  refine ⟨trivial, fun _ => trivial, trivial, fun _ => ?_, trivial, fun _ => ?_, trivial⟩
  · decide +kernel
  · decide +kernel

/-- A user that opers and drops its oper status keeps the staff address. -/
theorem deoper_keepsAddress :
    ¬ ∀ (build : Build) (letUmodez : Bool) (site : Site) (peer : Peer) (signon : Signon) (final : State),
      (machine build letUmodez).Run Machine.Any (register build site peer signon) final → final.foreign = false →
        final.Follows := by
  intro claim
  have run : (machine ⟨false, false, false⟩ false).Run Machine.Any start _ :=
    .of_list [.oper {.groute}, .mode "-o".toList] (.refl _) ⟨trivial, trivial, trivial, trivial, trivial⟩
  have follows := claim _ _ site peer signon _ run (by decide +kernel)
  revert follows
  unfold State.Follows
  decide +kernel

end SolidIrcd.VisibleHost
