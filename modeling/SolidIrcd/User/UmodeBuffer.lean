import SolidIrcd.User.Umode

/-! The `ubuf[12]` of `register_user` and of `sendnick_TS` over whole runs of a
server: introductions, registrations, every change of modes, and link bursts. -/

namespace SolidIrcd.Umode

open Scan (Text)

/-- The size of `ubuf`, the same constant in both functions. -/
def ubufSize : Nat := 12

/-- A flag that is set and, on a local user, in the mask. -/
def isShown (mine : Bool) (umode sendmask : UModes) (flag : UMode) : Bool :=
  flag ∈ umode && (!mine || flag ∈ sendmask)

/-- The flags of the table that `send_umode` shows of a user to a server. -/
def shownModes (build : Build) (user : User) : List UMode :=
  (userModes build).filter (isShown user.mine user.umode sendUmodes)

inductive Event where
  | introduce (parv4 : Text)
  | register (signon : Signon)
  | mode (target : Nat) (letUmodez : Bool) (letters : Text)
  | svsmode (target : Nat) (letters : Text)
  | oper (target : Nat) (flags : Finset OFlag)
  | svhost (target : Nat)
  | rename (target : Nat)
  | exit (target : Nat)
  | burst

/-- The texts `register_user` writes into its `ubuf`: for the relay, and for a
local user with modes a second time for the `MODE` line sent to it. -/
def registerUser (build : Build) (user : User) : List Text :=
  let relayed := sendUmode build user ∅ sendUmodes
  if user.mine ∧ 2 ≤ relayed.length then [relayed, sendUmode build user ∅ allUmodes] else [relayed]

/-- `sendnick_TS`. -/
def sendnickTS (build : Build) (user : User) : Text := sendUmode build user ∅ sendUmodes

/-- The users after an event, and what it wrote into a `ubuf`. -/
def step (build : Build) (users : List User) : Event → List User × List Text
  | .introduce parv4 =>
    let user := User.ofNick build parv4
    (user :: users, registerUser build user)
  | .register signon =>
    let user := User.ofSignon build signon
    (user :: users, registerUser build user)
  | .mode target letUmodez letters =>
    (users.modify target fun user => mUmode build letUmodez user letters, [])
  | .svsmode target letters => (users.modify target fun user => mSvsmode build user letters, [])
  | .oper target flags => (users.modify target fun user => mOper user flags, [])
  | .svhost target => (users.modify target mSvhost, [])
  | .rename target => (users.modify target User.renamed, [])
  | .exit target => (users.eraseIdx target, [])
  | .burst => (users, users.map (sendnickTS build))

/-- Everything a run writes into the buffers. -/
def writes (build : Build) : List User → List Event → List Text
  | _, [] => []
  | users, event :: rest => (step build users event).2 ++ writes build (step build users event).1 rest

/-- At most ten table letters in an introduction, and at most ten shown modes
on every user a burst sends. -/
def Event.Short (build : Build) (users : List User) : Event → Prop
  | .introduce parv4 => ((userModes build).filter (· ∈ nickUmodes build parv4)).length ≤ 10
  | .burst => ∀ user ∈ users, (shownModes build user).length ≤ 10
  | _ => True

def AllShort (build : Build) : List User → List Event → Prop
  | _, [] => True
  | users, event :: rest =>
    event.Short build users ∧ AllShort build (step build users event).1 rest

private theorem length_umodeLetters (mine : Bool) (umode sendmask : UModes) (table : List UMode) :
    (umodeLetters mine umode ∅ sendmask (some .add) table).length =
        (table.filter (isShown mine umode sendmask)).length ∧
      (umodeLetters mine umode ∅ sendmask none table).length =
        if table.filter (isShown mine umode sendmask) = [] then 0
        else (table.filter (isShown mine umode sendmask)).length + 1 := by
  induction table with
  | nil => simp [umodeLetters]
  | cons flag rest ih =>
    by_cases hidden : mine = true ∧ flag ∉ sendmask
    · have out : isShown mine umode sendmask flag = false := by simp [isShown, hidden]
      rw [List.filter_cons_of_neg (by simp [out])]
      simpa only [umodeLetters, hidden, not_false_eq_true, and_self, ↓reduceIte] using ih
    · by_cases member : flag ∈ umode
      · have shown : isShown mine umode sendmask flag = true := by
          cases mine <;> simp_all [isShown]
        simp [umodeLetters, hidden, member, shown, ih.1]
      · have out : isShown mine umode sendmask flag = false := by simp [isShown, member]
        rw [List.filter_cons_of_neg (by simp [out])]
        simpa [umodeLetters, hidden, member] using ih

theorem length_sendUmode (build : Build) (user : User) :
    (sendUmode build user ∅ sendUmodes).length =
      if shownModes build user = [] then 0 else (shownModes build user).length + 1 :=
  (length_umodeLetters user.mine user.umode sendUmodes (userModes build)).2

theorem sendUmode_fits_iff (build : Build) (user : User) :
    (sendUmode build user ∅ sendUmodes).length + 1 ≤ ubufSize ↔
      (shownModes build user).length ≤ 10 := by
  rw [length_sendUmode, ubufSize]
  split
  · rename_i empty
    simp [empty]
  · omega

theorem registerUser_fits_iff (build : Build) (user : User) :
    (∀ text ∈ registerUser build user, text.length + 1 ≤ ubufSize) ↔
      (shownModes build user).length ≤ 10 := by
  have same : sendUmode build user ∅ allUmodes = sendUmode build user ∅ sendUmodes := rfl
  rw [← sendUmode_fits_iff]
  simp only [registerUser, same]
  split <;> simp

/-- The modes a user can sign on with: the four it may ask for, and three that
its connection brings. -/
private theorem signonUmodes_subset (build : Build) (signon : Signon) :
    signonUmodes build signon ⊆ ({.i, .v, .R, .Y, .z, .F, .W} : UModes) := by
  unfold signonUmodes
  refine Finset.union_subset (Finset.union_subset (Finset.union_subset
    (Finset.sdiff_subset.trans ?_) ?_) ?_) ?_
  · refine Finset.union_subset (Finset.union_subset (Finset.union_subset (Finset.union_subset
      (Finset.inter_subset_left.trans ?_) ?_) ?_) ?_) ?_
    · decide
    · decide
    · exact given_subset (by decide) _
    · exact given_subset (by decide) _
    · exact given_subset (by decide) _
  · exact given_subset (by decide) _
  · exact given_subset (by decide) _
  · exact given_subset (by decide) _

private theorem short_signon (build : Build) (signon : Signon) :
    (shownModes build (User.ofSignon build signon)).length ≤ 10 := by
  have bound : (shownModes build (User.ofSignon build signon)).length ≤
      ((userModes build).filter (· ∈ ({.i, .v, .R, .Y, .z, .F, .W} : UModes))).length := by
    refine List.Sublist.length_le (List.monotone_filter_right _ ?_)
    intro flag shown
    simp only [isShown, Bool.and_eq_true, decide_eq_true_eq] at shown ⊢
    exact signonUmodes_subset build signon shown.1
  refine bound.trans ?_
  unfold userModes
  cases build.haveSsl <;> decide

private theorem step_fits_iff (build : Build) (users : List User) (event : Event) :
    (∀ text ∈ (step build users event).2, text.length + 1 ≤ ubufSize) ↔ event.Short build users := by
  cases event with
  | introduce parv4 =>
    refine (registerUser_fits_iff build (User.ofNick build parv4)).trans ?_
    have same : isShown false (nickUmodes build parv4) sendUmodes =
        fun flag => decide (flag ∈ nickUmodes build parv4) := by
      funext flag
      simp [isShown]
    simp only [Event.Short, shownModes, User.ofNick, same]
  | register signon =>
    exact iff_of_true ((registerUser_fits_iff build _).mpr (short_signon build signon)) trivial
  | burst => simp only [step, Event.Short, List.forall_mem_map, sendnickTS, sendUmode_fits_iff]
  | mode | svsmode | oper | svhost | rename | exit => simp [step, Event.Short]

/-- Over a whole run, every mode string fits its buffer exactly when no
introduction and no user of a burst carries more than ten modes. -/
theorem writes_fit_iff (build : Build) (users : List User) (events : List Event) :
    (∀ text ∈ writes build users events, text.length + 1 ≤ ubufSize) ↔
      AllShort build users events := by
  induction events generalizing users with
  | nil => simp [writes, AllShort]
  | cons event rest ih =>
    simp only [writes, List.forall_mem_append, AllShort, step_fits_iff, ih]

/-- A services administrator signs on, opers up and sets two more notice modes;
the next burst shows eleven letters. A remote introduction needs one line. -/
theorem writes_overflow :
    ¬ (∀ text ∈ writes ⟨false, false, false⟩ []
        [.register ⟨∅, false, false, false, false, false, false⟩, .oper 0 {.sadmin, .admin},
          .mode 0 false "+mK".toList, .burst], text.length + 1 ≤ ubufSize) ∧
      ¬ (∀ text ∈ writes ⟨false, false, false⟩ [] [.introduce "+oiwsghnaAmK".toList],
        text.length + 1 ≤ ubufSize) := by
  decide +kernel

end SolidIrcd.Umode
