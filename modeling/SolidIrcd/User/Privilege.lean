import SolidIrcd.User.Umode

/-! What a user of this server can make of its modes with MODE commands for itself. -/

namespace SolidIrcd.Umode

open Scan (Text)

/-- The flag of the O:line that a mode needs. -/
def UMode.needs : UMode → Option OFlag
  | .A => some .admin
  | .a => some .sadmin
  | .f => some .umodef
  | .c => some .umodec
  | .j => some .umodec
  | .y => some .umodey
  | .d => some .umoded
  | .b => some .umodeb
  | .F => some .umodeF
  | _ => none

/-- The modes that only services set. -/
def servicesUmodes : UModes := {.r, .x, .X}

/-- An operator with the flag for it may have the mode; `forceflood` gives its mode to everybody. -/
def User.MayHave (user : User) (mode : UMode) : Prop :=
  (user.isAnOper = true ∧ ∀ flag, mode.needs = some flag → flag ∈ user.oflag) ∨ (mode = .F ∧ user.forceFlood = true)

section

variable {build : Build} {user : User}

theorem lookupUmode_letter (found : lookupUmode build letter = some flag) : flag.letter = letter := by
  have same := List.find?_some found
  exact eq_of_beq same

/-- A letter leaves the modes of services alone. -/
theorem services_umodeChar (build : Build) (mine : Bool) (state : Change × UModes) (c : Char)
    (services : mode ∈ servicesUmodes) : mode ∈ (umodeChar build mine state c).2 ↔ mode ∈ state.2 := by
  have other (flag : UMode) (differs : flag.letter ≠ 'r' ∧ flag.letter ≠ 'x' ∧ flag.letter ≠ 'X') : mode ≠ flag := by
    rintro rfl
    revert differs services
    cases mode <;> decide
  unfold umodeChar
  split
  · rfl
  · rfl
  · rfl
  · rfl
  · rfl
  · rfl
  · rfl
  · rfl
  · rfl
  next plus minus blank cr lf tab r x X =>
    split
    · rfl
    · have admin : mode ∈ (if c = 'A' ∧ mine = true ∧ state.1 = .add then insert UMode.a state.2 else state.2) ↔
          mode ∈ state.2 := by
        split
        · simp [other .a (by decide)]
        · rfl
      simp only []
      split
      · exact admin
      next flag found =>
        have letter := lookupUmode_letter found
        have differs := other flag (by rw [letter]; exact ⟨r, x, X⟩)
        split
        · rw [Finset.mem_insert, admin]
          simp [differs]
        · rw [Finset.mem_erase, admin]
          simp [differs]

theorem services_umodeChars (build : Build) (mine : Bool) (state : Change × UModes) (letters : Text)
    (services : mode ∈ servicesUmodes) :
    mode ∈ (letters.foldl (umodeChar build mine) state).2 ↔ mode ∈ state.2 := by
  induction letters generalizing state with
  | nil => rfl
  | cons c letters ih => exact (ih _).trans (services_umodeChar build mine state c services)

theorem mem_without (flag : UMode) (allowed : Prop) [Decidable allowed] (umode : UModes) :
    mode ∈ (if allowed then umode else umode.erase flag) ↔ mode ∈ umode ∧ (mode = flag → allowed) := by
  split
  next right => exact ⟨fun member => ⟨member, fun _ => right⟩, And.left⟩
  next wrong =>
    rw [Finset.mem_erase]
    constructor
    · exact fun ⟨differs, member⟩ => ⟨member, fun same => absurd same differs⟩
    · exact fun ⟨member, needs⟩ => ⟨fun same => wrong (needs same), member⟩

/-- The modes at the end of `m_umode`. -/
theorem mem_settle (user : User) (mode : UMode) :
    mode ∈ user.settle.umode ↔ (mode = .F ∧ user.forceFlood = true) ∨
      ((mode ∈ user.umode ∧ (user.isAnOper = true ∨ mode ∉ operUmodes ∪ {.k, .s})) ∧
        (∀ flag, mode.needs = some flag → flag ∈ user.oflag) ∧
        (mode = .W → user.masked = true ∨ user.isAnOper = true)) := by
  have base : mode ∈ (if user.isAnOper = true then user.umode else user.umode \ (operUmodes ∪ {.k, .s})) ↔
      mode ∈ user.umode ∧ (user.isAnOper = true ∨ mode ∉ operUmodes ∪ {.k, .s}) := by
    split
    next oper => simp [oper]
    next oper => simp [oper]
  have flood (umode : UModes) : mode ∈ (if user.forceFlood = true then insert .F umode else umode) ↔
      (mode = .F ∧ user.forceFlood = true) ∨ mode ∈ umode := by
    split
    next forced => simp [forced]
    next free => simp [free]
  have needed : (∀ flag, mode.needs = some flag → flag ∈ user.oflag) ↔
      (mode = .F → .umodeF ∈ user.oflag) ∧ (mode = .b → .umodeb ∈ user.oflag) ∧ (mode = .d → .umoded ∈ user.oflag) ∧
        (mode = .y → .umodey ∈ user.oflag) ∧ (mode = .j → .umodec ∈ user.oflag) ∧ (mode = .c → .umodec ∈ user.oflag) ∧
        (mode = .f → .umodef ∈ user.oflag) ∧ (mode = .a → .sadmin ∈ user.oflag) ∧
        (mode = .A → .admin ∈ user.oflag) := by
    cases mode <;> simp [UMode.needs]
  rw [User.settle]
  simp only [flood, mem_without, base, needed, and_assoc]

/-- A mode of anybody's own stays. -/
theorem mem_settle_plain (user : User)
    (plain : mode ∉ operUmodes ∪ {.k, .s} ∧ mode.needs = none ∧ mode ≠ .F ∧ mode ≠ .W) :
    mode ∈ user.settle.umode ↔ mode ∈ user.umode := by
  obtain ⟨free, none, notF, notW⟩ := plain
  rw [mem_settle]
  constructor
  · intro either
    rcases either with ⟨same, _⟩ | ⟨⟨member, _⟩, _⟩
    · exact absurd same notF
    · exact member
  · intro member
    exact .inr ⟨⟨member, .inr free⟩, by simp [none], fun same => absurd same notW⟩

/-- `settle` makes nobody an operator. -/
theorem isAnOper_settle (user : User) : user.settle.isAnOper = user.isAnOper := by
  have global : .o ∈ user.settle.umode ↔ .o ∈ user.umode := mem_settle_plain user (by decide)
  have localOp : .O ∈ user.settle.umode ↔ .O ∈ user.umode := mem_settle_plain user (by decide)
  simp only [User.isAnOper, global, localOp]

/-- A command of the user keeps what it has to keep. -/
structure User.Humble (before after : User) : Prop where
  mine : after.mine = before.mine
  masked : after.masked = before.masked
  forceFlood : after.forceFlood = before.forceFlood
  oflag : after.oflag ⊆ before.oflag
  oper : .o ∈ after.umode → .o ∈ before.umode
  locOp : .O ∈ after.umode → .O ∈ before.umode
  services : ∀ mode ∈ servicesUmodes, mode ∈ after.umode ↔ mode ∈ before.umode

theorem User.Humble.trans {middle final : User} (first : user.Humble middle) (second : middle.Humble final) :
    user.Humble final where
  mine := second.mine.trans first.mine
  masked := second.masked.trans first.masked
  forceFlood := second.forceFlood.trans first.forceFlood
  oflag := second.oflag.trans first.oflag
  oper := first.oper ∘ second.oper
  locOp := first.locOp ∘ second.locOp
  services := fun mode member => (second.services mode member).trans (first.services mode member)

/-- What `m_umode` has before the checks at its end: the letters and the two checks on operators behind them. -/
theorem mUmode_eq (build : Build) (letUmodez : Bool) (mine : user.mine = true) (letters : Text) :
    ∃ umode oflag, mUmode build letUmodez user letters = { user with umode := umode, oflag := oflag }.settle ∧
      oflag ⊆ user.oflag ∧ (.o ∈ umode → .o ∈ user.umode) ∧ (.O ∈ umode → .O ∈ user.umode) ∧
      ∀ mode ∈ servicesUmodes, mode ∈ umode ↔ mode ∈ user.umode := by
  have fewer (dropped : Prop) [Decidable dropped] : (if dropped then ∅ else user.oflag) ⊆ user.oflag := by
    split
    · exact Finset.empty_subset _
    · exact Finset.Subset.refl _
  unfold mUmode
  simp only [mine, if_true]
  refine ⟨_, _, rfl, fewer _, ?_, ?_, ?_⟩
  · intro member
    have kept : .o ∈ user.umode ∩ (userModes build).toFinset := by
      by_contra missing
      simp only [missing, if_false] at member
      split_ifs at member <;> simp at member
    exact (Finset.mem_inter.mp kept).1
  · intro member
    have kept : .O ∈ user.umode ∩ (userModes build).toFinset := by
      by_contra missing
      simp only [missing, if_false] at member
      split_ifs at member <;> simp at member
    exact (Finset.mem_inter.mp kept).1
  · intro mode services
    have letters' := services_umodeChars build true (.add, user.umode) letters services
    have apart : mode ≠ .o ∧ mode ≠ .O ∧ mode ≠ .z := by
      refine ⟨?_, ?_, ?_⟩ <;> rintro rfl <;> simp [servicesUmodes] at services
    rw [← letters']
    split_ifs <;> simp [apart]

theorem mUmode_humble (build : Build) (letUmodez : Bool) (mine : user.mine = true) (letters : Text) :
    user.Humble (mUmode build letUmodez user letters) ∧
      ∀ mode ∈ operUmodes, mode ∈ (mUmode build letUmodez user letters).umode →
        (mUmode build letUmodez user letters).MayHave mode := by
  obtain ⟨umode, oflag, same, fewer, oper, locOp, services⟩ := mUmode_eq build letUmodez mine letters
  rw [same]
  refine ⟨⟨rfl, rfl, rfl, fewer, ?_, ?_, ?_⟩, ?_⟩
  · intro member
    rw [mem_settle] at member
    exact oper (member.resolve_left (by simp)).1.1
  · intro member
    rw [mem_settle] at member
    exact locOp (member.resolve_left (by simp)).1.1
  · intro mode member
    have plain : mode ∉ operUmodes ∪ {.k, .s} ∧ mode.needs = none ∧ mode ≠ .F ∧ mode ≠ .W := by
      revert member
      cases mode <;> decide
    rw [mem_settle_plain _ plain, ← services mode member]
  · intro mode special member
    rcases (mem_settle _ mode).mp member with forced | ⟨⟨_, oper⟩, needs, _⟩
    · exact .inr forced
    · refine .inl ⟨?_, needs⟩
      rw [isAnOper_settle]
      exact oper.resolve_right fun plain => plain (Finset.mem_union_left _ special)

/-- However many MODE commands a user of this server sends for itself, it becomes no operator, changes no mode of
services, and gets the modes of operators only as far as an operator with its O:line may have them. -/
theorem mUmodes_humble (build : Build) (letUmodez : Bool) (mine : user.mine = true) (lines : List Text) :
    user.Humble (lines.foldl (mUmode build letUmodez) user) ∧
      ∀ mode ∈ operUmodes, mode ∈ (lines.foldl (mUmode build letUmodez) user).umode →
        mode ∈ user.umode ∨ (lines.foldl (mUmode build letUmodez) user).MayHave mode := by
  induction lines using List.reverseRecOn with
  | nil => exact ⟨⟨rfl, rfl, rfl, Finset.Subset.refl _, id, id, fun _ _ => Iff.rfl⟩, fun _ _ member => .inl member⟩
  | append_singleton lines letters ih =>
    obtain ⟨humble, may⟩ := mUmode_humble build letUmodez (ih.1.mine.trans mine) letters
    rw [List.foldl_append]
    exact ⟨ih.1.trans humble, fun mode special member => .inr (may mode special member)⟩

end

/-- An operator without a flag in its O:line. -/
def plainOper : User :=
  { mine := true, umode := {.o}, oflag := ∅, masked := false, forceFlood := false, ssl := false }

theorem mUmodes_humble_plainOper :
    plainOper.Humble (["+gA".toList, "-o+w".toList].foldl (mUmode ⟨false, false, false⟩ false) plainOper) ∧
      ∀ mode ∈ operUmodes,
        mode ∈ (["+gA".toList, "-o+w".toList].foldl (mUmode ⟨false, false, false⟩ false) plainOper).umode →
        mode ∈ plainOper.umode ∨
          (["+gA".toList, "-o+w".toList].foldl (mUmode ⟨false, false, false⟩ false) plainOper).MayHave mode :=
  mUmodes_humble ⟨false, false, false⟩ false rfl ["+gA".toList, "-o+w".toList]

/-- An operator takes a mode of `OPER_UMODES` that no flag of its O:line gives. -/
theorem plainOper_takes :
    ¬ ∀ (build : Build) (letUmodez : Bool) (user : User) (lines : List Text), user.mine = true →
      ∀ mode ∈ operUmodes, mode ∈ (lines.foldl (mUmode build letUmodez) user).umode →
        mode ∈ user.umode ∨ ∃ flag ∈ user.oflag, mode.needs = some flag := by
  intro claim
  have taken := claim ⟨false, false, false⟩ false plainOper ["+g".toList] rfl .g (by decide) (by decide)
  revert taken
  decide

end SolidIrcd.Umode
