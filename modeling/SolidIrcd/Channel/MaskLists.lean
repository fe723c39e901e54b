import SolidIrcd.Channel.BanCache

/-! The three lists of a channel as `add_banid`, `del_banid` and their siblings keep them: no
mask twice, none too many from here, and a new serial for every change of a ban or an exempt. -/

namespace SolidIrcd.Channel.MaskLists

open BanCache (nextSerial)
open Function (update)
open Scan (Text)

structure Lists where
  masks : MaskList → List Text
  banserial : Nat

/-- What `make_channel` leaves. -/
def Lists.start : Lists := ⟨fun _ => [], 0⟩

/-- `banserial++`, which the two functions of the invite list lack. -/
def Lists.bump (lists : Lists) (list : MaskList) : Nat :=
  if list = .invite then lists.banserial else nextSerial lists.banserial

/-- `add_banid`, `add_exempt_id` and `add_invite_id`. -/
def Lists.add (lists : Lists) (list : MaskList) (myClient : Bool) (mask : Text) : Lists :=
  match addId list myClient (lists.masks list) mask with
  | .error _ => lists
  | .ok masks => ⟨update lists.masks list masks, lists.bump list⟩

/-- `del_banid`, `del_exempt_id` and `del_invite_id`. -/
def Lists.del (lists : Lists) (list : MaskList) (mask : Text) : Lists :=
  if (lists.masks list).any (mycmp mask) then
    ⟨update lists.masks list (delId (lists.masks list) mask), lists.bump list⟩
  else lists

inductive Action where
  | add (list : MaskList) (myClient : Bool) (mask : Text)
  | del (list : MaskList) (mask : Text)

def Lists.perform (lists : Lists) : Action → Lists
  | .add list myClient mask => lists.add list myClient mask
  | .del list mask => lists.del list mask

/-- `set_mode` adds what `collapse` and `pretty_mask` make of a parameter. -/
def Lists.Possible (_ : Lists) : Action → Prop
  | .add _ _ mask => ∃ parameter, mask = Mask.canonical parameter
  | .del _ _ => True

def machine : Machine Lists Action := ⟨Lists.perform, Lists.Possible⟩

/-- Masks apart from each other, in any case of their letters, and short enough for `match`. -/
structure Sound (masks : List Text) : Prop where
  apart : masks.Pairwise fun first second => mycmp first second = false
  short : ∀ mask ∈ masks, mask.length ≤ Mask.maxCalls

theorem length_canonical_le_maxCalls (parameter : Text) : (Mask.canonical parameter).length ≤ Mask.maxCalls := by
  have collapsed : (Mask.canonical parameter).length ≤ (Mask.prettyMask parameter).length := Mask.length_collapse_le _
  have pretty := Mask.length_prettyMask_le parameter
  simp only [nickLen, userLen, hostLen] at pretty
  simp only [Mask.maxCalls]
  omega

/-- A mask that is added is a new one, whoever adds it. -/
theorem addId_new (short : ∀ old ∈ masks, old.length ≤ Mask.maxCalls)
    (added : addId list myClient masks mask = .ok masks') :
    masks' = mask :: masks ∧ ∀ old ∈ masks, mycmp mask old = false := by
  unfold addId at added
  split at added
  · cases added
  next free =>
    cases added
    refine ⟨rfl, ?_⟩
    intro old member
    rw [mycmp_comm, ← Bool.not_eq_true]
    intro equal
    cases myClient with
    | true =>
      have matched := Mask.matchMask_of_mycmp equal (short old member)
      rw [refusal_none free member] at matched
      cases matched
    | false =>
      rw [refusal_server] at free
      have listed : masks.any (mycmp · mask) = true := List.any_eq_true.mpr ⟨old, member, equal⟩
      rw [if_pos listed] at free
      cases free

theorem Sound.add (sound : Sound masks) (short : mask.length ≤ Mask.maxCalls)
    (added : addId list myClient masks mask = .ok masks') : Sound masks' := by
  obtain ⟨rfl, new⟩ := addId_new sound.short added
  exact ⟨List.pairwise_cons.mpr ⟨new, sound.apart⟩, List.forall_mem_cons.mpr ⟨short, sound.short⟩⟩

theorem Sound.del (sound : Sound masks) (mask : Text) : Sound (delId masks mask) :=
  ⟨sound.apart.sublist List.eraseP_sublist, fun old member => sound.short old (List.mem_of_mem_eraseP member)⟩

/-- A listed mask is the first that compares equal to it, and the only one. -/
theorem delId_listed (apart : masks.Pairwise fun first second => mycmp first second = false) (member : mask ∈ masks) :
    delId masks mask = masks.filter (· ≠ mask) := by
  induction masks with
  | nil => cases member
  | cons old masks ih =>
    obtain ⟨new, apart⟩ := List.pairwise_cons.mp apart
    by_cases same : old = mask
    · subst same
      have others : masks.filter (· ≠ old) = masks := by
        rw [List.filter_eq_self]
        intro other later
        rw [decide_eq_true_eq]
        rintro rfl
        have different := new other later
        rw [mycmp_refl] at different
        cases different
      rw [delId, List.eraseP_cons_of_pos (mycmp_refl old), List.filter_cons_of_neg (by simp), others]
    · have later : mask ∈ masks := (List.mem_cons.mp member).resolve_left (Ne.symm same)
      have different : mycmp mask old = false := by
        rw [mycmp_comm]
        exact new mask later
      rw [delId, List.eraseP_cons_of_neg (by simp [different]),
        List.filter_cons_of_pos (by simpa using same), ← ih apart later]
      rfl

/-- The count of a list that a client of this server gets a mask into. -/
theorem refusal_full (free : refusal most true mask cnt masks = none) : masks = [] ∨ cnt + masks.length < most := by
  induction masks generalizing cnt with
  | nil => exact .inl rfl
  | cons old masks ih =>
    simp only [refusal, if_true] at free
    split at free
    · cases free
    next room =>
      split at free
      · cases free
      · right
        rcases ih free with rfl | less
        · simp only [List.length_cons, List.length_nil]
          omega
        · simp only [List.length_cons]
          omega

theorem addId_length (added : addId list true masks mask = .ok masks') : masks'.length ≤ list.most := by
  unfold addId at added
  split at added
  · cases added
  next free =>
    cases added
    rcases refusal_full free with rfl | less
    · rw [List.length_singleton]
      cases list <;> decide
    · simp only [List.length_cons]
      omega

theorem nextSerial_ne (banserial : Nat) : nextSerial banserial ≠ banserial := by
  unfold nextSerial
  omega

variable {lists : Lists}

theorem Lists.add_sound (sound : ∀ list, Sound (lists.masks list)) (list : MaskList) (myClient : Bool)
    (short : mask.length ≤ Mask.maxCalls) : ∀ other, Sound ((lists.add list myClient mask).masks other) := by
  intro other
  unfold Lists.add
  split
  · exact sound other
  next added =>
    by_cases same : other = list
    · subst same
      simp only [Function.update_self]
      exact (sound other).add short added
    · simp only [Function.update_of_ne same]
      exact sound other

theorem Lists.del_sound (sound : ∀ list, Sound (lists.masks list)) (list : MaskList) (mask : Text) :
    ∀ other, Sound ((lists.del list mask).masks other) := by
  intro other
  unfold Lists.del
  split
  · by_cases same : other = list
    · subst same
      simp only [Function.update_self]
      exact (sound other).del mask
    · simp only [Function.update_of_ne same]
      exact sound other
  · exact sound other

theorem Lists.perform_sound (sound : ∀ list, Sound (lists.masks list)) (action : Action)
    (possible : lists.Possible action) : ∀ list, Sound ((lists.perform action).masks list) := by
  cases action with
  | add list myClient mask =>
    obtain ⟨parameter, rfl⟩ := possible
    exact lists.add_sound sound list myClient (length_canonical_le_maxCalls parameter)
  | del list mask => exact lists.del_sound sound list mask

/-- An action that leaves the serial has changed no list but that of the invites. -/
theorem Lists.perform_serial (action : Action) (same : (lists.perform action).banserial = lists.banserial) :
    ∀ list, list ≠ .invite → (lists.perform action).masks list = lists.masks list := by
  intro list other
  have bumped : ∀ changed masks,
    (⟨update lists.masks changed masks, lists.bump changed⟩ : Lists).banserial = lists.banserial →
      update lists.masks changed masks list = lists.masks list := by
    intro changed masks kept
    simp only [Lists.bump] at kept
    split at kept
    next invite => exact Function.update_of_ne (invite ▸ other) ..
    next => exact absurd kept (nextSerial_ne _)
  cases action with
  | add changed myClient mask =>
    simp only [Lists.perform, Lists.add] at same ⊢
    split at same
    · rfl
    · exact bumped changed _ same
  | del changed mask =>
    simp only [Lists.perform, Lists.del] at same ⊢
    split at same
    next listed =>
      rw [if_pos listed]
      exact bumped changed _ same
    next missing => rw [if_neg missing]

/-- In every state of a run no list has a mask twice; to delete one that is listed takes off
that one alone; a client of this server overfills no list; and no ban or exempt changes
without the serial. -/
theorem lists_canonical (run : machine.Run Machine.Any Lists.start lists) :
    (∀ list, (lists.masks list).Pairwise fun first second => mycmp first second = false) ∧
    (∀ list, ∀ mask ∈ lists.masks list,
      (lists.del list mask).masks = update lists.masks list ((lists.masks list).filter (· ≠ mask))) ∧
    (∀ list mask, (lists.add list true mask).masks list = lists.masks list ∨
      ((lists.add list true mask).masks list).length ≤ list.most) ∧
    ∀ action list, list ≠ .invite → (lists.perform action).masks list ≠ lists.masks list →
      (lists.perform action).banserial ≠ lists.banserial := by
  have sound : ∀ list, Sound (lists.masks list) := by
    refine run.invariant (fun lists => ∀ list, Sound (lists.masks list)) ?_ ?_
    · exact fun lists action possible _ sound => lists.perform_sound sound action possible
    · exact fun _ => ⟨List.Pairwise.nil, by simp [Lists.start]⟩
  refine ⟨fun list => (sound list).apart, ?_, ?_, ?_⟩
  · intro list mask member
    have listed : (lists.masks list).any (mycmp mask) = true := List.any_eq_true.mpr ⟨mask, member, mycmp_refl mask⟩
    rw [Lists.del, if_pos listed, delId_listed (sound list).apart member]
  · intro list mask
    unfold Lists.add
    split
    · exact .inl rfl
    next added =>
      right
      simp only [Function.update_self]
      exact addId_length added
  · exact fun action list other changed same => changed (lists.perform_serial action same list other)

private def twice : List Action := [.add .ban false "Bad!*@*".toList, .add .ban true "bad!*@*".toList]

/-- A mask that differs from a listed one in case alone is refused. -/
theorem lists_canonical_twice :
    ((twice.foldl machine.perform Lists.start).masks .ban).Pairwise fun first second => mycmp first second = false := by
  have run : machine.Run Machine.Any Lists.start (twice.foldl machine.perform Lists.start) := by
    apply Machine.Run.of_list twice (.refl _)
    exact ⟨⟨"Bad!*@*".toList, by decide +kernel⟩, trivial, ⟨"bad!*@*".toList, by decide +kernel⟩, trivial, trivial⟩
  exact (lists_canonical run).1 .ban

end SolidIrcd.Channel.MaskLists
