import SolidIrcd.UserBan.Exact
import SolidIrcd.UserBan.Print

/-! A listed ban can be removed by its listed text: the text gives the ban back, and
`find_userban_exact` finds it wherever it is stored. -/

namespace SolidIrcd.UserBan

open Scan (Text)

/-- The ban that a command makes of a listed user and host. -/
def Ban.relisted (ban : Ban) : Option Ban := makeHostbasedBan (some ban.userText) (getUserbanHost ban 512)

theorem getUserbanHost_whole (made : makeHostbasedBan user phost = some ban) (inside : phost.length < 512) :
    getUserbanHost ban 512 = ban.hostText := by
  have short : ban.hostText.length ≤ 511 := by
    obtain text | ⟨address, cidr, small, text⟩ := hostText_cases made
    · rw [text, List.length_take]
      omega
    · rw [text]
      have network := length_networkText_le address small
      omega
  exact List.take_of_length_le short

theorem relisted_of_made (made : makeHostbasedBan user phost = some ban) (inside : phost.length < 512) :
    ban.relisted = some ban := by
  rw [Ban.relisted, getUserbanHost_whole made inside, makeHostbasedBan_again made]

/-- An entry of a list prints as the ban it was made of: marks are not printed. -/
theorem relisted_entry (ban : Ban) (marks : Marks) (entry : Nat) :
    ({ ban.mark marks with internalEnt := entry } : Ban).relisted = ban.relisted := rfl

variable {store : Store}

theorem Store.Proper.perform (proper : store.Proper) (action : Action) (performed : store.perform action = some after) :
    after.Proper := by
  cases action with
  | add user host marks =>
    simp only [Store.perform] at performed
    split at performed
    next =>
      obtain rfl := Option.some.inj performed
      exact proper
    next ban made =>
      obtain ⟨slot, place, rfl⟩ := Option.map_eq_some_iff.mp performed
      exact proper.add ((makeHostbasedBan_kind made).mark marks) place
  | remove internalEnt =>
    obtain rfl := Option.some.inj performed
    exact proper.discard _
  | expire now =>
    obtain rfl := Option.some.inj performed
    exact proper.discard _

theorem Store.Proper.run (proper : store.Proper) (actions : List Action)
    (ran : actions.foldlM Store.perform store = some after) : after.Proper := by
  induction actions generalizing store with
  | nil =>
    obtain rfl := Option.some.inj ran
    exact proper
  | cons action actions ih =>
    rw [List.foldlM_cons] at ran
    obtain ⟨between, performed, rest⟩ := Option.bind_eq_some_iff.mp ran
    exact ih (proper.perform action performed) rest

/-- A ban is found in its store under every mark that agrees where the caller cares. -/
theorem Store.Proper.finds (proper : store.Proper) (held : store.lists.Holds stored) (same : Ban.Same borig stored)
    (kind : Kind borig) (agree : Flags.agree careflags stored.flags borig.flags = true) :
    ∃ existing, store.findUserbanExact borig careflags = some existing ∧ store.lists.Holds existing ∧
      borig.Same existing ∧ Flags.agree careflags existing.flags borig.flags = true := by
  cases found : store.findUserbanExact borig careflags with
  | none => exact absurd same (proper.find_none kind found held agree)
  | some existing => exact ⟨existing, rfl, proper.find_some kind found⟩

/-- The listed text of a ban gives the ban again, and with it the entry of any store that
holds the ban, or one with the same mask. -/
theorem makeHostbasedBan_listed (made : makeHostbasedBan user phost = some ban) (inside : phost.length < 512) :
    ban.relisted = some ban ∧
      ∀ actions store marks entry held, Store.run actions = some store →
        held = { ban.mark marks with internalEnt := entry } → store.lists.Holds held →
        held.relisted = some ban ∧
          ∀ again careflags, Flags.agree careflags held.flags (ban.mark again).flags = true →
            ∃ existing, store.findUserbanExact (ban.mark again) careflags = some existing ∧
              store.lists.Holds existing ∧ held.Same existing ∧
              Flags.agree careflags existing.flags (ban.mark again).flags = true := by
  have listed := relisted_of_made made inside
  refine ⟨listed, ?_⟩
  rintro actions store marks entry held ran rfl there
  refine ⟨(relisted_entry ban marks entry).trans listed, ?_⟩
  intro again careflags agree
  have proper : store.Proper := Store.Proper.empty.run actions ran
  have kind := (makeHostbasedBan_kind made).mark again
  have same : (ban.mark again).Same { ban.mark marks with internalEnt := entry } :=
    ⟨rfl, rfl, .inr (mycmp_refl _), mycmp_refl _, rfl, rfl⟩
  obtain ⟨existing, found, stored, matched, bits⟩ := proper.finds there same kind agree
  exact ⟨existing, found, stored, same.symm.trans matched, bits⟩

/-- A network is listed with its prefix length, and read as a network again. -/
theorem makeHostbasedBan_listed_network :
    ∃ ban, makeHostbasedBan (some "bad".toList) "10.7.*".toList = some ban ∧ ban.userText = "bad".toList ∧
      getUserbanHost ban 512 = "10.7.0.0/16".toList ∧ ban.relisted = some ban := by
  cases made : makeHostbasedBan (some "bad".toList) "10.7.*".toList with
  | none => exact absurd made (by decide +kernel)
  | some ban =>
    have shown : (makeHostbasedBan (some "bad".toList) "10.7.*".toList).map
        (fun ban => (ban.userText, getUserbanHost ban 512)) = some ("bad".toList, "10.7.0.0/16".toList) := by
      decide +kernel
    obtain ⟨user, host⟩ := Prod.mk.inj (Option.some.inj ((congrArg _ made.symm).trans shown))
    exact ⟨ban, rfl, user, host, (makeHostbasedBan_listed made (by decide)).1⟩

end SolidIrcd.UserBan
