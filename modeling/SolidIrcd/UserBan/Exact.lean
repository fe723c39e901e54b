import SolidIrcd.UserBan.Store

/-! `find_userban_exact`: a ban with the same mask. Within one list of the store that is
an equivalence. -/

namespace SolidIrcd.UserBan

open Scan (Text)

/-- The bits of `careflags` that any caller asks for. -/
def Flags.agree (careflags first second : Flags) : Bool :=
  (!careflags.isLocal || first.isLocal == second.isLocal) && (!careflags.network || first.network == second.network) &&
    (!careflags.conf || first.conf == second.conf) && (!careflags.gline || first.gline == second.gline) &&
    (!careflags.shun || first.shun == second.shun) && (!careflags.temporary || first.temporary == second.temporary)

/-- The tests of one turn of `find_userban_exact`. -/
def Ban.exact (borig b : Ban) (careflags : Flags) : Bool :=
  b.flags.wilduser == borig.flags.wilduser && careflags.agree b.flags borig.flags &&
    (borig.flags.wilduser || mycmp (borig.u.getD []) (b.u.getD [])) &&
    if borig.flags.cidr4big || borig.flags.cidr4 then
      borig.cidr4ip == b.cidr4ip && borig.cidr4mask == b.cidr4mask
    else mycmp (borig.h.getD []) (b.h.getD [])

/-- `find_userban_exact`, in the list the ban would go to. -/
def Store.findUserbanExact (store : Store) (borig : Ban) (careflags : Flags) : Option Ban :=
  borig.slot.bind fun slot => (store.lists slot).find? fun b => borig.exact b careflags

/-- The same mask in the same list, up to the case of letters. -/
structure Ban.Same (first second : Ban) : Prop where
  slot : first.slot = second.slot
  wilduser : first.flags.wilduser = second.flags.wilduser
  user : first.flags.wilduser = true ∨ mycmp (first.u.getD []) (second.u.getD []) = true
  host : mycmp (first.h.getD []) (second.h.getD []) = true
  ip : first.cidr4ip = second.cidr4ip
  mask : first.cidr4mask = second.cidr4mask

theorem Ban.Same.symm (same : Ban.Same first second) : second.Same first where
  slot := same.slot.symm
  wilduser := same.wilduser.symm
  user := by
    rw [← same.wilduser, mycmp_comm]
    exact same.user
  host := by
    rw [mycmp_comm]
    exact same.host
  ip := same.ip.symm
  mask := same.mask.symm

theorem Ban.Same.trans (left : Ban.Same first second) (right : second.Same third) : first.Same third where
  slot := left.slot.trans right.slot
  wilduser := left.wilduser.trans right.wilduser
  user := by
    obtain wild | user := left.user
    · exact .inl wild
    · obtain wild | user' := right.user
      · exact .inl (left.wilduser.trans wild)
      · exact .inr (mycmp_trans user user')
  host := mycmp_trans left.host right.host
  ip := left.ip.trans right.ip
  mask := left.mask.trans right.mask

private theorem host_same (first : Kind borig) (second : Kind b) (slot : borig.slot = b.slot) :
    ((if borig.flags.cidr4big || borig.flags.cidr4 then
        borig.cidr4ip == b.cidr4ip && borig.cidr4mask == b.cidr4mask
      else mycmp (borig.h.getD []) (b.h.getD [])) = true) ↔
      mycmp (borig.h.getD []) (b.h.getD []) = true ∧ borig.cidr4ip = b.cidr4ip ∧ borig.cidr4mask = b.cidr4mask := by
  have netted : (borig.flags.cidr4big || borig.flags.cidr4) = (b.flags.cidr4big || b.flags.cidr4) := by
    unfold Ban.slot at slot
    grind
  cases first with
  | ip h is host cidr4 cidr4big text noip nomask =>
    cases second with
    | ip _ _ _ _ _ _ noip' nomask' => simp [cidr4, cidr4big, noip, nomask, noip', nomask']
    | host _ _ _ _ _ _ noip' nomask' => simp [cidr4, cidr4big, noip, nomask, noip', nomask']
    | cidr4 _ is' => simp [cidr4, cidr4big, is'] at netted
    | cidr4big is' => simp [cidr4, cidr4big, is'] at netted
  | host h is ip cidr4 cidr4big text noip nomask =>
    cases second with
    | ip _ _ _ _ _ _ noip' nomask' => simp [cidr4, cidr4big, noip, nomask, noip', nomask']
    | host _ _ _ _ _ _ noip' nomask' => simp [cidr4, cidr4big, noip, nomask, noip', nomask']
    | cidr4 _ is' => simp [cidr4, cidr4big, is'] at netted
    | cidr4big is' => simp [cidr4, cidr4big, is'] at netted
  | cidr4 cidr is cidr4big ip host mask wide small notext =>
    cases second with
    | ip _ _ _ cidr4' cidr4big' => simp [is, cidr4', cidr4big'] at netted
    | host _ _ _ cidr4' cidr4big' => simp [is, cidr4', cidr4big'] at netted
    | cidr4 _ _ _ _ _ _ _ _ notext' => simp [is, notext, notext']
    | cidr4big _ _ _ _ notext' => simp [is, notext, notext']
  | cidr4big is cidr4 ip host notext =>
    cases second with
    | ip _ _ _ cidr4' cidr4big' => simp [is, cidr4', cidr4big'] at netted
    | host _ _ _ cidr4' cidr4big' => simp [is, cidr4', cidr4big'] at netted
    | cidr4 _ _ _ _ _ _ _ _ notext' => simp [is, notext, notext']
    | cidr4big _ _ _ _ notext' => simp [is, notext, notext']

/-- In its own list, the code's test finds the same mask with the wanted bits. -/
theorem exact_iff (first : Kind borig) (second : Kind b) (slot : borig.slot = b.slot) (careflags : Flags) :
    borig.exact b careflags = true ↔ borig.Same b ∧ careflags.agree b.flags borig.flags = true := by
  have hosts := host_same first second slot
  unfold Ban.exact
  rw [Bool.and_eq_true, hosts, Bool.and_eq_true, Bool.and_eq_true, Bool.or_eq_true, beq_iff_eq]
  constructor
  · rintro ⟨⟨⟨wild, agree⟩, user⟩, host, ip, mask⟩
    exact ⟨⟨slot, wild.symm, user, host, ip, mask⟩, agree⟩
  · rintro ⟨same, agree⟩
    exact ⟨⟨⟨same.wilduser.symm, agree⟩, same.user⟩, same.host, same.ip, same.mask⟩

/-- Every ban is of a kind and in its slot, and every entry is another one. -/
structure Store.Proper (store : Store) : Prop where
  filed : store.lists.Filed Ban.slot
  kinds : ∀ ban, store.lists.Holds ban → Kind ban
  below : ∀ ban, store.lists.Holds ban → ban.internalEnt < store.next
  single : ∀ first second, store.lists.Holds first → store.lists.Holds second →
    first.internalEnt = second.internalEnt → first = second
  nodup : ∀ slot, (store.lists slot).Nodup

variable {store : Store}

theorem Store.Proper.empty : Store.empty.Proper where
  filed := Shelf.Filed.empty
  kinds := fun _ held => absurd held Shelf.holds_empty
  below := fun _ held => absurd held Shelf.holds_empty
  single := fun _ _ held => absurd held Shelf.holds_empty
  nodup := fun _ => List.nodup_nil

theorem Store.Proper.add (proper : store.Proper) (kind : Kind ban) (place : ban.slot = some slot) :
    Store.Proper
      { lists := store.lists.put slot { ban with internalEnt := store.next }
        next := store.next + 1 } where
  filed := proper.filed.put place
  kinds := by
    intro other held
    obtain rfl | old := Shelf.holds_put.mp held
    · exact kind.congr rfl rfl rfl rfl rfl rfl rfl
    · exact proper.kinds other old
  below := by
    intro other held
    obtain rfl | old := Shelf.holds_put.mp held
    · exact Nat.lt_succ_self _
    · exact Nat.lt_succ_of_lt (proper.below other old)
  single := by
    intro first second held held' same
    obtain rfl | old := Shelf.holds_put.mp held
    · obtain rfl | old' := Shelf.holds_put.mp held'
      · rfl
      · exact absurd same.symm (Nat.ne_of_lt (proper.below second old'))
    · obtain rfl | old' := Shelf.holds_put.mp held'
      · exact absurd same (Nat.ne_of_lt (proper.below first old))
      · exact proper.single first second old old' same
  nodup := by
    intro other
    simp only [Shelf.put]
    split
    · refine List.nodup_cons.mpr ⟨?_, proper.nodup other⟩
      intro member
      exact absurd (proper.below _ ⟨other, member⟩) (Nat.lt_irrefl _)
    · exact proper.nodup other

theorem Store.Proper.discard (proper : store.Proper) (gone : Ban → Bool) :
    Store.Proper { store with lists := store.lists.discard gone } where
  filed := proper.filed.discard gone
  kinds := fun ban held => proper.kinds ban (Shelf.holds_discard.mp held).1
  below := fun ban held => proper.below ban (Shelf.holds_discard.mp held).1
  single := fun first second held held' =>
    proper.single first second (Shelf.holds_discard.mp held).1 (Shelf.holds_discard.mp held').1
  nodup := fun slot => (proper.nodup slot).filter _

theorem Store.Proper.holds_remove (proper : store.Proper) (held : store.lists.Holds existing) :
    (store.removeUserban existing.internalEnt).lists.Holds ban ↔ store.lists.Holds ban ∧ ban ≠ existing := by
  rw [removeUserban, Shelf.holds_discard, beq_eq_false_iff_ne]
  constructor
  · rintro ⟨there, other⟩
    refine ⟨there, ?_⟩
    rintro rfl
    exact other rfl
  · rintro ⟨there, other⟩
    exact ⟨there, fun same => other (proper.single ban existing there held same)⟩

/-- No two bans of one owner have the same mask. -/
def Store.Unique (own : Ban → Bool) (store : Store) : Prop :=
  ∀ first second, store.lists.Holds first → store.lists.Holds second → own first = true → own second = true →
    first.Same second → first = second

variable {own : Ban → Bool}

theorem Store.Unique.discard (unique : store.Unique own) (gone : Ban → Bool) :
    Store.Unique own { store with lists := store.lists.discard gone } := by
  intro first second held held'
  exact unique first second (Shelf.holds_discard.mp held).1 (Shelf.holds_discard.mp held').1

theorem Store.Unique.add {next : Nat} (unique : store.Unique own)
    (fresh : own ban = true → ∀ other, store.lists.Holds other → own other = true → ¬ ban.Same other) :
    Store.Unique own { lists := store.lists.put slot ban, next := next } := by
  intro first second held held' mine mine' same
  obtain rfl | old := Shelf.holds_put.mp held
  · obtain rfl | old' := Shelf.holds_put.mp held'
    · rfl
    · exact absurd same (fresh mine second old' mine')
  · obtain rfl | old' := Shelf.holds_put.mp held'
    · exact absurd same.symm (fresh mine' first old mine)
    · exact unique first second old old' mine mine' same

/-- What is found is there, with the same mask and the wanted bits. -/
theorem Store.Proper.find_some (proper : store.Proper) (kind : Kind borig)
    (found : store.findUserbanExact borig careflags = some existing) :
    store.lists.Holds existing ∧ borig.Same existing ∧ careflags.agree existing.flags borig.flags = true := by
  obtain ⟨slot, place, here⟩ := Option.bind_eq_some_iff.mp found
  have member := List.mem_of_find?_eq_some here
  have held : store.lists.Holds existing := ⟨slot, member⟩
  have together := place.trans (proper.filed slot existing member).symm
  have passes : borig.exact existing careflags = true := List.find?_some (p := fun b => borig.exact b careflags) here
  exact ⟨held, (exact_iff kind (proper.kinds existing held) together careflags).mp passes⟩

/-- What is not found is not there. -/
theorem Store.Proper.find_none (proper : store.Proper) (kind : Kind borig)
    (missing : store.findUserbanExact borig careflags = none) (held : store.lists.Holds ban)
    (agree : careflags.agree ban.flags borig.flags = true) : ¬ borig.Same ban := by
  intro same
  obtain ⟨slot, member⟩ := held
  have place := proper.filed slot ban member
  have found := (exact_iff kind (proper.kinds ban ⟨slot, member⟩) same.slot careflags).mpr ⟨same, agree⟩
  rw [findUserbanExact, same.slot, place, Option.bind_some, List.find?_eq_none] at missing
  exact missing ban member found

end SolidIrcd.UserBan
