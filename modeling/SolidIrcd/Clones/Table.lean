import SolidIrcd.Channel.Mask
import SolidIrcd.UserBan.Print

/-! The table of `clones.c`: how many users come from an address and from its /24, and the
limits that are set for these. -/

namespace SolidIrcd.Clones

open Function (update)
open Mask (splitLast)
open Scan (Text)
open UserBan (Address inetntoa octet)

/-- `CloneEnt`, without the chain of the clients. -/
structure CloneEnt where
  lcount : Int
  gcount : Int
  limit : Int
  sllimit : Int
  sglimit : Int
  deriving DecidableEq, Repr

abbrev Table := Text → Option CloneEnt

/-- A new entry. -/
def CloneEnt.zero : CloneEnt := ⟨0, 0, 0, 0, 0⟩

/-- What keeps `expire_clone` from freeing the entry. -/
def CloneEnt.needed (ce : CloneEnt) : Bool := ce.gcount ≠ 0 || ce.limit ≠ 0 || ce.sllimit ≠ 0 || ce.sglimit ≠ 0

/-- `expire_clone`. -/
def CloneEnt.expire (ce : CloneEnt) : Option CloneEnt := if ce.needed then some ce else none

/-- `get_clone` with `create`. -/
def Table.create (table : Table) (key : Text) : CloneEnt := (table key).getD .zero

/-- The /24 of an address as `get_clones` writes it; without a dot the source crashes. -/
def ip24 (hostip : Text) : Text :=
  match splitLast '.' hostip with
  | some (front, _) => front ++ ['.', '*']
  | none => hostip

/-- The limits a class has, and those of the configuration. -/
structure Limits where
  connfreq : Int
  ip24clones : Int
  localIp : Int
  localIp24 : Int
  globalIp : Int
  globalIp24 : Int
  deriving Repr

/-- `clones_check`: 1 for a full address, 2 for a full /24, and 0 otherwise. -/
def Table.clonesCheck (table : Table) (limits : Limits) (hostip : Text) : Nat :=
  let (lpri, gpri, full) : Nat × Nat × Bool :=
    match table hostip with
    | none => (0, 0, false)
    | some ce =>
      let (lpri, limit) :=
        if ce.sllimit ≠ 0 then (3, ce.sllimit)
        else if limits.connfreq ≠ 0 then (2, limits.connfreq)
        else (1, limits.localIp)
      let (gpri, global) :=
        if ce.sglimit ≠ 0 then (3, ce.sglimit)
        else if ce.limit ≠ 0 then (2, ce.limit)
        else (1, limits.globalIp)
      (lpri, gpri, decide (ce.lcount ≥ limit) || decide (ce.gcount ≥ global))
  if full then 1
  else
    match table (ip24 hostip) with
    | none => 0
    | some ce =>
      let localFull :=
        if ce.sllimit ≠ 0 then decide (ce.lcount ≥ ce.sllimit)
        else if lpri ≤ 2 ∧ limits.ip24clones ≠ 0 then decide (ce.lcount ≥ limits.ip24clones)
        else decide (lpri ≤ 1) && decide (ce.lcount ≥ limits.localIp24)
      let globalFull :=
        if ce.sglimit ≠ 0 then decide (ce.gcount ≥ ce.sglimit)
        else if ce.limit ≠ 0 then decide (ce.gcount ≥ ce.limit)
        else decide (gpri ≤ 1) && decide (ce.gcount ≥ limits.globalIp24)
      if localFull || globalFull then 2 else 0

/-- `clones_add` for one of the two entries. -/
def Table.addOne (table : Table) (myConnect : Bool) (key : Text) : Table :=
  let ce := table.create key
  update table key
    (some { ce with gcount := ce.gcount + 1, lcount := if myConnect then ce.lcount + 1 else ce.lcount })

/-- `clones_remove` for one of the two entries, which the source takes to be there. -/
def Table.removeOne (table : Table) (uplinkMe : Bool) (key : Text) : Table :=
  match table key with
  | none => table
  | some ce =>
    update table key
      (CloneEnt.expire { ce with gcount := ce.gcount - 1, lcount := if uplinkMe then ce.lcount - 1 else ce.lcount })

/-- `CLIM_HARD_GLOBAL`, `CLIM_SOFT_LOCAL` and `CLIM_SOFT_GLOBAL`. -/
inductive LimitType where
  | hardGlobal | softLocal | softGlobal
  deriving DecidableEq, Repr

def CloneEnt.setLimit (ce : CloneEnt) (limit : Int) : LimitType → CloneEnt
  | .hardGlobal =>
    let ce := { ce with limit := limit }
    if limit ≠ 0 ∧ ce.sglimit > limit then { ce with sglimit := 0 } else ce
  | .softGlobal => { ce with sglimit := limit }
  | .softLocal => { ce with sllimit := limit }

/-- `clones_set`. -/
def Table.clonesSet (table : Table) (ent : Text) (type : LimitType) (limit : Int) : Table :=
  if ent.length > hostIpLen ∨ limit < 0 then table
  else update table ent (((table.create ent).setLimit limit type).expire)

/-- An entry counts this many users, and is there when it has to be. -/
def Tallied : Option CloneEnt → Int → Int → Prop
  | none, global, locals => global = 0 ∧ locals = 0
  | some ce, global, locals => ce.gcount = global ∧ ce.lcount = locals ∧ ce.needed = true

variable {table : Table} {ce : CloneEnt}

theorem Tallied.create (tallied : Tallied (table key) global locals) :
    (table.create key).gcount = global ∧ (table.create key).lcount = locals := by
  unfold Table.create
  cases entry : table key with
  | none =>
    rw [entry] at tallied
    exact ⟨tallied.1.symm, tallied.2.symm⟩
  | some ce =>
    rw [entry] at tallied
    exact ⟨tallied.1, tallied.2.1⟩

/-- An entry nobody needs has no users. -/
theorem Tallied.expire (counted : ce.gcount = global ∧ ce.lcount = locals) (fewer : global = 0 → locals = 0) :
    Tallied ce.expire global locals := by
  unfold CloneEnt.expire
  split
  next needed => exact ⟨counted.1, counted.2, needed⟩
  next free =>
    simp only [CloneEnt.needed, Bool.or_eq_true, not_or, decide_eq_true_eq, ne_eq, not_not] at free
    have none : global = 0 := counted.1.symm.trans free.1.1.1
    exact ⟨none, fewer none⟩

theorem Tallied.addOne (tallied : Tallied (table key) global locals) (positive : 0 ≤ global) (myConnect : Bool) :
    Tallied (table.addOne myConnect key key) (global + 1) (if myConnect then locals + 1 else locals) := by
  obtain ⟨gcount, lcount⟩ := tallied.create
  simp only [Table.addOne, Function.update_self, Tallied, gcount, lcount, true_and]
  simp only [CloneEnt.needed, Bool.or_eq_true, decide_eq_true_eq]
  left; left; left
  omega

theorem Tallied.removeOne (tallied : Tallied (table key) global locals) (uplinkMe : Bool) (some' : global ≠ 0)
    (fewer : global - 1 = 0 → (if uplinkMe then locals - 1 else locals) = 0) :
    Tallied (table.removeOne uplinkMe key key) (global - 1) (if uplinkMe then locals - 1 else locals) := by
  unfold Table.removeOne
  cases entry : table key with
  | none =>
    rw [entry] at tallied
    exact absurd tallied.1 some'
  | some ce =>
    rw [entry] at tallied
    obtain ⟨gcount, lcount, -⟩ := tallied
    simp only [Function.update_self]
    exact Tallied.expire ⟨by rw [gcount], by simp only [lcount]⟩ fewer

theorem addOne_of_ne (table : Table) (myConnect : Bool) (other : key' ≠ key) :
    table.addOne myConnect key key' = table key' := Function.update_of_ne other ..

theorem removeOne_of_ne (table : Table) (uplinkMe : Bool) (other : key' ≠ key) :
    table.removeOne uplinkMe key key' = table key' := by
  unfold Table.removeOne
  cases table key with
  | none => rfl
  | some ce => exact Function.update_of_ne other ..

/-- New limits leave the counts alone. -/
theorem Tallied.clonesSet (tallied : Tallied (table key) global locals) (fewer : global = 0 → locals = 0) (ent : Text)
    (type : LimitType) (limit : Int) : Tallied (table.clonesSet ent type limit key) global locals := by
  unfold Table.clonesSet
  split
  next => exact tallied
  next =>
    by_cases same : key = ent
    · subst same
      rw [Function.update_self]
      have counted : ((table.create key).setLimit limit type).gcount = (table.create key).gcount ∧
          ((table.create key).setLimit limit type).lcount = (table.create key).lcount := by
        cases type with
        | hardGlobal =>
          simp only [CloneEnt.setLimit]
          split <;> exact ⟨rfl, rfl⟩
        | softLocal => exact ⟨rfl, rfl⟩
        | softGlobal => exact ⟨rfl, rfl⟩
      obtain ⟨gcount, lcount⟩ := tallied.create
      exact Tallied.expire ⟨counted.1.trans gcount, counted.2.trans lcount⟩ fewer
    · rw [Function.update_of_ne same]
      exact tallied

/-- The text of an address stands for it alone. -/
theorem inetntoa_inj (same : inetntoa first = inetntoa second) : first = second := by
  rw [← UserBan.inetAddr_inetntoa first, same, UserBan.inetAddr_inetntoa]

theorem star_not_mem_inetntoa (ip : Address) : '*' ∉ inetntoa ip := by
  intro member
  rcases UserBan.mem_inetntoa member with dot | digit
  · cases dot
  · cases digit

/-- The first three octets. -/
private def front (ip : Address) : Text :=
  Decimal.print (octet ip 0) ++ '.' :: Decimal.print (octet ip 1) ++ '.' :: Decimal.print (octet ip 2)

private theorem inetntoa_eq (ip : Address) : inetntoa ip = front ip ++ '.' :: Decimal.print (octet ip 3) := rfl

private theorem dot_not_mem_print (value : Nat) : '.' ∉ Decimal.print value := by
  intro member
  rcases Decimal.mem_print member with dash | digit
  · cases dash
  · cases digit

private theorem ip24_eq (ip : Address) : ip24 (inetntoa ip) = front ip ++ ['.', '*'] := by
  rw [ip24, inetntoa_eq, Mask.splitLast_join (dot_not_mem_print _)]

theorem ip24_ne_inetntoa (first second : Address) : ip24 (inetntoa first) ≠ inetntoa second := by
  intro same
  apply star_not_mem_inetntoa second
  rw [← same, ip24_eq]
  simp

private theorem octet_of_net (same : first.toNat / 256 = second.toNat / 256) (early : index < 3) :
    octet first index = octet second index := by
  obtain rfl | rfl | rfl : index = 0 ∨ index = 1 ∨ index = 2 := by omega
  all_goals
    simp only [octet, Nat.sub_zero, Nat.reduceSub, Nat.reduceMul, Nat.shiftRight_eq_div_pow, Nat.reducePow]
    omega

/-- The text of a /24 stands for the addresses that are in it. -/
theorem ip24_eq_iff : ip24 (inetntoa first) = ip24 (inetntoa second) ↔ first.toNat / 256 = second.toNat / 256 := by
  rw [ip24_eq, ip24_eq]
  constructor
  · intro same
    have fronts : front first = front second := List.append_cancel_right same
    -- The second address with the last octet of the first one is the first one.
    have bound := second.isLt
    let mixed : Address := BitVec.ofNat 32 (second.toNat / 256 * 256 + first.toNat % 256)
    have value : mixed.toNat = second.toNat / 256 * 256 + first.toNat % 256 := by
      simp only [mixed, BitVec.toNat_ofNat]
      apply Nat.mod_eq_of_lt
      omega
    have net : mixed.toNat / 256 = second.toNat / 256 := by omega
    have last : octet mixed 3 = octet first 3 := by
      simp only [octet, Nat.sub_self, Nat.mul_zero, Nat.shiftRight_zero]
      omega
    have texts : inetntoa mixed = inetntoa first := by
      rw [inetntoa_eq, inetntoa_eq, last, fronts]
      simp only [front, octet_of_net net (by decide : 0 < 3), octet_of_net net (by decide : 1 < 3),
        octet_of_net net (by decide : 2 < 3)]
    rw [← net, inetntoa_inj texts]
  · intro net
    simp only [front, octet_of_net net (by decide : 0 < 3), octet_of_net net (by decide : 1 < 3),
      octet_of_net net (by decide : 2 < 3)]

end SolidIrcd.Clones
