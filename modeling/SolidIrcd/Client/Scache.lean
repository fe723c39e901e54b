import Mathlib
import SolidIrcd.Common
import SolidIrcd.Lib.Shelf

/-! The names of servers that are kept once and for all: which string `find_or_add` returns, and when the table holds
no name twice. -/

namespace SolidIrcd.Scache

open Scan (Text)

/-- SCACHE_HASH_SIZE. -/
def hashSize : Nat := 257

/-- `scache_entry`; entries are never freed, so the pointer is their number. -/
structure Entry where
  ptr : Nat
  name : Text
  deriving DecidableEq, Repr

structure Table where
  scacheHash : Shelf Nat Entry
  entries : Nat

def Table.start : Table := ⟨Shelf.empty, 0⟩

/-- The fold of one character. -/
def fold (c : Char) : Nat := c.toNat &&& 0xDF

def hash (string : Text) : Nat := (string.map fold).sum % hashSize

/-- `strncpyzt(newptr->name, name, HOSTLEN)`. -/
def stored (name : Text) : Text := name.take (hostLen - 1)

/-- `find_or_add`. -/
def Table.findOrAdd (table : Table) (name : Text) : Entry × Table :=
  match (table.scacheHash (hash name)).find? fun ptr => mycmp ptr.name name with
  | some ptr => (ptr, table)
  | none =>
    let newptr : Entry := ⟨table.entries, stored name⟩
    (newptr, ⟨table.scacheHash.put (hash name) newptr, table.entries + 1⟩)

/-- Calls of `find_or_add`, each with what it returns. -/
def Table.calls (table : Table) : List Text → List (Text × Entry) × Table
  | [] => ([], table)
  | name :: names =>
    let (ptr, table) := table.findOrAdd name
    let (later, table) := table.calls names
    ((name, ptr) :: later, table)

/-- What the calls of a table that was empty should come to. -/
structure Canonical (names : List Text) : Prop where
  /-- What is returned is the name that was asked for. -/
  asked : ∀ call ∈ (Table.start.calls names).1, mycmp call.2.name call.1 = true
  /-- The same name is the same string. -/
  same : ∀ first ∈ (Table.start.calls names).1, ∀ second ∈ (Table.start.calls names).1,
    mycmp first.1 second.1 = true → first.2 = second.2
  /-- No two entries have one name. -/
  apart : ∀ slot slot' first second, first ∈ (Table.start.calls names).2.scacheHash slot →
    second ∈ (Table.start.calls names).2.scacheHash slot' → mycmp first.name second.name = true →
      slot = slot' ∧ first = second
  once : ∀ slot, ((Table.start.calls names).2.scacheHash slot).Nodup
  /-- A name that is known adds nothing. -/
  known : ∀ name ∈ names, ∀ again, mycmp again name = true →
    ((Table.start.calls names).2.findOrAdd again).2 = (Table.start.calls names).2

/-- Each entry is in its slot, under a name of its own that fits. -/
structure Table.Sound (table : Table) : Prop where
  filed : table.scacheHash.Filed fun ptr => some (hash ptr.name)
  apart : ∀ slot, (table.scacheHash slot).Pairwise fun first second => mycmp first.name second.name = false

section

variable {table : Table} {name other : Text} {names : List Text} {ptr : Entry}

theorem fold_toUpper (c : Char) : fold (toUpper c) = fold c := by
  have small : ∀ n < 26, (97 + n - 32) &&& 0xDF = (97 + n) &&& 0xDF := by decide
  unfold fold
  rw [toNat_toUpper]
  split
  next letter =>
    obtain ⟨n, is⟩ : ∃ n, c.toNat = 97 + n := ⟨c.toNat - 97, by omega⟩
    rw [is]
    exact small n (by omega)
  next => rfl

/-- The fold does not tell apart what `mycmp` does not. -/
theorem hash_congr (same : mycmp name other = true) : hash name = hash other := by
  have folded (string : Text) : string.map fold = (string.map toUpper).map fold := by
    rw [List.map_map]
    exact List.map_congr_left fun c _ => (fold_toUpper c).symm
  rw [hash, hash, folded name, folded other, mycmp_iff.mp same]

theorem stored_short (short : name.length < hostLen) : stored name = name :=
  List.take_of_length_le (Nat.le_sub_one_of_lt short)

/-! One call -/

theorem findOrAdd_cases (table : Table) (name : Text) :
    (∃ ptr, table.findOrAdd name = (ptr, table) ∧ ptr ∈ table.scacheHash (hash name) ∧ mycmp ptr.name name = true) ∨
    (∀ ptr ∈ table.scacheHash (hash name), mycmp ptr.name name = false) ∧
      table.findOrAdd name = (⟨table.entries, stored name⟩,
        ⟨table.scacheHash.put (hash name) ⟨table.entries, stored name⟩, table.entries + 1⟩) := by
  unfold Table.findOrAdd
  cases found : (table.scacheHash (hash name)).find? fun ptr => mycmp ptr.name name with
  | some ptr => exact .inl ⟨ptr, rfl, List.mem_of_find?_eq_some found, by simpa using List.find?_some found⟩
  | none =>
    refine .inr ⟨fun ptr member => ?_, rfl⟩
    simpa using List.find?_eq_none.mp found ptr member

/-- What is returned is in the table. -/
theorem findOrAdd_holds (table : Table) (name : Text) :
    (table.findOrAdd name).2.scacheHash.Holds (table.findOrAdd name).1 := by
  rcases findOrAdd_cases table name with ⟨ptr, is, member, -⟩ | ⟨-, is⟩
  · rw [is]
    exact ⟨_, member⟩
  · rw [is]
    exact Shelf.holds_put.mpr (.inl rfl)

theorem findOrAdd_keeps (name : Text) (held : table.scacheHash.Holds ptr) :
    (table.findOrAdd name).2.scacheHash.Holds ptr := by
  rcases findOrAdd_cases table name with ⟨found, is, -⟩ | ⟨-, is⟩
  · rwa [is]
  · rw [is]
    exact Shelf.holds_put.mpr (.inr held)

theorem findOrAdd_asked (short : name.length < hostLen) : mycmp (table.findOrAdd name).1.name name = true := by
  rcases findOrAdd_cases table name with ⟨ptr, is, -, same⟩ | ⟨-, is⟩
  · rwa [is]
  · rw [is]
    change mycmp (stored name) name = true
    rw [stored_short short]
    exact mycmp_refl name

namespace Table.Sound

theorem start : Table.start.Sound := ⟨Shelf.Filed.empty, fun _ => List.Pairwise.nil⟩

theorem findOrAdd (sound : table.Sound) (short : name.length < hostLen) : (table.findOrAdd name).2.Sound := by
  rcases findOrAdd_cases table name with ⟨ptr, is, -⟩ | ⟨new, is⟩
  · rwa [is]
  · rw [is]
    have same : stored name = name := stored_short short
    refine ⟨sound.filed.put (by rw [same]), fun slot => ?_⟩
    change (if slot = hash name then _ else _ : List Entry).Pairwise _
    split
    next here =>
      subst here
      refine List.pairwise_cons.mpr ⟨fun ptr member => ?_, sound.apart _⟩
      rw [same, mycmp_comm]
      exact new ptr member
    next => exact sound.apart slot

/-- One name, one entry. -/
theorem unique (sound : table.Sound) {slot slot' : Nat} {first second : Entry} (one : first ∈ table.scacheHash slot)
    (other : second ∈ table.scacheHash slot') (same : mycmp first.name second.name = true) :
      slot = slot' ∧ first = second := by
  obtain rfl : hash first.name = slot := Option.some.inj (sound.filed slot first one)
  obtain rfl : hash second.name = slot' := Option.some.inj (sound.filed slot' second other)
  have here := hash_congr same
  refine ⟨here, ?_⟩
  rw [← here] at other
  by_contra different
  have symmetric : Std.Symm fun first second : Entry => mycmp first.name second.name = false :=
    ⟨fun _ _ apart => by rwa [mycmp_comm]⟩
  have apart := (sound.apart _).forall one other different
  rw [same] at apart
  cases apart

theorem nodup (sound : table.Sound) (slot : Nat) : (table.scacheHash slot).Nodup := by
  refine (sound.apart slot).imp ?_
  rintro first second apart rfl
  rw [mycmp_refl] at apart
  cases apart

/-- A name under which there is an entry is found. -/
theorem known (sound : table.Sound) (held : table.scacheHash.Holds ptr) (same : mycmp ptr.name name = true) :
    (table.findOrAdd name).2 = table := by
  obtain ⟨slot, member⟩ := held
  obtain rfl : hash ptr.name = slot := Option.some.inj (sound.filed slot ptr member)
  rw [hash_congr same] at member
  rcases findOrAdd_cases table name with ⟨found, is, -⟩ | ⟨new, -⟩
  · rw [is]
  · rw [new ptr member] at same
    cases same

end Table.Sound

/-! Many calls -/

theorem calls_spec (sound : table.Sound) (short : ∀ name ∈ names, name.length < hostLen) :
    (table.calls names).2.Sound ∧ (∀ ptr, table.scacheHash.Holds ptr → (table.calls names).2.scacheHash.Holds ptr) ∧
      ∀ call ∈ (table.calls names).1, mycmp call.2.name call.1 = true ∧ (table.calls names).2.scacheHash.Holds call.2 := by
  induction names generalizing table with
  | nil => exact ⟨sound, fun _ held => held, fun _ member => absurd member List.not_mem_nil⟩
  | cons name names ih =>
    obtain ⟨here, later⟩ := List.forall_mem_cons.mp short
    obtain ⟨after, kept, asked⟩ := ih (sound.findOrAdd here) later
    refine ⟨after, fun ptr held => kept ptr (findOrAdd_keeps name held), fun call member => ?_⟩
    rcases List.mem_cons.mp member with rfl | behind
    · exact ⟨findOrAdd_asked here, kept _ (findOrAdd_holds table name)⟩
    · exact asked call behind

theorem calls_names (table : Table) (names : List Text) : (table.calls names).1.map Prod.fst = names := by
  induction names generalizing table with
  | nil => rfl
  | cons name names ih => exact congrArg (name :: ·) (ih (table.findOrAdd name).2)

/-- No stored name has HOSTLEN bytes. -/
theorem calls_cut (cut : ∀ ptr, table.scacheHash.Holds ptr → ptr.name.length < hostLen) (names : List Text) :
    ∀ call ∈ (table.calls names).1, call.2.name.length < hostLen := by
  induction names generalizing table with
  | nil => exact fun _ member => absurd member List.not_mem_nil
  | cons name names ih =>
    have after : ∀ ptr, (table.findOrAdd name).2.scacheHash.Holds ptr → ptr.name.length < hostLen := by
      intro ptr held
      rcases findOrAdd_cases table name with ⟨found, is, -⟩ | ⟨-, is⟩
      · rw [is] at held
        exact cut ptr held
      · rw [is] at held
        rcases Shelf.holds_put.mp held with rfl | before
        · exact Nat.lt_of_le_of_lt (List.length_take_le _ _) (by decide)
        · exact cut ptr before
    refine List.forall_mem_cons.mpr ⟨after _ (findOrAdd_holds table name), ih after⟩

/-- With shorter names the calls come to what they should. -/
theorem canonical_of_short (short : ∀ name ∈ names, name.length < hostLen) : Canonical names := by
  obtain ⟨sound, -, asked⟩ := calls_spec Table.Sound.start short
  constructor
  · exact fun call member => (asked call member).1
  · intro first one second other same
    obtain ⟨askedFirst, slot, heldFirst⟩ := asked first one
    obtain ⟨askedSecond, slot', heldSecond⟩ := asked second other
    rw [mycmp_comm] at askedSecond
    exact (sound.unique heldFirst heldSecond (mycmp_trans (mycmp_trans askedFirst same) askedSecond)).2
  · exact fun slot slot' first second one other same => sound.unique one other same
  · exact sound.nodup
  · intro name member again same
    obtain ⟨call, here, is⟩ := List.mem_map.mp ((calls_names Table.start names).symm ▸ member)
    obtain ⟨askedCall, held⟩ := asked call here
    rw [is] at askedCall
    rw [mycmp_comm] at same
    exact sound.known held (mycmp_trans askedCall same)

theorem Canonical.short (canonical : Canonical names) (member : name ∈ names) : name.length < hostLen := by
  obtain ⟨call, here, is⟩ := List.mem_map.mp ((calls_names Table.start names).symm ▸ member)
  have cut := calls_cut (fun _ held => absurd held Shelf.holds_empty) names call here
  rwa [length_of_mycmp (canonical.asked call here), is] at cut

/-- The table is right through all calls just where every name has fewer than HOSTLEN bytes. -/
theorem canonical_iff (names : List Text) :
    (∀ front, front <+: names → Canonical front) ↔ ∀ name ∈ names, name.length < hostLen := by
  constructor
  · exact fun canonical name member => (canonical names List.prefix_rfl).short member
  · exact fun short front part => canonical_of_short fun name member => short name (part.subset member)

/-- A name of HOSTLEN bytes comes back without its last one. -/
theorem longest_cut :
    ¬ ∀ names : List Text, (∀ name ∈ names, name.length ≤ hostLen) → ∀ front, front <+: names → Canonical front := by
  intro always
  have fits : ∀ name ∈ [List.replicate hostLen 'a'], name.length ≤ hostLen := by decide
  have short := (always _ fits _ List.prefix_rfl).short (List.mem_singleton.mpr rfl)
  rw [List.length_replicate] at short
  exact Nat.lt_irrefl _ short

end

end SolidIrcd.Scache
