import SolidIrcd.Hash
import SolidIrcd.Lib.Shelf
import Mathlib.Data.List.Nodup

/-! The hash tables of `throttle.c`. They hold pointers, and read the key of an entry where the pointer leads. -/

namespace SolidIrcd.Throttling

open Scan (Text)

/-- A pointer to an entry. -/
abbrev Addr := Nat

/-- `struct hash_table_t` with HASH_FL_STRING; `nocase` is HASH_FL_NOCASE, and `cmpfunc` tells which keys are the same. -/
structure HashTable where
  size : Nat
  table : Shelf Nat Addr
  keylen : Nat
  nocase : Bool
  cmpfunc : Text → Text → Bool

/-- `create_hash_table`. -/
def createHashTable (elems keylen : Nat) (nocase : Bool) (cmpfunc : Text → Text → Bool) : HashTable :=
  ⟨elems, Shelf.empty, keylen, nocase, cmpfunc⟩

/-- What one character adds; `ToLower` gives an `unsigned char`. -/
def HashTable.charHash (htp : HashTable) (c : Char) : Int :=
    if htp.nocase then ((toLower c).toNat % 256 : Nat) else charValue c

/-- The value that `hash_get_key_hash` divides by the size. -/
def HashTable.keyHash (htp : HashTable) (rkey : Text) : Nat :=
  ((if htp.keylen = 0 then rkey else rkey.take htp.keylen).foldl
    (fun hash c => (hash * 33 + htp.charHash c) % 4294967296) 0).toNat

/-- `hash_get_key_hash`. -/
def HashTable.hashGetKeyHash (htp : HashTable) (rkey : Text) : Nat := htp.keyHash rkey % htp.size

/-- `hash_insert`; `key` is the key an entry has in memory. -/
def HashTable.hashInsert (key : Addr → Text) (htp : HashTable) (ent : Addr) : HashTable :=
  { htp with table := htp.table.put (htp.hashGetKeyHash (key ent)) ent }

/-- `hash_delete`. -/
def HashTable.hashDelete (key : Addr → Text) (htp : HashTable) (ent : Addr) : HashTable :=
  { htp with table := htp.table.remove (htp.hashGetKeyHash (key ent)) ent }

/-- `hash_find`. -/
def HashTable.hashFind (key : Addr → Text) (htp : HashTable) (rkey : Text) : Option Addr :=
  (htp.table (htp.hashGetKeyHash rkey)).find? fun ent => htp.cmpfunc (key ent) rkey

/-- The entries as `resize_hash_table` walks the old table. -/
def HashTable.entries (htp : HashTable) : List Addr := (List.range htp.size).flatMap htp.table

/-- `resize_hash_table`. -/
def HashTable.resizeHashTable (key : Addr → Text) (htp : HashTable) (elems : Nat) : HashTable :=
  htp.entries.foldl (HashTable.hashInsert key) { htp with size := elems, table := Shelf.empty }

/-- The comparison is an equivalence, and the hash does not tell equal keys apart. -/
structure HashTable.Lawful (htp : HashTable) : Prop where
  symm : ∀ first second, htp.cmpfunc first second = true → htp.cmpfunc second first = true
  trans : ∀ first second third, htp.cmpfunc first second = true → htp.cmpfunc second third = true →
    htp.cmpfunc first third = true
  hash : ∀ first second, htp.cmpfunc first second = true → htp.keyHash first = htp.keyHash second

/-- Every entry is in its bucket, once, and no other has its key. -/
structure HashTable.Sound (key : Addr → Text) (htp : HashTable) : Prop extends htp.Lawful where
  positive : 0 < htp.size
  filed : Shelf.Filed (fun ent => some (htp.hashGetKeyHash (key ent))) htp.table
  once : ∀ slot, (htp.table slot).Nodup
  single : ∀ first second, htp.table.Holds first → htp.table.Holds second → htp.cmpfunc (key first) (key second) = true →
    first = second

variable {key : Addr → Text} {htp : HashTable}

theorem HashTable.hashGetKeyHash_lt (positive : 0 < htp.size) (rkey : Text) : htp.hashGetKeyHash rkey < htp.size :=
  Nat.mod_lt _ positive

/-- Both tables of the server compare with `strcmp`. -/
theorem HashTable.sound_create (positive : 0 < elems) (keylen : Nat) (nocase : Bool) :
    (createHashTable elems keylen nocase (· == ·)).Sound key where
  symm first second same := by
    simp only [createHashTable, beq_iff_eq] at same ⊢
    exact same.symm
  trans first second third left right := by
    simp only [createHashTable, beq_iff_eq] at left right ⊢
    exact left.trans right
  hash first second same := by
    simp only [createHashTable, beq_iff_eq] at same
    rw [same]
  positive := positive
  filed := Shelf.Filed.empty
  once slot := List.nodup_nil
  single first second holds := absurd holds Shelf.holds_empty

/-- An entry is held in the bucket of its key. -/
theorem HashTable.Sound.mem_bucket (sound : htp.Sound key) (holds : htp.table.Holds ent) :
    ent ∈ htp.table (htp.hashGetKeyHash (key ent)) := by
  obtain ⟨slot, member⟩ := holds
  rwa [Option.some.inj (sound.filed slot ent member)]

/-- Only the keys of the entries matter. -/
theorem HashTable.Sound.congr (sound : htp.Sound key) (same : ∀ ent, htp.table.Holds ent → key' ent = key ent) :
    htp.Sound key' where
  toLawful := sound.toLawful
  positive := sound.positive
  filed := by
    intro slot ent member
    simp only
    rw [same ent ⟨slot, member⟩]
    exact sound.filed slot ent member
  once := sound.once
  single first second left right equal := by
    rw [same first left, same second right] at equal
    exact sound.single first second left right equal

/-- `hash_find` finds the entry with the key, if there is one. -/
theorem HashTable.Sound.hashFind_iff (sound : htp.Sound key) :
    htp.hashFind key rkey = some ent ↔ htp.table.Holds ent ∧ htp.cmpfunc (key ent) rkey = true := by
  constructor
  · intro found
    unfold hashFind at found
    exact ⟨⟨_, List.mem_of_find?_eq_some found⟩, by simpa using List.find?_some found⟩
  · intro ⟨holds, same⟩
    have bucket := sound.mem_bucket holds
    rw [hashGetKeyHash, sound.hash _ _ same, ← hashGetKeyHash] at bucket
    cases found : htp.hashFind key rkey with
    | none => exact absurd same (List.find?_eq_none.mp found ent bucket)
    | some other =>
      unfold hashFind at found
      have passes : htp.cmpfunc (key other) rkey = true := by simpa using List.find?_some found
      have equal := sound.trans _ _ _ passes (sound.symm _ _ same)
      rw [sound.single other ent ⟨_, List.mem_of_find?_eq_some found⟩ holds equal]

theorem HashTable.Sound.hashFind_none (sound : htp.Sound key) :
    htp.hashFind key rkey = none ↔ ∀ ent, htp.table.Holds ent → htp.cmpfunc (key ent) rkey = false := by
  rw [Option.eq_none_iff_forall_ne_some]
  refine forall_congr' fun ent => ?_
  rw [ne_eq, sound.hashFind_iff, not_and, Bool.not_eq_true]

theorem HashTable.holds_hashInsert : (htp.hashInsert key ent).table.Holds other ↔ other = ent ∨ htp.table.Holds other :=
  Shelf.holds_put

theorem HashTable.Sound.hashInsert (sound : htp.Sound key) (fresh : ¬ htp.table.Holds ent)
    (missing : htp.hashFind key (key ent) = none) : (htp.hashInsert key ent).Sound key where
  toLawful := ⟨sound.symm, sound.trans, sound.hash⟩
  positive := sound.positive
  filed := sound.filed.put rfl
  once slot := by
    simp only [HashTable.hashInsert, Shelf.put]
    split
    · exact List.nodup_cons.mpr ⟨fun member => fresh ⟨slot, member⟩, sound.once slot⟩
    · exact sound.once slot
  single first second left right same := by
    have absent := sound.hashFind_none.mp missing
    obtain rfl | before := HashTable.holds_hashInsert.mp left
    · obtain rfl | other := HashTable.holds_hashInsert.mp right
      · rfl
      · exact absurd (sound.symm _ _ same) (Bool.eq_false_iff.mp (absent second other))
    · obtain rfl | other := HashTable.holds_hashInsert.mp right
      · exact absurd same (Bool.eq_false_iff.mp (absent first before))
      · exact sound.single first second before other same

theorem HashTable.Sound.holds_hashDelete (sound : htp.Sound key) :
    (htp.hashDelete key ent).table.Holds other ↔ htp.table.Holds other ∧ other ≠ ent :=
  Shelf.holds_remove sound.filed rfl (sound.once _)

theorem HashTable.Sound.hashDelete (sound : htp.Sound key) (ent : Addr) : (htp.hashDelete key ent).Sound key where
  toLawful := ⟨sound.symm, sound.trans, sound.hash⟩
  positive := sound.positive
  filed := sound.filed.remove _ ent
  once slot := by
    simp only [HashTable.hashDelete, Shelf.remove]
    split
    · exact (sound.once slot).erase ent
    · exact sound.once slot
  single first second left right same :=
    sound.single first second (sound.holds_hashDelete.mp left).1 (sound.holds_hashDelete.mp right).1 same

theorem HashTable.Sound.mem_entries (sound : htp.Sound key) : ent ∈ htp.entries ↔ htp.table.Holds ent := by
  rw [entries, List.mem_flatMap]
  constructor
  · intro ⟨slot, _, member⟩
    exact ⟨slot, member⟩
  · intro holds
    exact ⟨_, List.mem_range.mpr (hashGetKeyHash_lt sound.positive _), sound.mem_bucket holds⟩

theorem HashTable.Sound.nodup_entries (sound : htp.Sound key) : htp.entries.Nodup := by
  refine List.nodup_flatMap.mpr ⟨fun slot _ => sound.once slot, List.nodup_range.imp ?_⟩
  intro first second differ ent left right
  have here := (sound.filed first ent left).symm.trans (sound.filed second ent right)
  exact differ (Option.some.inj here)

theorem foldl_hashInsert (key : Addr → Text) (htp : HashTable) (items : List Addr) :
    items.foldl (HashTable.hashInsert key) htp =
      { htp with table := Shelf.refile (fun ent => htp.hashGetKeyHash (key ent)) htp.table items } := by
  induction items generalizing htp with
  | nil => rfl
  | cons item items ih =>
    rw [List.foldl_cons, ih]
    rfl

theorem HashTable.resize_bucket (key : Addr → Text) (htp : HashTable) (elems slot : Nat) :
    (htp.resizeHashTable key elems).table slot =
      (htp.entries.filter fun ent => htp.keyHash (key ent) % elems = slot).reverse := by
  rw [resizeHashTable, foldl_hashInsert]
  simp only [Shelf.refile_apply, Shelf.empty, List.append_nil]
  rfl

theorem HashTable.Sound.holds_resize (sound : htp.Sound key) :
    (htp.resizeHashTable key elems).table.Holds ent ↔ htp.table.Holds ent := by
  rw [← sound.mem_entries]
  constructor
  · intro ⟨slot, member⟩
    rw [HashTable.resize_bucket, List.mem_reverse] at member
    exact (List.mem_filter.mp member).1
  · intro member
    refine ⟨htp.keyHash (key ent) % elems, ?_⟩
    rw [HashTable.resize_bucket, List.mem_reverse]
    exact List.mem_filter.mpr ⟨member, by simp⟩

theorem HashTable.resize_fields (key : Addr → Text) (htp : HashTable) (elems : Nat) :
    (htp.resizeHashTable key elems).cmpfunc = htp.cmpfunc ∧ (htp.resizeHashTable key elems).keyHash = htp.keyHash ∧
      (htp.resizeHashTable key elems).size = elems := by
  rw [resizeHashTable, foldl_hashInsert]
  exact ⟨rfl, rfl, rfl⟩

theorem HashTable.Sound.resize (sound : htp.Sound key) (positive : 0 < elems) :
    (htp.resizeHashTable key elems).Sound key := by
  obtain ⟨compare, hash, size⟩ := HashTable.resize_fields key htp elems
  refine ⟨⟨?_, ?_, ?_⟩, ?_, ?_, ?_, ?_⟩
  · rw [compare]
    exact sound.symm
  · rw [compare]
    exact sound.trans
  · rw [compare, hash]
    exact sound.hash
  · rw [size]
    exact positive
  · intro slot ent member
    rw [HashTable.resize_bucket, List.mem_reverse] at member
    simp only [HashTable.hashGetKeyHash, hash, size]
    simpa using (List.mem_filter.mp member).2
  · intro slot
    rw [HashTable.resize_bucket, List.nodup_reverse]
    exact sound.nodup_entries.filter _
  · intro first second left right
    rw [compare]
    exact sound.single first second (sound.holds_resize.mp left) (sound.holds_resize.mp right)

/-- A table of any other size answers every search alike. -/
theorem HashTable.Sound.hashFind_resize (sound : htp.Sound key) (positive : 0 < elems) (rkey : Text) :
    (htp.resizeHashTable key elems).hashFind key rkey = htp.hashFind key rkey := by
  ext ent
  rw [(sound.resize positive).hashFind_iff, sound.hashFind_iff, sound.holds_resize, (HashTable.resize_fields key htp elems).1]

end SolidIrcd.Throttling
