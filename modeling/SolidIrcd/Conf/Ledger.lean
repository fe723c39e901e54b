import SolidIrcd.Conf.Rehash
import SolidIrcd.Lib.Refs

/-! The counts of a class: how its references are taken and given up, whoever has them. -/

namespace SolidIrcd.Blocks

open Scan (Text)
open Census (replace total total_replace total_remove)
open Refs (Kind)

def classKind : Kind AClass Ptr where
  key := AClass.ptr
  count := AClass.refs
  gone := fun cl => cl.refs == 0 && cl.maxlinks == -1
  put := fun cl refs => { cl with refs := refs }
  key_put := fun _ _ => rfl
  count_put := fun _ _ => rfl
  gone_count := fun cl gone => by simp only [Bool.and_eq_true, beq_iff_eq] at gone; omega

/-- One for what a pointer points to. -/
def one (pointer : Option Ptr) (ptr : Ptr) : Int := if pointer = some ptr then 1 else 0

/-- How many of a list point to a place. -/
def tally {α : Type} (field : α → Option Ptr) (list : List α) (ptr : Ptr) : Int :=
  total (fun entry => one (field entry) ptr) list

theorem one_nonneg (pointer : Option Ptr) (ptr : Ptr) : 0 ≤ one pointer ptr := by
  unfold one
  split_ifs <;> omega

theorem one_some (pointer ptr : Ptr) : one (some pointer) ptr = if ptr = pointer then 1 else 0 := by
  simp [one, eq_comm]

@[simp] theorem one_self (ptr : Ptr) : one (some ptr) ptr = 1 := if_pos rfl

@[simp] theorem one_none (ptr : Ptr) : one none ptr = 0 := if_neg nofun

section

variable {α : Type} {field : α → Option Ptr} {list : List α} {entry : α}

theorem tally_nonneg (field : α → Option Ptr) (list : List α) (ptr : Ptr) : 0 ≤ tally field list ptr := by
  induction list with
  | nil => exact Int.le_refl 0
  | cons entry list ih => exact Int.add_nonneg (one_nonneg (field entry) ptr) ih

theorem tally_cons (field : α → Option Ptr) (entry : α) (list : List α) (ptr : Ptr) :
    tally field (entry :: list) ptr = one (field entry) ptr + tally field list ptr :=
  rfl

/-- What an entry points to is counted. -/
theorem one_le_tally (field : α → Option Ptr) (member : entry ∈ list) (ptr : Ptr) :
    one (field entry) ptr ≤ tally field list ptr := by
  induction list with
  | nil => exact absurd member List.not_mem_nil
  | cons first rest ih =>
    rw [tally_cons]
    rcases List.mem_cons.mp member with rfl | later
    · have := tally_nonneg field rest ptr
      omega
    · have := ih later
      have := one_nonneg (field first) ptr
      omega

theorem tally_pos (field : α → Option Ptr) (member : entry ∈ list) (points : field entry = some ptr) :
    1 ≤ tally field list ptr := by
  have counted := one_le_tally field member ptr
  rwa [points, one_self] at counted

theorem tally_eq_total (field : α → Option Ptr) (list : List α) (ptr : Ptr) :
    tally field list ptr = total (fun pointer => one pointer ptr) (list.map field) := by
  induction list with
  | nil => rfl
  | cons first rest ih => rw [tally_cons, ih, List.map_cons, total]

/-- Changes that leave the pointers as they are change no count. -/
theorem tally_congr {other : List α} (same : other.map field = list.map field) (ptr : Ptr) :
    tally field other ptr = tally field list ptr := by
  rw [tally_eq_total, tally_eq_total, same]

theorem tally_replace (key : α → Ptr) (field : α → Option Ptr) (new : α) (distinct : (list.map key).Nodup)
    (member : entry ∈ list) (same : key entry = key new) (ptr : Ptr) :
    tally field (replace key new list) ptr = tally field list ptr - one (field entry) ptr + one (field new) ptr :=
  total_replace distinct member same

theorem tally_remove (key : α → Ptr) (field : α → Option Ptr) (distinct : (list.map key).Nodup) (member : entry ∈ list)
    (ptr : Ptr) :
    tally field (list.filter fun other => key other ≠ key entry) ptr = tally field list ptr - one (field entry) ptr :=
  total_remove distinct member

end

/-- Each class counts those that hold it, and the connections in it. -/
structure Ledger (classes : List AClass) (held links : Ptr → Int) : Prop where
  refs : classKind.Held classes held
  links : ∀ cl ∈ classes, cl.links = links cl.ptr

/-- Classes stay as they are but for their counts, and those that are wanted stay. -/
structure Kin (classes after : List AClass) : Prop where
  sub : ∀ cl' ∈ after, ∃ cl ∈ classes, cl'.ptr = cl.ptr ∧ cl'.name = cl.name ∧ cl'.maxlinks = cl.maxlinks
  stays : ∀ cl ∈ classes, cl.maxlinks ≠ -1 → ∃ cl' ∈ after, cl'.ptr = cl.ptr ∧ cl'.name = cl.name ∧
    cl'.maxlinks = cl.maxlinks

theorem Kin.refl (classes : List AClass) : Kin classes classes :=
  ⟨fun cl inside => ⟨cl, inside, rfl, rfl, rfl⟩, fun cl inside _ => ⟨cl, inside, rfl, rfl, rfl⟩⟩

theorem Kin.trans (first : Kin classes middle) (second : Kin middle after) : Kin classes after := by
  refine ⟨fun cl inside => ?_, fun cl inside wanted => ?_⟩
  · obtain ⟨cl', inside', ptr, name, links⟩ := second.sub cl inside
    obtain ⟨cl'', inside'', ptr', name', links'⟩ := first.sub cl' inside'
    exact ⟨cl'', inside'', ptr.trans ptr', name.trans name', links.trans links'⟩
  · obtain ⟨cl', inside', ptr, name, links⟩ := first.stays cl inside wanted
    obtain ⟨cl'', inside'', ptr', name', links'⟩ := second.stays cl' inside' (links ▸ wanted)
    exact ⟨cl'', inside'', ptr'.trans ptr, name'.trans name, links'.trans links⟩

theorem kin_filter (classes : List AClass) (stays : AClass → Bool)
    (wanted : ∀ cl ∈ classes, cl.maxlinks ≠ -1 → stays cl = true) : Kin classes (classes.filter stays) :=
  ⟨fun cl inside => ⟨cl, List.mem_of_mem_filter inside, rfl, rfl, rfl⟩,
    fun cl inside up => ⟨cl, List.mem_filter.mpr ⟨inside, wanted cl inside up⟩, rfl, rfl, rfl⟩⟩

theorem kin_expire (classes : List AClass) (cl : Ptr) : Kin classes (expireClass classes cl) := by
  apply kin_filter
  intro ccl _ wanted
  simp [wanted]

/-- A class that has a count changed. -/
def bump (cl : Ptr) (links refs : Int) (ccl : AClass) : AClass :=
  if ccl.ptr = cl then { ccl with links := ccl.links + links, refs := ccl.refs + refs } else ccl

theorem bump_ptr (cl : Ptr) (links refs : Int) (ccl : AClass) : (bump cl links refs ccl).ptr = ccl.ptr := by
  unfold bump
  split_ifs <;> rfl

theorem kin_bump (classes : List AClass) (cl : Ptr) (links refs : Int) :
    Kin classes (classes.map (bump cl links refs)) := by
  have same (ccl : AClass) : (bump cl links refs ccl).ptr = ccl.ptr ∧ (bump cl links refs ccl).name = ccl.name ∧
      (bump cl links refs ccl).maxlinks = ccl.maxlinks := by
    unfold bump
    split_ifs <;> exact ⟨rfl, rfl, rfl⟩
  refine ⟨fun cl' inside => ?_, fun ccl inside _ => ⟨_, List.mem_map_of_mem inside, same ccl⟩⟩
  obtain ⟨ccl, present, rfl⟩ := List.mem_map.mp inside
  exact ⟨ccl, present, same ccl⟩

theorem tidy_expire (tidy : classKind.Tidy classes) (cl : Ptr) (more refs : Int) :
    classKind.Tidy (expireClass (classes.map (bump cl more refs)) cl) := by
  intro ccl inside
  obtain ⟨present, stays⟩ := List.mem_filter.mp inside
  obtain ⟨old, before, rfl⟩ := List.mem_map.mp present
  by_cases same : old.ptr = cl
  · simpa [bump_ptr, same, classKind, imp_iff_not_or] using stays
  · simpa [bump, same] using tidy old before

/-- What is left of the classes when something has given one up, or taken one. -/
structure Settled (classes after : List AClass) (held links : Ptr → Int) : Prop where
  ledger : Ledger after held links
  kin : Kin classes after
  tidy : classKind.Tidy classes → classKind.Tidy after

section

variable {classes : List AClass} {held links held' links' : Ptr → Int}

theorem Ledger.congr (ledger : Ledger classes held links) (refs : ∀ ptr, held ptr = held' ptr)
    (same : ∀ ptr, links ptr = links' ptr) : Ledger classes held' links' := by
  obtain rfl := funext refs
  obtain rfl := funext same
  exact ledger

theorem Settled.congr (settled : Settled classes after held links) (refs : ∀ ptr, held ptr = held' ptr)
    (same : ∀ ptr, links ptr = links' ptr) : Settled classes after held' links' :=
  { settled with ledger := settled.ledger.congr refs same }

/-- A class that is there can be reached. -/
theorem Ledger.changes (ledger : Ledger classes held links) (cl : Ptr) (present : cl ∈ classes.map AClass.ptr)
    (more refs : Int) :
    changeClass classes cl more refs = some (classes.map (bump cl more refs)) ∧
      Ledger (classes.map (bump cl more refs)) (fun ptr => held ptr + if ptr = cl then refs else 0)
        (fun ptr => links ptr + if ptr = cl then more else 0) := by
  have found : (classes.any fun ccl => ccl.ptr = cl) = true := by
    obtain ⟨ccl, inside, same⟩ := List.mem_map.mp present
    exact List.any_eq_true.mpr ⟨ccl, inside, by simpa using same⟩
  refine ⟨if_pos found, ?_, fun ccl inside => ?_⟩
  · have adjusted := ledger.refs.adjust (fun ptr => held ptr + if ptr = cl then refs else 0) present refs
      fun ptr => rfl
    have bumps : (classKind.adjust cl refs classes).map
        (fun ccl => if ccl.ptr = cl then { ccl with links := ccl.links + more } else ccl) =
          classes.map (bump cl more refs) := by
      rw [Kind.adjust, List.map_map]
      apply List.map_congr_left
      intro ccl _
      by_cases same : ccl.ptr = cl <;> simp [bump, classKind, same]
    have again := adjusted.map (fun ccl => if ccl.ptr = cl then { ccl with links := ccl.links + more } else ccl)
      fun ccl _ => by
        by_cases same : ccl.ptr = cl <;> simp [classKind, same]
    rw [bumps] at again
    exact again
  · obtain ⟨old, present, rfl⟩ := List.mem_map.mp inside
    have before := ledger.links old present
    rw [bump_ptr]
    by_cases same : old.ptr = cl
    · simp only [bump, if_pos same]
      omega
    · simp only [bump, if_neg same]
      omega

/-- A class goes when it is to and nobody holds it. -/
theorem Ledger.expires (ledger : Ledger classes held links) (cl : Ptr) :
    Ledger (expireClass classes cl) held links := by
  refine ⟨?_, fun ccl inside => ledger.links ccl (List.mem_of_mem_filter inside)⟩
  apply ledger.refs.filter
  intro ccl inside leaves
  simp only [Bool.not_eq_false', Bool.and_eq_true, beq_iff_eq] at leaves
  exact (ledger.refs.counted ccl inside).symm.trans leaves.2.1

theorem Ledger.present (ledger : Ledger classes held links) (up : 0 < held cl) : cl ∈ classes.map AClass.ptr :=
  ledger.refs.live cl (by omega)

/-- One that holds a class gives it up, and the connection that it was in it. -/
theorem Ledger.gives (cl : Ptr) (fewer : Int)
    (ledger : Ledger classes (fun ptr => held ptr + one (some cl) ptr) fun ptr =>
      links ptr + if ptr = cl then fewer else 0)
    (positive : ∀ ptr, 0 ≤ held ptr) :
    ∃ after, (changeClass classes cl (-fewer) (-1)).map (fun classes => expireClass classes cl) = some after ∧
      Settled classes after held links := by
  have there : cl ∈ classes.map AClass.ptr := by
    apply ledger.present
    have := positive cl
    rw [one_self]
    omega
  obtain ⟨changed, ledger'⟩ := ledger.changes cl there (-fewer) (-1)
  refine ⟨_, by rw [changed]; rfl, ?_, (kin_bump _ cl (-fewer) (-1)).trans (kin_expire _ cl),
    fun tidy => tidy_expire tidy cl (-fewer) (-1)⟩
  refine (ledger'.expires cl).congr (fun ptr => ?_) (fun ptr => ?_)
  · rw [one_some]
    split_ifs <;> omega
  · split_ifs <;> omega

theorem Ledger.drop (cl : Ptr) (ledger : Ledger classes (fun ptr => held ptr + one (some cl) ptr) links)
    (positive : ∀ ptr, 0 ≤ held ptr) :
    ∃ after, dropClass classes cl = some after ∧ Settled classes after held links := by
  apply Ledger.gives cl 0 (ledger.congr (fun _ => rfl) fun ptr => ?_) positive
  split_ifs <;> omega

theorem Ledger.leave (pointer : Option Ptr)
    (ledger : Ledger classes (fun ptr => held ptr + one pointer ptr) fun ptr => links ptr + one pointer ptr)
    (positive : ∀ ptr, 0 ≤ held ptr) :
    ∃ after, leaveClass classes pointer = some after ∧ Settled classes after held links := by
  cases pointer with
  | none =>
    refine ⟨classes, rfl, ledger.congr (fun ptr => ?_) fun ptr => ?_, Kin.refl _, id⟩
    · rw [one_none, Int.add_zero]
    · rw [one_none, Int.add_zero]
  | some cl => exact Ledger.gives cl 1 (ledger.congr (fun _ => rfl) fun ptr => by rw [one_some]) positive

/-- A class that is there can be taken. -/
theorem Ledger.takes (ledger : Ledger classes held links) (cl : Ptr) (there : cl ∈ classes.map AClass.ptr) (more : Int)
    (positive : ∀ ptr, 0 ≤ held ptr) :
    ∃ after, changeClass classes cl more 1 = some after ∧
      Settled classes after (fun ptr => held ptr + one (some cl) ptr)
        fun ptr => links ptr + if ptr = cl then more else 0 := by
  obtain ⟨changed, ledger'⟩ := ledger.changes cl there more 1
  refine ⟨_, changed, ledger'.congr (fun ptr => by rw [one_some]) fun _ => rfl, kin_bump _ cl more 1, fun tidy => ?_⟩
  intro ccl inside
  obtain ⟨old, before, rfl⟩ := List.mem_map.mp inside
  by_cases same : old.ptr = cl
  · have count : old.refs = held old.ptr := ledger.refs.counted old before
    have := positive old.ptr
    have up : ¬ (old.refs + 1 = 0) := by omega
    simp [bump, same, classKind, up]
  · simpa [bump, same] using tidy old before

end

/-- There is a class that is wanted for a name. -/
def Serves (classes : List AClass) (name : Option Text) : Prop :=
  ∃ cl ∈ classes, mycmp (name.getD "default".toList) cl.name = true ∧ cl.maxlinks ≠ -1

theorem Kin.serves (kin : Kin classes after) (serves : Serves classes name) : Serves after name := by
  obtain ⟨cl, inside, called, wanted⟩ := serves
  obtain ⟨cl', inside', _, same, links⟩ := kin.stays cl inside wanted
  exact ⟨cl', inside', same.symm ▸ called, links.symm ▸ wanted⟩

theorem find_serves (serves : Serves classes name) : ∃ cl ∈ classes, findClass classes name = some cl := by
  obtain ⟨cl, inside, called, _⟩ := serves
  cases found : findClass classes name with
  | none => exact absurd called (List.find?_eq_none.mp found cl inside)
  | some other => exact ⟨other, List.mem_of_find?_eq_some found, rfl⟩

section

variable {classes : List AClass} {held links : Ptr → Int}

theorem Settled.trans (first : Settled classes middle held' links') (second : Settled middle after held links) :
    Settled classes after held links :=
  ⟨second.ledger, first.kin.trans second.kin, fun tidy => second.tidy (first.tidy tidy)⟩

/-- A block gets the class of a name. -/
theorem Ledger.joins (ledger : Ledger classes held links) (positive : ∀ ptr, 0 ≤ held ptr)
    (serves : Serves classes name) :
    ∃ cl after, findClass classes name = some cl ∧ changeClass classes cl.ptr 0 1 = some after ∧
      Settled classes after (fun ptr => held ptr + one (some cl.ptr) ptr) links := by
  obtain ⟨cl, inside, found⟩ := find_serves serves
  obtain ⟨after, changed, settled⟩ := ledger.takes cl.ptr (List.mem_map_of_mem inside) 0 positive
  refine ⟨cl, after, found, changed, settled.congr (fun _ => rfl) fun ptr => ?_⟩
  split_ifs <;> omega

/-- The class of a block is given up for another. -/
theorem Ledger.moves (old : Ptr) (ledger : Ledger classes (fun ptr => held ptr + one (some old) ptr) links)
    (positive : ∀ ptr, 0 ≤ held ptr) (serves : Serves classes name) :
    ∃ dropped cl after, dropClass classes old = some dropped ∧ findClass dropped name = some cl ∧
      changeClass dropped cl.ptr 0 1 = some after ∧
      Settled classes after (fun ptr => held ptr + one (some cl.ptr) ptr) links := by
  obtain ⟨dropped, drops, settled⟩ := ledger.drop old positive
  obtain ⟨cl, after, found, changed, settled'⟩ := settled.ledger.joins positive (settled.kin.serves serves)
  exact ⟨dropped, cl, after, drops, found, changed, settled.trans settled'⟩

/-- Blocks that go give up their classes. -/
theorem Ledger.prunes {α : Type} (gone : α → Bool) (cls : α → Ptr) (blocks : List α)
    (ledger : Ledger classes (fun ptr => held ptr + tally (fun block => some (cls block)) blocks ptr) links)
    (positive : ∀ ptr, 0 ≤ held ptr) :
    ∃ after, prune gone cls blocks classes = some (blocks.filter (fun block => !gone block), after) ∧
      Settled classes after
        (fun ptr => held ptr + tally (fun block => some (cls block)) (blocks.filter fun block => !gone block) ptr)
        links := by
  induction blocks generalizing classes held with
  | nil => exact ⟨classes, rfl, ledger, Kin.refl _, id⟩
  | cons block rest ih =>
    by_cases goes : gone block = true
    · have ledger' : Ledger classes (fun ptr => held ptr + tally (fun block => some (cls block)) rest ptr +
          one (some (cls block)) ptr) links := by
        refine ledger.congr (fun ptr => ?_) fun _ => rfl
        rw [tally_cons]
        omega
      obtain ⟨dropped, drops, settled⟩ := ledger'.drop (cls block) fun ptr =>
        Int.add_nonneg (positive ptr) (tally_nonneg _ rest ptr)
      obtain ⟨after, prunes, settled'⟩ := ih settled.ledger positive
      refine ⟨after, ?_, ?_⟩
      · simp only [prune, if_pos goes, drops, Option.bind_eq_bind, Option.bind_some, prunes]
        rw [List.filter_cons_of_neg (by simpa using goes)]
      · rw [List.filter_cons_of_neg (by simpa using goes)]
        exact settled.trans settled'
    · have ledger' : Ledger classes (fun ptr => held ptr + one (some (cls block)) ptr +
          tally (fun block => some (cls block)) rest ptr) links := by
        refine ledger.congr (fun ptr => ?_) fun _ => rfl
        rw [tally_cons]
        omega
      obtain ⟨after, prunes, settled⟩ := ih ledger' fun ptr => Int.add_nonneg (positive ptr) (one_nonneg _ ptr)
      refine ⟨after, ?_, ?_⟩
      · simp only [prune, if_neg goes, prunes, Option.bind_eq_bind, Option.bind_some]
        rw [List.filter_cons_of_pos (by simpa using goes)]
      · rw [List.filter_cons_of_pos (by simpa using goes)]
        refine settled.congr (fun ptr => ?_) fun _ => rfl
        rw [tally_cons]
        omega

end

end SolidIrcd.Blocks
