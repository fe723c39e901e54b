import Mathlib.Data.List.Nodup
import Mathlib.Logic.Function.Basic

/-! Doubly linked lists with a head for each key, all of them with nodes of one pool. The
pointers show a family of lists, and putting a node in front or taking one out is what it
is on lists. -/

namespace SolidIrcd

open Function (update)

structure Chain (κ ν : Type) where
  head : κ → Option ν
  next : ν → Option ν
  prev : ν → Option ν

namespace Chain

variable {κ ν : Type}

def empty : Chain κ ν := ⟨fun _ => none, fun _ => none, fun _ => none⟩

/-- The nodes from a pointer on, `fuel` of them at most. -/
def walk (chain : Chain κ ν) : (fuel : Nat) → Option ν → List ν
  | 0, _ => []
  | _ + 1, none => []
  | fuel + 1, some node => node :: chain.walk fuel (chain.next node)

/-- The pointers show these lists. -/
structure Shows (chain : Chain κ ν) (lists : κ → List ν) : Prop where
  head : ∀ key, chain.head key = (lists key).head?
  links : ∀ key front node back, lists key = front ++ node :: back →
    chain.next node = back.head? ∧ chain.prev node = front.getLast?
  once : ∀ key, (lists key).Nodup
  apart : ∀ key key' node, node ∈ lists key → node ∈ lists key' → key = key'

theorem Shows.empty : (Chain.empty : Chain κ ν).Shows fun _ => [] where
  head := fun _ => rfl
  links := by simp
  once := fun _ => List.nodup_nil
  apart := by simp

variable {chain : Chain κ ν} {lists : κ → List ν}

private theorem Shows.walk_suffix (shown : chain.Shows lists) (split : lists key = front ++ back)
    (enough : back.length ≤ fuel) : chain.walk fuel back.head? = back := by
  induction fuel generalizing front back with
  | zero =>
    obtain rfl := List.length_eq_zero_iff.mp (Nat.le_zero.mp enough)
    rfl
  | succ fuel ih =>
    cases back with
    | nil => rfl
    | cons node back =>
      obtain ⟨next, -⟩ := shown.links key front node back split
      have later : lists key = (front ++ [node]) ++ back := by rw [split, List.append_assoc, List.singleton_append]
      rw [List.head?_cons, walk, next, ih later (by simpa using enough)]

/-- Walking along the pointers gives the list. -/
theorem Shows.walk (shown : chain.Shows lists) (enough : (lists key).length ≤ fuel) :
    chain.walk fuel (chain.head key) = lists key := by
  rw [shown.head key]
  exact shown.walk_suffix (List.nil_append _).symm enough

variable [DecidableEq κ] [DecidableEq ν]

/-- A node comes in front. -/
def push (chain : Chain κ ν) (key : κ) (node : ν) : Chain κ ν :=
  { head := update chain.head key (some node)
    next := update chain.next node (chain.head key)
    prev :=
      match chain.head key with
      | none => update chain.prev node none
      | some first => update (update chain.prev node none) first (some node) }

/-- The neighbours of a node close up; the pointers of the node stay. -/
def unlink (chain : Chain κ ν) (key : κ) (node : ν) : Chain κ ν :=
  { head :=
      match chain.prev node with
      | some _ => chain.head
      | none => update chain.head key (chain.next node)
    next :=
      match chain.prev node with
      | some before => update chain.next before (chain.next node)
      | none => chain.next
    prev :=
      match chain.next node with
      | some after => update chain.prev after (chain.prev node)
      | none => chain.prev }

theorem Shows.push (shown : chain.Shows lists) (new : ∀ key, node ∉ lists key) (key : κ) :
    (chain.push key node).Shows (update lists key (node :: lists key)) := by
  have first := shown.head key
  refine ⟨?_, ?_, ?_, ?_⟩
  · intro other
    by_cases same : other = key
    · subst same
      simp [Chain.push]
    · simp [Chain.push, same, shown.head other]
  · intro other front item back split
    by_cases same : other = key
    · subst same
      rw [Function.update_self] at split
      cases front with
      | nil =>
        obtain ⟨rfl, rfl⟩ := List.cons.inj split
        refine ⟨by simp [Chain.push, first], ?_⟩
        cases front : lists other with
        | nil => simp [Chain.push, first, front]
        | cons head rest =>
          have differ : node ≠ head := fun same => new other (by simp [front, same])
          simp [Chain.push, first, front, differ]
      | cons head front =>
        obtain ⟨rfl, inner⟩ := List.cons.inj split
        obtain ⟨next, prev⟩ := shown.links other front item back inner
        have differ : item ≠ node := fun same => new other (by simp [inner, ← same])
        refine ⟨by simp [Chain.push, differ, next], ?_⟩
        cases front with
        | nil =>
          have top : chain.head other = some item := by simp [first, inner]
          simp [Chain.push, top]
        | cons head' front =>
          have top : chain.head other = some head' := by simp [first, inner]
          have nodup := shown.once other
          rw [inner] at nodup
          have below : item ≠ head' := by
            rintro rfl
            simp at nodup
          simp [Chain.push, top, below, differ, prev]
    · rw [Function.update_of_ne same] at split
      obtain ⟨next, prev⟩ := shown.links other front item back split
      have differ : item ≠ node := fun same => new other (by simp [split, ← same])
      refine ⟨by simp [Chain.push, differ, next], ?_⟩
      cases top : chain.head key with
      | none => simp [Chain.push, top, differ, prev]
      | some head =>
        have elsewhere : item ≠ head := by
          rintro rfl
          have member : item ∈ lists key := List.mem_of_mem_head? (by rw [← first, top]; rfl)
          exact same (shown.apart other key item (by simp [split]) member)
        simp [Chain.push, top, differ, elsewhere, prev]
  · intro other
    by_cases same : other = key
    · subst same
      rw [Function.update_self]
      exact List.nodup_cons.mpr ⟨new other, shown.once other⟩
    · rw [Function.update_of_ne same]
      exact shown.once other
  · intro left right item inLeft inRight
    have place (other : κ) (member : item ∈ update lists key (node :: lists key) other) :
        (item = node ∧ other = key) ∨ item ∈ lists other := by
      by_cases same : other = key
      · subst same
        rw [Function.update_self] at member
        exact (List.mem_cons.mp member).imp_left fun this => ⟨this, rfl⟩
      · rw [Function.update_of_ne same] at member
        exact .inr member
    obtain ⟨rfl, rfl⟩ | old := place left inLeft
    · obtain ⟨-, rfl⟩ | old' := place right inRight
      · rfl
      · exact absurd old' (new right)
    · obtain ⟨rfl, -⟩ | old' := place right inRight
      · exact absurd old (new left)
      · exact shown.apart left right item old old'

section Unlink

variable {key : κ} {node : ν} {front back : List ν} (shown : chain.Shows lists)
  (split : lists key = front ++ node :: back)

include shown split

private theorem next_unlink (item : ν) : (chain.unlink key node).next item =
    if front.getLast? = some item then back.head? else chain.next item := by
  obtain ⟨next, prev⟩ := shown.links key front node back split
  unfold unlink
  cases last : front.getLast? with
  | none => simp [prev, last]
  | some before => simp [prev, last, next, Function.update_apply, eq_comm]

private theorem prev_unlink (item : ν) : (chain.unlink key node).prev item =
    if back.head? = some item then front.getLast? else chain.prev item := by
  obtain ⟨next, prev⟩ := shown.links key front node back split
  unfold unlink
  cases first : back.head? with
  | none => simp [next, first]
  | some after => simp [next, first, prev, Function.update_apply, eq_comm]

private theorem head_unlink (other : κ) :
    (chain.unlink key node).head other = (update lists key (front ++ back) other).head? := by
  obtain ⟨next, prev⟩ := shown.links key front node back split
  by_cases same : other = key
  · subst same
    have top := shown.head other
    cases front with
    | nil => simp [unlink, prev, next]
    | cons head front =>
      rw [List.getLast?_eq_some_getLast (List.cons_ne_nil head front)] at prev
      simp [unlink, prev, top, split]
  · cases last : front.getLast? with
    | none => simp [unlink, prev, last, same, shown.head other]
    | some before => simp [unlink, prev, last, same, shown.head other]

private theorem links_unlink (again : front ++ back = front' ++ item :: back') :
    (chain.unlink key node).next item = back'.head? ∧ (chain.unlink key node).prev item = front'.getLast? := by
  rw [next_unlink shown split, prev_unlink shown split]
  have nodup := shown.once key
  rw [split, List.nodup_append, List.nodup_cons] at nodup
  obtain ⟨onceFront, ⟨-, onceBack⟩, disjoint⟩ := nodup
  obtain ⟨middle, rfl, rest⟩ | ⟨middle, rfl, rest⟩ := List.append_eq_append_iff.mp again
  · -- the node stands in the back part
    subst rest
    have before : (front ++ node :: middle) ++ item :: back' = lists key := by rw [split]; simp
    obtain ⟨next, prev⟩ := shown.links key _ item back' before.symm
    have notLast : front.getLast? ≠ some item := by
      intro last
      exact disjoint item (List.mem_of_getLast? last) item (by simp) rfl
    rw [if_neg notLast]
    refine ⟨next, ?_⟩
    cases middle with
    | nil => simp
    | cons first middle =>
      have notFirst : first ≠ item := by
        rintro rfl
        simp at onceBack
      rw [prev, if_neg (by simpa using notFirst)]
      simp [List.getLast?_append]
  · cases middle with
    | nil =>
      obtain rfl : item :: back' = back := by simpa using rest
      have before : (front' ++ [node]) ++ item :: back' = lists key := by rw [split]; simp
      obtain ⟨next, -⟩ := shown.links key _ item back' before.symm
      have notLast : front'.getLast? ≠ some item := by
        intro last
        exact disjoint item (by simpa using List.mem_of_getLast? last) item (by simp) rfl
      simp [notLast, next]
    | cons first middle =>
      -- the node stands in the front part
      obtain ⟨rfl, rfl⟩ : item = first ∧ back' = middle ++ back := by simpa using rest
      have before : front' ++ item :: (middle ++ node :: back) = lists key := by rw [split]; simp
      obtain ⟨next, prev⟩ := shown.links key front' item _ before.symm
      have notFirst : back.head? ≠ some item := by
        intro first
        exact disjoint item (by simp) item (List.mem_cons_of_mem _ (List.mem_of_mem_head? first)) rfl
      rw [if_neg notFirst]
      refine ⟨?_, prev⟩
      cases middle with
      | nil => simp
      | cons second middle =>
        have notLast : ((front' ++ item :: second :: middle).getLast?) ≠ some item := by
          intro last
          have inside : item ∈ second :: middle := by
            apply List.mem_of_getLast?
            simpa [List.getLast?_append] using last
          rw [List.nodup_append, List.nodup_cons] at onceFront
          exact onceFront.2.1.1 inside
        rw [if_neg notLast, next]
        rfl

/-- Taking out a node that stands in its list. -/
theorem Shows.unlink : (chain.unlink key node).Shows (update lists key (front ++ back)) := by
  have subset (other : κ) (item : ν) (member : item ∈ update lists key (front ++ back) other) : item ∈ lists other := by
    by_cases same : other = key
    · subst same
      rw [Function.update_self] at member
      rw [split]
      simp only [List.mem_append, List.mem_cons] at member ⊢
      exact member.imp_right .inr
    · rwa [Function.update_of_ne same] at member
  refine ⟨head_unlink shown split, ?_, ?_, ?_⟩
  · intro other front' item back' again
    by_cases same : other = key
    · subst same
      rw [Function.update_self] at again
      exact links_unlink shown split again
    · rw [Function.update_of_ne same] at again
      obtain ⟨next, prev⟩ := shown.links other front' item back' again
      have foreign : item ∉ lists key := fun member => same (shown.apart other key item (by simp [again]) member)
      rw [split] at foreign
      have notLast : front.getLast? ≠ some item := fun last => foreign (by simp [List.mem_of_getLast? last])
      have notFirst : back.head? ≠ some item := fun first => foreign (by simp [List.mem_of_mem_head? first])
      rw [next_unlink shown split, prev_unlink shown split, if_neg notLast, if_neg notFirst]
      exact ⟨next, prev⟩
  · intro other
    by_cases same : other = key
    · subst same
      rw [Function.update_self]
      have nodup := shown.once other
      rw [split] at nodup
      exact nodup.sublist (by simp)
    · rw [Function.update_of_ne same]
      exact shown.once other
  · intro left right item inLeft inRight
    exact shown.apart left right item (subset left item inLeft) (subset right item inRight)

end Unlink

theorem Shows.erase (shown : chain.Shows lists) (member : node ∈ lists key) :
    (chain.unlink key node).Shows (update lists key ((lists key).erase node)) := by
  obtain ⟨front, back, split⟩ := List.append_of_mem member
  have nodup := shown.once key
  rw [split, List.nodup_append] at nodup
  have absent : node ∉ front := fun inside => nodup.2.2 node inside node (by simp) rfl
  have erased : (lists key).erase node = front ++ back := by
    rw [split, List.erase_append_right _ absent, List.erase_cons_head]
  rw [erased]
  exact shown.unlink split

end Chain

end SolidIrcd
