import SolidIrcd.Lib.Bitmap
import SolidIrcd.Lib.Machine

/-! The block allocator of `blalloc.c`: elements of one size are handed out from blocks that
each have a bitmap of what is in use. -/

namespace SolidIrcd.Blalloc

open Bitmap (Words bit clears mark unmark scan)

/-- What `BlockHeapCreate` is asked for; a block of it can be asked of `malloc`. -/
structure Config where
  elemsize : Nat
  elemsPerBlock : Nat
  sized : 0 < elemsize
  some : 0 < elemsPerBlock
  fits : elemsPerBlock * (elemsize + (elemsize &&& 7)) < 18446744073709551616

/-- `elemsize + (elemsize & (sizeof(void *) - 1))`. -/
def Config.elemSize (config : Config) : Nat := config.elemsize + (config.elemsize &&& 7)

def Config.numlongs (config : Config) : Nat :=
  let numlongs := config.elemsPerBlock / 64 + 1
  if config.elemsPerBlock % 64 = 0 then numlongs - 1 else numlongs

/-- The bytes of a block, a `size_t`. -/
def Config.blockBytes (config : Config) : Nat := config.elemsPerBlock * config.elemSize % 18446744073709551616

/-- `struct Block`, at the address of its elements. -/
structure Block where
  elems : Nat
  endElem : Nat
  freeElems : Int
  allocMap : Words
  deriving DecidableEq, Repr

/-- `struct BlockHeap`, with the blocks from `base` on. -/
structure Heap where
  blocks : List Block
  blocksAllocated : Int
  freeElems : Int
  deriving DecidableEq, Repr

/-- `newblock`, when `malloc` puts the elements at this address. -/
def Heap.newblock (config : Config) (heap : Heap) (elems : Nat) : Heap :=
  { blocks :=
      { elems := elems
        endElem := elems + (config.elemsPerBlock - 1) * config.elemSize
        freeElems := config.elemsPerBlock
        allocMap := List.replicate (config.numlongs + 1) 0 } :: heap.blocks
    blocksAllocated := heap.blocksAllocated + 1
    freeElems := heap.freeElems + config.elemsPerBlock }

/-- `BlockHeapCreate`. -/
def blockHeapCreate (config : Config) (elems : Nat) : Heap := Heap.newblock config ⟨[], 0, 0⟩ elems

/-- The walk over the blocks of `BlockHeapAlloc`. -/
def allocFrom (config : Config) : List Block → Option (Nat × List Block)
  | [] => none
  | walker :: rest =>
    let next := (allocFrom config rest).map fun (ptr, blocks) => (ptr, walker :: blocks)
    if 0 < walker.freeElems then
      match scan walker.allocMap config.numlongs 0 0 with
      | some (unit, ctr) =>
        some (walker.elems + (unit * 64 + ctr) * config.elemSize,
          { walker with allocMap := mark walker.allocMap unit ctr, freeElems := walker.freeElems - 1 } :: rest)
      | none => next
    else next

/-- `BlockHeapAlloc`; `malloc` is the address a new block would get. -/
def Heap.blockHeapAlloc (config : Config) (heap : Heap) (malloc : Nat) : Option Nat × Heap :=
  if heap.freeElems = 0 then
    let heap := heap.newblock config malloc
    match heap.blocks with
    | [] => (none, heap)
    | base :: rest =>
      let base := { base with allocMap := base.allocMap.set 0 1#64, freeElems := base.freeElems - 1 }
      (some base.elems, { heap with blocks := base :: rest, freeElems := heap.freeElems - 1 })
  else
    match allocFrom config heap.blocks with
    | some (ptr, blocks) => (some ptr, { heap with blocks := blocks, freeElems := heap.freeElems - 1 })
    | none => (none, heap)

/-- What the walk of `BlockHeapFree` comes to: `abort` is called for a bit that is clear. -/
inductive Freed where
  | done (blocks : List Block)
  | aborted
  | missing
  deriving DecidableEq, Repr

/-- The walk over the blocks of `BlockHeapFree`. -/
def freeFrom (config : Config) (ptr : Nat) : List Block → Freed
  | [] => .missing
  | walker :: rest =>
    if walker.elems ≤ ptr ∧ ptr ≤ walker.endElem then
      let ctr := (ptr - walker.elems) / config.elemSize
      if walker.allocMap.getD (ctr / 64) 0 &&& 1#64 <<< (ctr % 64) = 0#64 then .aborted
      else
        .done ({ walker with
          allocMap := unmark walker.allocMap (ctr / 64) (ctr % 64)
          freeElems := walker.freeElems + 1 } :: rest)
    else
      match freeFrom config ptr rest with
      | .done blocks => .done (walker :: blocks)
      | .aborted => .aborted
      | .missing => .missing

/-- `BlockHeapFree`, with what it returns; `none` where it calls `abort`. -/
def Heap.blockHeapFree (config : Config) (heap : Heap) (ptr : Nat) : Option (Nat × Heap) :=
  match freeFrom config ptr heap.blocks with
  | .done blocks => some (0, { heap with blocks := blocks, freeElems := heap.freeElems + 1 })
  | .missing => some (1, heap)
  | .aborted => none

/-- No bit of the map is set. -/
def Block.unused (config : Config) (block : Block) : Bool := (block.allocMap.take config.numlongs).all (· == 0)

/-- The walk of `BlockHeapGarbageCollect`, with the blocks that stay behind `heap.blocks`. -/
def Heap.collectFrom (config : Config) (heap : Heap) : List Block → Heap
  | [] => heap
  | walker :: rest =>
    if walker.unused config then
      Heap.collectFrom config
        { heap with
          blocksAllocated := heap.blocksAllocated - 1
          freeElems := heap.freeElems - config.elemsPerBlock } rest
    else Heap.collectFrom config { heap with blocks := heap.blocks ++ [walker] } rest

/-- `BlockHeapGarbageCollect`. -/
def Heap.blockHeapGarbageCollect (config : Config) (heap : Heap) : Heap :=
  if heap.freeElems < config.elemsPerBlock then heap
  else Heap.collectFrom config { heap with blocks := [] } heap.blocks

/-- The heap, and the elements that were handed out and not given back. -/
structure State where
  heap : Heap
  live : List Nat

inductive Action where
  | alloc (malloc : Nat)
  | free (ptr : Nat)
  | collect
  deriving DecidableEq, Repr

def State.perform (config : Config) (state : State) : Action → State
  | .alloc malloc =>
    match state.heap.blockHeapAlloc config malloc with
    | (some ptr, heap) => ⟨heap, ptr :: state.live⟩
    | (none, heap) => { state with heap := heap }
  | .free ptr =>
    match state.heap.blockHeapFree config ptr with
    | some (_, heap) => ⟨heap, state.live.erase ptr⟩
    | none => state
  | .collect => { state with heap := state.heap.blockHeapGarbageCollect config }

/-- The elements of two blocks are in different places. -/
def Apart (config : Config) (first second : Nat) : Prop :=
  first + config.blockBytes ≤ second ∨ second + config.blockBytes ≤ first

/-- `malloc` gives memory that is not in use, and only live elements are freed. -/
def State.Possible (config : Config) (state : State) : Action → Prop
  | .alloc malloc => ∀ block ∈ state.heap.blocks, Apart config malloc block.elems
  | .free ptr => ptr ∈ state.live
  | .collect => True

def machine (config : Config) : Machine State Action := ⟨State.perform config, State.Possible config⟩

def State.start (config : Config) (elems : Nat) : State := ⟨blockHeapCreate config elems, []⟩

/-- The address of an element. -/
def Block.address (config : Config) (block : Block) (index : Nat) : Nat := block.elems + index * config.elemSize

/-- An element of one of the blocks, in use or not. -/
def Element (config : Config) (blocks : List Block) (used : Bool) (ptr : Nat) : Prop :=
  ∃ block ∈ blocks, ∃ index < config.elemsPerBlock, ptr = block.address config index ∧ bit block.allocMap index = used

structure Block.Sound (config : Config) (block : Block) : Prop where
  endElem : block.endElem = block.elems + (config.elemsPerBlock - 1) * config.elemSize
  long : config.numlongs ≤ block.allocMap.length
  freeElems : block.freeElems = clears block.allocMap config.elemsPerBlock

/-- The free elements of all blocks. -/
def totalFree (config : Config) : List Block → Nat
  | [] => 0
  | block :: rest => clears block.allocMap config.elemsPerBlock + totalFree config rest

structure State.Sound (config : Config) (state : State) : Prop where
  blocks : ∀ block ∈ state.heap.blocks, block.Sound config
  apart : (state.heap.blocks.map Block.elems).Pairwise (Apart config)
  free : state.heap.freeElems = totalFree config state.heap.blocks
  live : ∀ ptr, ptr ∈ state.live ↔ Element config state.heap.blocks true ptr
  once : state.live.Nodup

section

variable {config : Config} {block other : Block} {blocks before rest : List Block} {index : Nat}

theorem elemSize_pos (config : Config) : 0 < config.elemSize := Nat.lt_of_lt_of_le config.sized (Nat.le_add_right ..)

theorem blockBytes_eq (config : Config) : config.blockBytes = config.elemsPerBlock * config.elemSize :=
  Nat.mod_eq_of_lt config.fits

theorem unit_lt (below : index < config.elemsPerBlock) : index / 64 < config.numlongs := by
  unfold Config.numlongs
  dsimp only
  split <;> omega

/-- An element lies in its block, and before the next one. -/
theorem address_inside (block : Block) (below : index < config.elemsPerBlock) :
    block.address config index + config.elemSize ≤ block.elems + config.blockBytes := by
  have most : (index + 1) * config.elemSize ≤ config.elemsPerBlock * config.elemSize :=
    Nat.mul_le_mul_right _ below
  rw [Nat.succ_mul] at most
  rw [blockBytes_eq, Block.address]
  omega

theorem elems_le_address (block : Block) : block.elems ≤ block.address config index := Nat.le_add_right ..

theorem address_lt (config : Config) (block : Block) (less : first < second) :
    block.address config first + config.elemSize ≤ block.address config second := by
  have most : (first + 1) * config.elemSize ≤ second * config.elemSize := Nat.mul_le_mul_right _ less
  rw [Nat.succ_mul] at most
  rw [Block.address, Block.address]
  omega

theorem address_inj (block : Block) (same : block.address config first = block.address config second) :
    first = second := by
  have positive := elemSize_pos config
  by_contra differs
  rcases Nat.lt_or_gt_of_ne differs with less | less
  · have apart := address_lt config block less
    omega
  · have apart := address_lt config block less
    omega

/-- Elements of two blocks do not overlap. -/
theorem address_apart (apart : Apart config block.elems other.elems) (below : first < config.elemsPerBlock)
    (below' : second < config.elemsPerBlock) :
    block.address config first + config.elemSize ≤ other.address config second ∨
      other.address config second + config.elemSize ≤ block.address config first := by
  have inside := address_inside block below
  have inside' := address_inside other below'
  have least : block.elems ≤ block.address config first := elems_le_address block
  have least' : other.elems ≤ other.address config second := elems_le_address other
  rcases apart with apart | apart
  · exact .inl (by omega)
  · exact .inr (by omega)

theorem Apart.symm (apart : Apart config first second) : Apart config second first := Or.symm apart

/-- The blocks around one are apart from it. -/
theorem apart_middle (apart : ((before ++ block :: rest).map Block.elems).Pairwise (Apart config))
    (member : other ∈ before ∨ other ∈ rest) : Apart config other.elems block.elems := by
  rw [List.map_append, List.map_cons, List.pairwise_append, List.pairwise_cons] at apart
  rcases member with member | member
  · exact apart.2.2 _ (List.mem_map_of_mem member) _ List.mem_cons_self
  · exact (apart.2.1.1 _ (List.mem_map_of_mem member)).symm

/-- Two elements of a heap are in different places. -/
theorem element_apart (apart : (blocks.map Block.elems).Pairwise (Apart config))
    (member : block ∈ blocks) (member' : other ∈ blocks) (below : first < config.elemsPerBlock)
    (below' : second < config.elemsPerBlock) (differ : block.address config first ≠ other.address config second) :
    block.address config first + config.elemSize ≤ other.address config second ∨
      other.address config second + config.elemSize ≤ block.address config first := by
  obtain ⟨before, rest, rfl⟩ := List.append_of_mem member
  rcases List.mem_append.mp member' with here | here
  · exact (address_apart (apart_middle apart (.inl here)) below' below).symm
  · rcases List.mem_cons.mp here with rfl | here
    · have indices : first ≠ second := by
        rintro rfl
        exact differ rfl
      rcases Nat.lt_or_gt_of_ne indices with less | less
      · exact .inl (address_lt config other less)
      · exact .inr (address_lt config other less)
    · exact (address_apart (apart_middle apart (.inr here)) below' below).symm

/-- One bit of one block has changed. -/
theorem element_replace {block' : Block} (flag : Bool)
    (apart : ((before ++ block :: rest).map Block.elems).Pairwise (Apart config))
      (same : block'.elems = block.elems) (below : index < config.elemsPerBlock)
    (bits : ∀ other, bit block'.allocMap other = if other = index then flag else bit block.allocMap other)
    (used : Bool) (ptr : Nat) :
    Element config (before ++ block' :: rest) used ptr ↔
      (ptr = block.address config index ∧ flag = used) ∨
        (ptr ≠ block.address config index ∧ Element config (before ++ block :: rest) used ptr) := by
  have moved (place : Nat) : block'.address config place = block.address config place := by
    rw [Block.address, Block.address, same]
  have elsewhere (other : Block) (member : other ∈ before ∨ other ∈ rest) (place : Nat)
      (inside : place < config.elemsPerBlock) : other.address config place ≠ block.address config index := by
    have positive := elemSize_pos config
    have differ := address_apart (apart_middle apart member) inside below
    omega
  constructor
  · rintro ⟨other, member, place, inside, rfl, isUsed⟩
    rcases List.mem_append.mp member with here | here
    · exact .inr ⟨elsewhere other (.inl here) place inside, other, List.mem_append_left _ here, place, inside, rfl, isUsed⟩
    · rcases List.mem_cons.mp here with rfl | here
      · rw [bits] at isUsed
        rw [moved]
        by_cases equal : place = index
        · subst equal
          rw [if_pos rfl] at isUsed
          exact .inl ⟨rfl, isUsed⟩
        · rw [if_neg equal] at isUsed
          refine .inr ⟨fun equals => equal (address_inj block equals), block, by simp, place, inside, rfl, isUsed⟩
      · refine .inr ⟨elsewhere other (.inr here) place inside, other, by simp [here], place, inside, rfl, isUsed⟩
  · rintro (⟨rfl, isUsed⟩ | ⟨differs, other, member, place, inside, rfl, isUsed⟩)
    · refine ⟨block', by simp, index, below, (moved index).symm, ?_⟩
      rw [bits, if_pos rfl]
      exact isUsed
    · rcases List.mem_append.mp member with here | here
      · exact ⟨other, List.mem_append_left _ here, place, inside, rfl, isUsed⟩
      · rcases List.mem_cons.mp here with rfl | here
        · refine ⟨block', by simp, place, inside, (moved place).symm, ?_⟩
          have apart : place ≠ index := by
            rintro rfl
            exact differs rfl
          rw [bits, if_neg apart]
          exact isUsed
        · exact ⟨other, by simp [here], place, inside, rfl, isUsed⟩

theorem totalFree_append (config : Config) (before rest : List Block) :
    totalFree config (before ++ rest) = totalFree config before + totalFree config rest := by
  induction before with
  | nil => simp [totalFree]
  | cons block before ih =>
    rw [List.cons_append, totalFree, totalFree, ih]
    omega

/-- The walk takes the first free element of a block that has one. -/
theorem allocFrom_spec (sound : ∀ block ∈ blocks, block.Sound config) (some : 0 < totalFree config blocks) :
    ∃ before block rest unit ctr, blocks = before ++ block :: rest ∧ unit < config.numlongs ∧ ctr < 64 ∧
      unit * 64 + ctr < config.elemsPerBlock ∧ bit block.allocMap (unit * 64 + ctr) = false ∧
      allocFrom config blocks = Option.some (block.address config (unit * 64 + ctr),
        before ++ { block with allocMap := mark block.allocMap unit ctr, freeElems := block.freeElems - 1 } :: rest) := by
  induction blocks with
  | nil => cases some
  | cons walker rest ih =>
    have free := (sound walker List.mem_cons_self).freeElems
    rw [allocFrom]
    dsimp only
    by_cases here : 0 < walker.freeElems
    · rw [if_pos here]
      have clears : 0 < clears walker.allocMap config.elemsPerBlock := by omega
      obtain ⟨index, below, clear⟩ := Bitmap.exists_clear clears
      obtain ⟨unit, ctr, found, first⟩ :=
        Bitmap.scan_spec walker.allocMap config.numlongs 0 0 (by decide) ⟨index, by omega, unit_lt below, clear⟩
      have least := first.least index (by omega) clear
      rw [found]
      exact ⟨[], walker, rest, unit, ctr, rfl, first.below, first.small, by omega, first.clear, rfl⟩
    · rw [if_neg here]
      rw [totalFree] at some
      obtain ⟨before, block, after, unit, ctr, rfl, low, small, below, clear, found⟩ :=
        ih (fun block member => sound block (List.mem_cons_of_mem _ member)) (by omega)
      refine ⟨walker :: before, block, after, unit, ctr, rfl, low, small, below, clear, ?_⟩
      rw [found]
      rfl

/-- The walk comes to the block of a live element and clears its bit. -/
theorem freeFrom_spec (apart : ((before ++ block :: rest).map Block.elems).Pairwise (Apart config))
    (sound : ∀ other ∈ before ++ block :: rest, other.Sound config) (below : index < config.elemsPerBlock)
    (used : bit block.allocMap index = true) :
    freeFrom config (block.address config index) (before ++ block :: rest) =
      .done (before ++ { block with
        allocMap := unmark block.allocMap (index / 64) (index % 64)
        freeElems := block.freeElems + 1 } :: rest) := by
  have positive := elemSize_pos config
  have ends (other : Block) (member : other ∈ before ++ block :: rest) : other.endElem =
      other.address config (config.elemsPerBlock - 1) := (sound other member).endElem
  induction before with
  | nil =>
    have least : block.elems ≤ block.address config index := elems_le_address block
    have most : block.address config index ≤ block.endElem := by
      rw [ends block (by simp)]
      rcases Nat.lt_or_ge index (config.elemsPerBlock - 1) with less | last
      · have next := address_lt config block less
        omega
      · have equal : index = config.elemsPerBlock - 1 := by omega
        rw [equal]
    have divided : (block.address config index - block.elems) / config.elemSize = index := by
      rw [Block.address, Nat.add_sub_cancel_left, Nat.mul_div_cancel _ positive]
    have set : ¬ (block.allocMap.getD (index / 64) 0 &&& 1#64 <<< (index % 64) = 0#64) := by
      rw [BitVec.and_comm, Bitmap.mask_and_eq_zero (Nat.mod_lt _ (by decide))]
      intro clear
      rw [bit] at used
      rw [clear] at used
      cases used
    rw [List.nil_append, List.nil_append, freeFrom, if_pos ⟨least, most⟩]
    dsimp only
    rw [divided, if_neg set]
  | cons walker before ih =>
    have away : ¬ (walker.elems ≤ block.address config index ∧ block.address config index ≤ walker.endElem) := by
      have last : config.elemsPerBlock - 1 < config.elemsPerBlock := Nat.sub_lt config.some (by decide)
      have finish := ends walker (by simp)
      have inside := address_inside block below
      have separate := apart_middle apart (.inl List.mem_cons_self)
      have least : block.elems ≤ block.address config index := elems_le_address block
      have whole := address_inside walker last
      rcases separate with separate | separate
      · omega
      · omega
    rw [List.cons_append, freeFrom, if_neg away]
    rw [List.cons_append, List.map_cons, List.pairwise_cons] at apart
    rw [ih apart.2 (fun other member => sound other (List.mem_cons_of_mem _ member))
      (fun other member => ends other (List.mem_cons_of_mem _ member))]
    rfl

/-- All words are zero, so no element is in use. -/
theorem bit_of_unused (unused : block.unused config = true) (below : index < config.elemsPerBlock) :
    bit block.allocMap index = false := by
  have zero : block.allocMap.getD (index / 64) 0 = 0 := by
    rw [List.getD_eq_getElem?_getD]
    cases found : block.allocMap[index / 64]? with
    | none => rfl
    | some word =>
      have member : word ∈ block.allocMap.take config.numlongs := by
        refine List.mem_of_getElem? (i := index / 64) ?_
        rw [List.getElem?_take_of_lt (unit_lt below)]
        exact found
      simpa using List.all_eq_true.mp unused word member
  rw [bit, zero]
  exact BitVec.getLsbD_zero

theorem collectFrom_spec (config : Config) (heap : Heap) (blocks : List Block) :
    (heap.collectFrom config blocks).blocks = heap.blocks ++ blocks.filter (fun block => !block.unused config) ∧
      (heap.collectFrom config blocks).freeElems + totalFree config blocks =
        heap.freeElems + totalFree config (blocks.filter fun block => !block.unused config) := by
  induction blocks generalizing heap with
  | nil => simp [Heap.collectFrom, totalFree]
  | cons walker rest ih =>
    rw [Heap.collectFrom]
    split
    next unused =>
      obtain ⟨blocks, free⟩ := ih { heap with
        blocksAllocated := heap.blocksAllocated - 1, freeElems := heap.freeElems - config.elemsPerBlock }
      have whole : clears walker.allocMap config.elemsPerBlock = config.elemsPerBlock :=
        Bitmap.clears_eq fun index below => bit_of_unused unused below
      rw [List.filter_cons_of_neg (by simp [unused])]
      refine ⟨blocks, ?_⟩
      rw [totalFree, whole]
      dsimp only at free
      omega
    next used =>
      obtain ⟨blocks, free⟩ := ih { heap with blocks := heap.blocks ++ [walker] }
      rw [List.filter_cons_of_pos (by simpa using used)]
      refine ⟨by simp [blocks], ?_⟩
      rw [totalFree, totalFree]
      dsimp only at free
      omega

end

section

variable {config : Config} {heap : Heap} {live live' : List Nat} {blocks before rest : List Block} {block : Block}
  {free' : Int}

/-- An element is in use or not. -/
theorem element_unique (apart : (blocks.map Block.elems).Pairwise (Apart config))
    (used : Element config blocks true ptr) (unused : Element config blocks false ptr) : False := by
  obtain ⟨block, member, index, below, rfl, isUsed⟩ := used
  obtain ⟨other, member', place, below', same, isUnused⟩ := unused
  have positive := elemSize_pos config
  obtain ⟨before, rest, rfl⟩ := List.append_of_mem member
  have around (here : other ∈ before ∨ other ∈ rest) : False := by
    have differ := address_apart (apart_middle apart here) below' below
    omega
  rcases List.mem_append.mp member' with here | here
  · exact around (.inl here)
  · rcases List.mem_cons.mp here with rfl | here
    · obtain rfl := address_inj other same
      rw [isUsed] at isUnused
      cases isUnused
    · exact around (.inr here)

/-- One bit of one block changes, and the list of live elements with it. -/
theorem State.Sound.replace {block' : Block} (sound : State.Sound config ⟨heap, live⟩) (flag : Bool)
    (blocks : heap.blocks = before ++ block :: rest) (same : block'.elems = block.elems)
    (sound' : block'.Sound config) (below : index < config.elemsPerBlock)
    (bits : ∀ other, bit block'.allocMap other = if other = index then flag else bit block.allocMap other)
    (free : free' + clears block.allocMap config.elemsPerBlock =
      heap.freeElems + clears block'.allocMap config.elemsPerBlock)
    (lives : ∀ ptr, ptr ∈ live' ↔ (ptr = block.address config index ∧ flag = true) ∨
      (ptr ≠ block.address config index ∧ ptr ∈ live)) (once : live'.Nodup) :
    State.Sound config ⟨{ heap with blocks := before ++ block' :: rest, freeElems := free' }, live'⟩ := by
  obtain ⟨sounds, apart, total, old, -⟩ := sound
  dsimp only at sounds apart total old
  rw [blocks] at sounds apart total old
  refine ⟨?_, ?_, ?_, ?_, once⟩
  · intro other member
    rcases List.mem_append.mp member with here | here
    · exact sounds other (List.mem_append_left _ here)
    · rcases List.mem_cons.mp here with rfl | here
      · exact sound'
      · exact sounds other (by simp [here])
  · rw [List.map_append, List.map_cons] at apart ⊢
    rw [same]
    exact apart
  · rw [totalFree_append, totalFree] at total ⊢
    dsimp only
    omega
  · intro ptr
    rw [lives, element_replace flag apart same below bits, old]

/-- A free element is handed out. -/
theorem State.Sound.take (sound : State.Sound config ⟨heap, live⟩) (blocks : heap.blocks = before ++ block :: rest)
    (low : unit < config.numlongs) (small : ctr < 64) (below : unit * 64 + ctr < config.elemsPerBlock)
    (clear : bit block.allocMap (unit * 64 + ctr) = false) :
    block.address config (unit * 64 + ctr) ∉ live ∧
      State.Sound config
        ⟨{ heap with
            blocks := before ++
              { block with allocMap := mark block.allocMap unit ctr, freeElems := block.freeElems - 1 } :: rest
            freeElems := heap.freeElems - 1 },
          block.address config (unit * 64 + ctr) :: live⟩ := by
  have here := sound.blocks block (by simp [blocks])
  have inside : unit < block.allocMap.length := Nat.lt_of_lt_of_le low here.long
  have counted := Bitmap.clears_mark inside small below clear
  have fresh : block.address config (unit * 64 + ctr) ∉ live := by
    intro member
    refine element_unique sound.apart ((sound.live _).mp member) ⟨block, ?_, _, below, rfl, clear⟩
    simp [blocks]
  refine ⟨fresh, sound.replace true blocks rfl ?_ below ?_ ?_ ?_ ?_⟩
  · refine ⟨here.endElem, ?_, ?_⟩
    · rw [mark, List.length_set]
      exact here.long
    · have free := here.freeElems
      dsimp only
      omega
  · intro other
    rw [Bitmap.bit_mark inside small]
    split
    next same => simp [same]
    next differs => simp [differs]
  · dsimp only
    omega
  · intro ptr
    rw [List.mem_cons]
    by_cases same : ptr = block.address config (unit * 64 + ctr)
    · simp [same]
    · simp [same]
  · exact List.nodup_cons.mpr ⟨fresh, sound.once⟩

private theorem bits_unmark (sound : block.Sound config) (below : index < config.elemsPerBlock) (other : Nat) :
    bit (unmark block.allocMap (index / 64) (index % 64)) other =
      if other = index then false else bit block.allocMap other := by
  have inside : index / 64 < block.allocMap.length := Nat.lt_of_lt_of_le (unit_lt below) sound.long
  have place : index / 64 * 64 + index % 64 = index := by omega
  rw [Bitmap.bit_unmark inside (Nat.mod_lt _ (by decide)), place]
  split
  next same => simp [same]
  next differs => simp [differs]

/-- A live element is given back. -/
theorem State.Sound.give (sound : State.Sound config ⟨heap, live⟩) (blocks : heap.blocks = before ++ block :: rest)
    (below : index < config.elemsPerBlock) (used : bit block.allocMap index = true) :
    State.Sound config
      ⟨{ heap with
          blocks := before ++
            { block with
              allocMap := unmark block.allocMap (index / 64) (index % 64)
              freeElems := block.freeElems + 1 } :: rest
          freeElems := heap.freeElems + 1 },
        live.erase (block.address config index)⟩ := by
  have here := sound.blocks block (by simp [blocks])
  have inside : index / 64 < block.allocMap.length := Nat.lt_of_lt_of_le (unit_lt below) here.long
  have small : index % 64 < 64 := Nat.mod_lt _ (by decide)
  have place : index / 64 * 64 + index % 64 = index := by omega
  have counted := Bitmap.clears_unmark inside small (place.symm ▸ below) (place.symm ▸ used)
  refine sound.replace false blocks rfl ?_ below ?_ ?_ ?_ (sound.once.erase _)
  · refine ⟨here.endElem, ?_, ?_⟩
    · rw [unmark, List.length_set]
      exact here.long
    · have free := here.freeElems
      dsimp only
      omega
  · exact bits_unmark here below
  · dsimp only
    omega
  · intro ptr
    rw [sound.once.mem_erase_iff]
    simp

theorem bit_replicate (count index : Nat) : bit (List.replicate count 0) index = false := by
  have zero : (List.replicate count (0 : BitVec 64)).getD (index / 64) 0 = 0 := by
    rw [List.getD_eq_getElem?_getD, List.getElem?_replicate]
    split <;> rfl
  rw [bit, zero]
  exact BitVec.getLsbD_zero

/-- A block that is new has no element in use. -/
theorem State.Sound.newblock (sound : State.Sound config ⟨heap, live⟩)
    (apart : ∀ block ∈ heap.blocks, Apart config malloc block.elems) :
    State.Sound config ⟨heap.newblock config malloc, live⟩ := by
  have whole : clears (List.replicate (config.numlongs + 1) 0) config.elemsPerBlock = config.elemsPerBlock :=
    Bitmap.clears_eq fun index _ => bit_replicate _ index
  refine ⟨?_, ?_, ?_, ?_, sound.once⟩
  · intro block member
    rcases List.mem_cons.mp member with rfl | member
    · refine ⟨rfl, ?_, ?_⟩
      · rw [List.length_replicate]
        exact Nat.le_succ _
      · rw [whole]
    · exact sound.blocks block member
  · rw [Heap.newblock, List.map_cons, List.pairwise_cons]
    refine ⟨fun elems member => ?_, sound.apart⟩
    obtain ⟨block, here, rfl⟩ := List.mem_map.mp member
    exact apart block here
  · have free := sound.free
    simp only [Heap.newblock, totalFree, whole]
    dsimp only at free
    omega
  · intro ptr
    rw [sound.live]
    constructor
    · rintro ⟨block, member, used⟩
      exact ⟨block, List.mem_cons_of_mem _ member, used⟩
    · rintro ⟨block, member, index, below, same, used⟩
      rcases List.mem_cons.mp member with rfl | member
      · rw [bit_replicate] at used
        cases used
      · exact ⟨block, member, index, below, same, used⟩

theorem State.Sound.alloc (sound : State.Sound config ⟨heap, live⟩)
    (apart : ∀ block ∈ heap.blocks, Apart config malloc block.elems) :
    ∃ ptr after, heap.blockHeapAlloc config malloc = (some ptr, after) ∧ ptr ∉ live ∧
      State.Sound config ⟨after, ptr :: live⟩ := by
  unfold Heap.blockHeapAlloc
  split
  next full =>
    have fresh := sound.newblock apart
    have first : (heap.newblock config malloc).blocks = [] ++ (heap.newblock config malloc).blocks := rfl
    have low : 0 < config.numlongs := Nat.lt_of_le_of_lt (Nat.zero_le _) (unit_lt config.some)
    obtain ⟨absent, taken⟩ := fresh.take first low (show 0 < 64 by decide) config.some (bit_replicate _ _)
    refine ⟨_, _, rfl, ?_, ?_⟩
    · simpa [Block.address] using absent
    · simpa [Block.address, mark, Heap.newblock] using taken
  next more =>
    have free := sound.free
    dsimp only at free
    obtain ⟨before, block, rest, unit, ctr, blocks, low, small, below, clear, found⟩ :=
      allocFrom_spec sound.blocks (show 0 < totalFree config heap.blocks by omega)
    obtain ⟨absent, taken⟩ := sound.take blocks low small below clear
    rw [found]
    exact ⟨_, _, rfl, absent, taken⟩

theorem State.Sound.freed (sound : State.Sound config ⟨heap, live⟩) (member : ptr ∈ live) :
    ∃ after, heap.blockHeapFree config ptr = some (0, after) ∧ State.Sound config ⟨after, live.erase ptr⟩ ∧
      ∀ other, Element config after.blocks false other ↔ Element config heap.blocks false other ∨ other = ptr := by
  obtain ⟨block, here, index, below, rfl, used⟩ := (sound.live ptr).mp member
  obtain ⟨before, rest, blocks⟩ := List.append_of_mem here
  dsimp only at blocks
  have given := sound.give blocks below used
  have apart := sound.apart
  have sounds := sound.blocks
  dsimp only at apart sounds
  rw [blocks] at apart sounds
  have found := freeFrom_spec apart sounds below used
  refine ⟨_, ?_, given, ?_⟩
  · rw [Heap.blockHeapFree, blocks, found]
  · intro other
    have bits := bits_unmark (sounds block (by simp)) below
    refine Iff.trans (element_replace false apart ?_ below ?_ false other) ?_
    · rfl
    · exact bits
    rw [blocks]
    constructor
    · rintro (⟨same, -⟩ | ⟨-, unused⟩)
      · exact .inr same
      · exact .inl unused
    · intro available
      by_cases same : other = block.address config index
      · exact .inl ⟨same, rfl⟩
      · exact .inr ⟨same, available.resolve_right same⟩

theorem State.Sound.collect (sound : State.Sound config ⟨heap, live⟩) :
    State.Sound config ⟨heap.blockHeapGarbageCollect config, live⟩ ∧
      ∀ block ∈ heap.blocks, (∃ index < config.elemsPerBlock, bit block.allocMap index = true) →
        block ∈ (heap.blockHeapGarbageCollect config).blocks := by
  unfold Heap.blockHeapGarbageCollect
  split
  · exact ⟨sound, fun block member _ => member⟩
  · obtain ⟨blocks, free⟩ := collectFrom_spec config { heap with blocks := [] } heap.blocks
    rw [List.nil_append] at blocks
    have stays (block : Block) (member : block ∈ heap.blocks)
        (used : ∃ index < config.elemsPerBlock, bit block.allocMap index = true) :
        block ∈ heap.blocks.filter fun block => !block.unused config := by
      refine List.mem_filter.mpr ⟨member, ?_⟩
      obtain ⟨index, below, set⟩ := used
      rw [Bool.not_eq_true']
      apply Bool.eq_false_iff.mpr
      intro unused
      rw [bit_of_unused unused below] at set
      cases set
    refine ⟨⟨?_, ?_, ?_, ?_, sound.once⟩, ?_⟩
    · dsimp only
      rw [blocks]
      exact fun block member => sound.blocks block (List.mem_filter.mp member).1
    · dsimp only
      rw [blocks]
      exact sound.apart.sublist (List.filter_sublist.map _)
    · have total := sound.free
      dsimp only at total free ⊢
      rw [blocks]
      omega
    · intro ptr
      dsimp only
      rw [sound.live, blocks]
      constructor
      · rintro ⟨block, member, index, below, same, used⟩
        exact ⟨block, stays block member ⟨index, below, used⟩, index, below, same, used⟩
      · rintro ⟨block, member, rest⟩
        exact ⟨block, (List.mem_filter.mp member).1, rest⟩
    · intro block member used
      rw [blocks]
      exact stays block member used

theorem State.Sound.perform {state : State} (sound : state.Sound config) (possible : state.Possible config action) :
    (state.perform config action).Sound config := by
  cases action with
  | alloc malloc =>
    obtain ⟨ptr, after, result, -, taken⟩ := sound.alloc possible
    simp only [State.perform, result]
    exact taken
  | free ptr =>
    obtain ⟨after, result, given, -⟩ := sound.freed possible
    simp only [State.perform, result]
    exact given
  | collect => exact sound.collect.1

theorem State.Sound.start (config : Config) (elems : Nat) : (State.start config elems).Sound config := by
  have none : State.Sound config ⟨⟨[], 0, 0⟩, []⟩ := by
    refine ⟨by simp, List.Pairwise.nil, rfl, ?_, List.nodup_nil⟩
    simp [Element]
  exact none.newblock (by simp)

end

/-- The elements that are not live, block by block. -/
def unallocated (config : Config) (live : List Nat) : List Block → Nat
  | [] => 0
  | block :: rest =>
    ((List.range config.elemsPerBlock).countP fun index => block.address config index ∉ live) +
      unallocated config live rest

/-- What the allocator promises in a state, and for the next operation. -/
structure State.Correct (config : Config) (state : State) : Prop where
  inside : ∀ ptr ∈ state.live, ∃ block ∈ state.heap.blocks,
    block.elems ≤ ptr ∧ ptr + config.elemSize ≤ block.elems + config.blockBytes
  apart : ∀ first ∈ state.live, ∀ second ∈ state.live, first ≠ second →
    first + config.elemSize ≤ second ∨ second + config.elemSize ≤ first
  once : state.live.Nodup
  freeElems : state.heap.freeElems = unallocated config state.live state.heap.blocks
  alloc : ∀ malloc, state.Possible config (.alloc malloc) →
    ∃ ptr after, state.heap.blockHeapAlloc config malloc = (some ptr, after) ∧ ptr ∉ state.live
  free : ∀ ptr ∈ state.live, ∃ after, state.heap.blockHeapFree config ptr = some (0, after) ∧
    ∀ other, Element config after.blocks false other ↔ Element config state.heap.blocks false other ∨ other = ptr
  collect : ∀ block ∈ state.heap.blocks,
    (∃ ptr ∈ state.live, block.elems ≤ ptr ∧ ptr < block.elems + config.blockBytes) →
      block ∈ (state.heap.blockHeapGarbageCollect config).blocks

section

variable {config : Config} {state : State}

/-- A live element within the bytes of a block is one of its elements. -/
private theorem used_of_within (sound : state.Sound config) (member : block ∈ state.heap.blocks) (live : ptr ∈ state.live)
    (least : block.elems ≤ ptr) (most : ptr < block.elems + config.blockBytes) :
    ∃ index < config.elemsPerBlock, ptr = block.address config index ∧ bit block.allocMap index = true := by
  obtain ⟨other, here, index, below, rfl, used⟩ := (sound.live ptr).mp live
  have apart := sound.apart
  obtain ⟨before, rest, blocks⟩ := List.append_of_mem member
  rw [blocks] at here apart
  have within := address_inside other below
  have positive := elemSize_pos config
  have around (around : other ∈ before ∨ other ∈ rest) : False := by
    have least' : other.elems ≤ other.address config index := elems_le_address other
    rcases apart_middle apart around with separate | separate
    · omega
    · omega
  rcases List.mem_append.mp here with here | here
  · exact (around (.inl here)).elim
  · rcases List.mem_cons.mp here with rfl | here
    · exact ⟨index, below, rfl, used⟩
    · exact (around (.inr here)).elim

theorem unallocated_eq (sound : state.Sound config) (subset : ∀ block ∈ blocks, block ∈ state.heap.blocks) :
    unallocated config state.live blocks = totalFree config blocks := by
  induction blocks with
  | nil => rfl
  | cons block rest ih =>
    rw [unallocated, totalFree, ih fun other member => subset other (List.mem_cons_of_mem _ member)]
    congr 1
    refine List.countP_congr fun index member => ?_
    have below := List.mem_range.mp member
    have here := subset block List.mem_cons_self
    have live : block.address config index ∈ state.live ↔ bit block.allocMap index = true := by
      constructor
      · intro live
        have most := address_inside block below
        have positive := elemSize_pos config
        obtain ⟨place, inside, same, used⟩ := used_of_within sound here live (elems_le_address block) (by omega)
        rw [address_inj block same]
        exact used
      · intro used
        exact (sound.live _).mpr ⟨block, here, index, below, rfl, used⟩
    simp [live]

theorem State.Sound.correct (sound : state.Sound config) : state.Correct config where
  inside := by
    intro ptr live
    obtain ⟨block, member, index, below, rfl, -⟩ := (sound.live ptr).mp live
    exact ⟨block, member, elems_le_address block, address_inside block below⟩
  apart := by
    intro first live second live' differ
    obtain ⟨block, member, index, below, rfl, -⟩ := (sound.live first).mp live
    obtain ⟨other, member', place, below', rfl, -⟩ := (sound.live second).mp live'
    exact element_apart sound.apart member member' below below' differ
  once := sound.once
  freeElems := by
    rw [sound.free, unallocated_eq sound fun _ member => member]
  alloc := by
    intro malloc possible
    obtain ⟨ptr, after, result, fresh, -⟩ := sound.alloc possible
    exact ⟨ptr, after, result, fresh⟩
  free := by
    intro ptr live
    obtain ⟨after, result, -, available⟩ := sound.freed live
    exact ⟨after, result, available⟩
  collect := by
    rintro block member ⟨ptr, live, least, most⟩
    obtain ⟨index, below, -, used⟩ := used_of_within sound member live least most
    exact sound.collect.2 block member ⟨index, below, used⟩

end

/-- Whatever is allocated, freed and collected, live elements are inside the blocks and
apart, the counter is the number of the others, and the next operation keeps to it. -/
theorem blockHeap_correct (config : Config) (elems : Nat)
    (run : (machine config).Run Machine.Any (.start config elems) final) : final.Correct config :=
  (run.invariant (State.Sound config) (fun _ _ possible _ sound => sound.perform possible)
    (.start config elems)).correct

/-- Blocks of two elements of twelve bytes, which become sixteen. -/
def pairs : Config := ⟨12, 2, by decide, by decide, by decide⟩

/-- An element is handed out and given back, and the heap is collected. -/
theorem pairs_correct : ∃ ptr, (State.perform pairs (.start pairs 4096) (.alloc 8192)).live = [ptr] ∧
    ([.alloc 8192, .free ptr, .collect].foldl (machine pairs).perform (.start pairs 4096)).Correct pairs := by
  have apart : State.Possible pairs (State.start pairs 4096) (.alloc 8192) := by
    intro block member
    obtain rfl : block = _ := List.mem_singleton.mp member
    exact .inr (by decide)
  obtain ⟨ptr, after, result, -⟩ := (blockHeap_correct pairs 4096 (.refl _)).alloc 8192 apart
  have live : (State.perform pairs (.start pairs 4096) (.alloc 8192)).live = [ptr] := by
    rw [State.perform, result]
    rfl
  have freed : ptr ∈ (State.perform pairs (.start pairs 4096) (.alloc 8192)).live := live ▸ List.mem_singleton_self ptr
  exact ⟨ptr, live, blockHeap_correct pairs 4096
    (.tail (.tail (.tail (.refl _) apart trivial) freed trivial) trivial trivial)⟩

end SolidIrcd.Blalloc
