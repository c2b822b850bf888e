import Kernull.Library.ByteMemory
import Kernull.MmConstants

/-!
# The kernel heap

A translation of `kernel/kmalloc.c`.  A block is a `size` word followed by its
payload; while the block is free the first payload word is the pointer to the
next free block.  Both words are read and written in byte-addressed memory, so
that overlapping blocks interfere as they do in the source.

`sbrk` is represented by its effect on `heap_end`: memory above the old end of
the heap is taken to be mapped and holds arbitrary bytes.  The two loops walk
the free list; since pointers are below `2 ^ 64`, a walk that has not stopped
after `2 ^ 64` nodes never stops, and its result is `none`.
-/

namespace Kernull.Kmalloc

open Kernull.Mm
open Kernull.Library.ByteMemory

/-- `sizeof(size_t)`. -/
def sizeofSizeT : Nat := 8

/-- `sizeof(block_t)`. -/
def sizeofBlock : Nat := 16

/-! ## Block headers -/

/-- `block->size`. -/
def blockSize (memory : Memory) (block : Nat) : Nat :=
  readBytes memory block 8

/-- `block->next`. -/
def blockNext (memory : Memory) (block : Nat) : Nat :=
  readBytes memory (block + 8) 8

/-- `block->size = size`. -/
def setSize (memory : Memory) (block size : Nat) : Memory :=
  writeBytes memory block 8 size

/-- `block->next = next`. -/
def setNext (memory : Memory) (block next : Nat) : Memory :=
  writeBytes memory (block + 8) 8 next

/-- The two header words of different blocks do not overlap. -/
def HeadersApart (left right : Nat) : Prop :=
  left + 16 ≤ right ∨ right + 16 ≤ left

theorem blockSize_lt (memory : Memory) (block : Nat) :
    blockSize memory block < 2 ^ 64 :=
  readBytes_lt memory block 8

theorem blockNext_lt (memory : Memory) (block : Nat) :
    blockNext memory block < 2 ^ 64 :=
  readBytes_lt memory (block + 8) 8

section HeaderAccess

variable {memory : Memory} {block other value : Nat}

theorem blockSize_setSize_same (small : value < 2 ^ 64) :
    blockSize (setSize memory block value) block = value := by
  rw [blockSize, setSize, readBytes_writeBytes_same]
  exact Nat.mod_eq_of_lt small

theorem blockSize_setSize_of_apart (apart : HeadersApart block other) :
    blockSize (setSize memory block value) other =
      blockSize memory other := by
  unfold HeadersApart at apart
  exact readBytes_writeBytes_of_disjoint memory value (by omega)

@[simp]
theorem blockSize_setNext_same :
    blockSize (setNext memory block value) block =
      blockSize memory block :=
  readBytes_writeBytes_of_disjoint memory value (by omega)

theorem blockSize_setNext_of_apart (apart : HeadersApart block other) :
    blockSize (setNext memory block value) other =
      blockSize memory other := by
  unfold HeadersApart at apart
  exact readBytes_writeBytes_of_disjoint memory value (by omega)

@[simp]
theorem blockNext_setSize_same :
    blockNext (setSize memory block value) block =
      blockNext memory block :=
  readBytes_writeBytes_of_disjoint memory value (by omega)

theorem blockNext_setSize_of_apart (apart : HeadersApart block other) :
    blockNext (setSize memory block value) other =
      blockNext memory other := by
  unfold HeadersApart at apart
  exact readBytes_writeBytes_of_disjoint memory value (by omega)

theorem blockNext_setNext_same (small : value < 2 ^ 64) :
    blockNext (setNext memory block value) block = value := by
  rw [blockNext, setNext, readBytes_writeBytes_same]
  exact Nat.mod_eq_of_lt small

theorem blockNext_setNext_of_apart (apart : HeadersApart block other) :
    blockNext (setNext memory block value) other =
      blockNext memory other := by
  unfold HeadersApart at apart
  exact readBytes_writeBytes_of_disjoint memory value (by omega)

end HeaderAccess

/-! ## Heap state and `sbrk` -/

/--
The allocator's variables, the memory they point into and the value that
`mmu_total_memory` returns.
-/
structure Heap where
  memory : Memory
  freeBlockList : Nat
  heapStart : Nat
  heapEnd : Nat
  totalMemory : Nat

/-- `sbrk`: move the end of the heap by whole pages, return the old end. -/
def sbrk (incr : Nat) (heap : Heap) : Nat × Heap :=
  if incr = 0 then (heap.heapEnd, heap)
  else
    (heap.heapEnd,
      { heap with heapEnd := (heap.heapEnd + pageRound incr) % 2 ^ 64 })

/-- `kheap_allocator_init`; `none` when one of its assertions aborts. -/
def kheapAllocatorInit (start : Nat) (heap : Heap) : Option Heap :=
  if kernelHeapStart ≤ start ∧ start % pageSize = 0 then
    some { heap with
      heapStart := start, heapEnd := start, freeBlockList := null }
  else none

/-! ## Splitting and coalescing -/

/-- `split_block`: the memory afterwards and the next free block. -/
def splitBlock (memory : Memory) (block size : Nat) : Memory × Nat :=
  let rem := sub64 (blockSize memory block) size
  if sizeofBlock < rem then
    let memory := setSize memory block size
    let remBlock := (block + sizeofSizeT + size) % 2 ^ 64
    let memory := setSize memory remBlock (rem - sizeofSizeT)
    let memory := setNext memory remBlock (blockNext memory block)
    let memory := setNext memory block null
    (memory, remBlock)
  else (memory, blockNext memory block)

/-- `are_adjacent`. -/
def areAdjacent (memory : Memory) (block next : Nat) : Prop :=
  (block + (blockSize memory block + sizeofSizeT)) % 2 ^ 64 = next

instance (memory : Memory) (block next : Nat) :
    Decidable (areAdjacent memory block next) :=
  inferInstanceAs (Decidable (_ = _))

/-- `coalesce_blocks`. -/
def coalesceBlocks (memory : Memory) (block next : Nat) : Memory :=
  let memory := setSize memory block
    ((blockSize memory block + (blockSize memory next + sizeofSizeT)) %
      2 ^ 64)
  let memory := setNext memory block (blockNext memory next)
  let memory := setSize memory next 0
  setNext memory next null

/-! ## `kmalloc` -/

/-- The number of nodes after which a walk is known not to stop. -/
@[irreducible]
def walkLimit : Nat := 2 ^ 64

/-- The block of `kmalloc`'s "No blocks" branch. -/
def openHeap (size : Nat) (heap : Heap) : Heap :=
  if heap.freeBlockList = null then
    let opened := sbrk ((size + sizeofSizeT) % 2 ^ 64) heap
    let block := opened.1
    let memory := setSize opened.2.memory block
      (sub64 opened.2.heapEnd block)
    { opened.2 with
      memory := setNext memory block null, freeBlockList := block }
  else heap

/--
The "Next blocks check" loop.  The inner result is the predecessor and the
block that fits, or `none` at the end of the list.
-/
def nextFit (memory : Memory) (size : Nat) :
    Nat → Nat → Nat → Option (Option (Nat × Nat))
  | 0, _, _ => none
  | fuel + 1, prev, block =>
      if block = null then some none
      else if blockSize memory block < size then
        nextFit memory size fuel block (blockNext memory block)
      else some (some (prev, block))

/--
The "First Fit allocation" part of `kmalloc`: the first block, the next
blocks, or a block of its own at the end of the heap.
-/
def firstFitAllocation (size : Nat) (heap : Heap) : Option (Nat × Heap) :=
  let first := heap.freeBlockList
  if size ≤ blockSize heap.memory first then
    let split := splitBlock heap.memory first size
    some ((first + 8) % 2 ^ 64,
      { heap with memory := split.1, freeBlockList := split.2 })
  else
    match nextFit heap.memory size walkLimit first
        (blockNext heap.memory first) with
    | none => none
    | some (some (prev, block)) =>
        let split := splitBlock heap.memory block size
        some ((block + 8) % 2 ^ 64,
          { heap with memory := setNext split.1 prev split.2 })
    | some none =>
        let extended := sbrk ((size + sizeofSizeT) % 2 ^ 64) heap
        let new := extended.1
        let memory := setSize extended.2.memory new size
        some ((new + 8) % 2 ^ 64,
          { extended.2 with memory := setNext memory new null })

/-- `kmalloc`: the returned pointer and the heap, `none` if it loops. -/
def kmalloc (size : Nat) (heap : Heap) : Option (Nat × Heap) :=
  if heap.totalMemory < size then some (null, heap)
  else firstFitAllocation size (openHeap size heap)

/-! ## `kfree` -/

/-- The "Many blocks" loop: where the freed block is inserted. -/
def findPlace (memory : Memory) (freed : Nat) :
    Nat → Nat → Nat → Option (Nat × Nat)
  | 0, _, _ => none
  | fuel + 1, prev, block =>
      if block < freed ∧ block ≠ null then
        findPlace memory freed fuel block (blockNext memory block)
      else some (prev, block)

/-- `kfree`: the heap afterwards, `none` if it loops. -/
def kfree (ptr : Nat) (heap : Heap) : Option Heap :=
  let freed := sub64 ptr sizeofSizeT
  let memory := setNext heap.memory freed null
  if heap.freeBlockList = null then
    some { heap with memory := memory, freeBlockList := freed }
  else if blockNext memory heap.freeBlockList = null then
    let left :=
      if heap.freeBlockList < freed then heap.freeBlockList else freed
    let right :=
      if heap.freeBlockList < freed then freed else heap.freeBlockList
    let memory := setNext memory left right
    let memory :=
      if areAdjacent memory left right then coalesceBlocks memory left right
      else memory
    some { heap with memory := memory, freeBlockList := left }
  else
    match findPlace memory freed walkLimit heap.freeBlockList
        (blockNext memory heap.freeBlockList) with
    | none => none
    | some (prev, block) =>
        let memory := setNext memory prev freed
        let memory := setNext memory freed block
        let memory :=
          if block ≠ null ∧ areAdjacent memory freed block then
            coalesceBlocks memory freed block
          else memory
        let memory :=
          if areAdjacent memory prev freed then
            coalesceBlocks memory prev freed
          else memory
        some { heap with memory := memory }

end Kernull.Kmalloc
