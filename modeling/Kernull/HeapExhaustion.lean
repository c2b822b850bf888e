import Kernull.FrameSearch
import Kernull.HeapGrowth
import Kernull.Library.LinkedList
import Kernull.MemoryCounters

/-!
# Running out of memory

`kmalloc` with the frames that `sbrk` takes.  `page_alloc` does not report that
it has no frame; `map_addr_in` and `sbrk` go on with the value that the search
for one leaves, which is a parameter here as in `Kernull.FrameSearch`.  None
of the functions returns a status, so that `kmalloc` hands out a pointer
whether or not the heap has grown.  The one request that it refuses is one for
more than the memory that was counted at boot.
-/

namespace Kernull.HeapExhaustion

open Kernull.Mm
open Kernull.Pml
open Kernull.PageAlloc
open Kernull.FrameSearch
open Kernull.PageTables
open Kernull.MapAddr
open Kernull.Kmalloc
open Kernull.MmuInit
open Kernull.MemoryCounters
open Kernull.Library.ByteMemory
open Kernull.Library.LinkedList

/-- `mmu_total_memory`. -/
def mmuTotalMemory (kernel : Kernel) : Nat :=
  getTotalMemory kernel.mm.allocator

section Total

variable (fallOff : PageAllocator → Nat)

/-! ## Mapping for every result of the search -/

/-- One iteration of the loop of `map_addr_in`. -/
def mapStepOr (pageAddr : Nat) (current : Nat × MmState) (i : Nat) :
    Nat × MmState :=
  let (table, state) := current
  let idx := tableIndex pageAddr (27 - i * 9)
  if present (entryAt state.memory table idx) then
    (nextTable (entryAt state.memory table idx), state)
  else
    let allocated := pageAllocOr fallOff 0 pmlFlagWritable state.allocator
    let memory := storeEntry state.memory table idx allocated.1
    (nextTable (entryAt memory table idx), ⟨memory, allocated.2⟩)

/-- `map_addr_in`; `none` when an assertion fails. -/
def mapAddrInOr (pml4 virtAddr physAddr : Nat) (flags : BitVec 64)
    (state : MmState) : Option MmState :=
  if physAddr &&& pageLowMask ≠ 0 then none
  else if virtAddr &&& pageLowMask ≠ 0 then none
  else
    let pageAddr := virtAddr >>> 12
    let (table, state) :=
      [0, 1, 2].foldl (mapStepOr fallOff pageAddr) (pml4, state)
    let idx := pageAddr &&& pmlEntryMask
    some { state with
      memory := storeEntry state.memory table idx
        (leafEntry physAddr flags (entryAt state.memory table idx)) }

/-- `map_addr`. -/
def mapAddrOr (virtAddr physAddr : Nat) (flags : BitVec 64)
    (kernel : Kernel) : Option Kernel :=
  (mapAddrInOr fallOff kernel.currentPml4 virtAddr physAddr flags
    kernel.mm).map fun mm => { kernel with mm := mm }

/-! ## `sbrk` and `kmalloc` -/

/-- One iteration of the loop of `sbrk`. -/
def sbrkStepOr (kernel : Kernel) : Option Kernel :=
  let (page, allocator) :=
    pageAllocOr fallOff 0 pmlFlagWritable kernel.mm.allocator
  let paddr := (address page <<< 12) % 2 ^ 64
  (mapAddrOr fallOff kernel.heap.heapEnd paddr pmlFlagWritable
      { kernel with mm := ⟨kernel.mm.memory, allocator⟩ }).map
    fun mapped =>
      { mapped with
        heap := { mapped.heap with
          heapEnd := (mapped.heap.heapEnd + pageSize) % 2 ^ 64 } }

/-- The loop of `sbrk` for the given number of pages. -/
def sbrkPagesOr : Nat → Kernel → Option Kernel
  | 0, kernel => some kernel
  | pages + 1, kernel => (sbrkPagesOr pages kernel).bind (sbrkStepOr fallOff)

/-- `sbrk`. -/
def sbrkOr (incr : Nat) (kernel : Kernel) : Option (Nat × Kernel) :=
  if incr = 0 then some (kernel.heap.heapEnd, kernel)
  else
    (sbrkPagesOr fallOff (pageRound incr / pageSize) kernel).map fun grown =>
      (kernel.heap.heapEnd, grown)

/-- The "No blocks" branch of `kmalloc`. -/
def openHeapOr (size : Nat) (kernel : Kernel) : Option Kernel :=
  if kernel.heap.freeBlockList = null then
    (sbrkOr fallOff ((size + sizeofSizeT) % 2 ^ 64) kernel).map fun opened =>
      let (block, kernel) := opened
      let memory := setSize kernel.heap.memory block
        (sub64 kernel.heap.heapEnd block)
      { kernel with
        heap := { kernel.heap with
          memory := setNext memory block null, freeBlockList := block } }
  else some kernel

/-- The "First Fit allocation" part of `kmalloc`. -/
def firstFitAllocationOr (size : Nat) (kernel : Kernel) :
    Option (Nat × Kernel) :=
  let heap := kernel.heap
  let first := heap.freeBlockList
  if size ≤ blockSize heap.memory first then
    let split := splitBlock heap.memory first size
    some ((first + 8) % 2 ^ 64,
      { kernel with
        heap := { heap with memory := split.1, freeBlockList := split.2 } })
  else
    match nextFit heap.memory size walkLimit first
        (blockNext heap.memory first) with
    | none => none
    | some (some (prev, block)) =>
        let split := splitBlock heap.memory block size
        some ((block + 8) % 2 ^ 64,
          { kernel with
            heap := { heap with memory := setNext split.1 prev split.2 } })
    | some none =>
        (sbrkOr fallOff ((size + sizeofSizeT) % 2 ^ 64) kernel).map
          fun extended =>
            let (new, kernel) := extended
            let memory := setSize kernel.heap.memory new size
            ((new + 8) % 2 ^ 64,
              { kernel with
                heap := { kernel.heap with
                  memory := setNext memory new null } })

/-- `kmalloc`. -/
def kmallocOr (size : Nat) (kernel : Kernel) : Option (Nat × Kernel) :=
  if mmuTotalMemory kernel < size then some (null, kernel)
  else (openHeapOr fallOff size kernel).bind (firstFitAllocationOr fallOff size)

end Total

/-! ## Agreement with the model that fails -/

section Agreement

variable (fallOff : PageAllocator → Nat)

/-- A fold that always succeeds in one monad is a fold without it. -/
theorem foldl_of_foldlM
    {State Item : Type} {step : State → Item → Option State}
    {total : State → Item → State}
    (agree : ∀ state item next, step state item = some next →
      total state item = next)
    (items : List Item) {state result : State}
    (folds : items.foldlM step state = some result) :
    items.foldl total state = result := by
  induction items generalizing state with
  | nil => exact Option.some.inj folds
  | cons item items inductionHypothesis =>
      rw [List.foldlM_cons, Option.bind_eq_bind,
        Option.bind_eq_some_iff] at folds
      obtain ⟨next, steps, onwards⟩ := folds
      rw [List.foldl_cons, agree state item next steps]
      exact inductionHypothesis onwards

theorem mapStepOr_of_mapStep
    {pageAddr : Nat} (current : Nat × MmState) (i : Nat)
    (result : Nat × MmState)
    (steps : mapStep pageAddr current i = some result) :
    mapStepOr fallOff pageAddr current i = result := by
  simp only [mapStep] at steps
  simp only [mapStepOr]
  split_ifs at steps ⊢ with found
  · exact Option.some.inj steps
  · obtain ⟨allocated, allocates, rfl⟩ := Option.map_eq_some_iff.mp steps
    rw [pageAllocOr_of_pageAlloc fallOff allocates]

theorem mapAddrInOr_of_mapAddrIn
    {pml4 virtAddr physAddr : Nat} {flags : BitVec 64}
    {state next : MmState}
    (maps : mapAddrIn pml4 virtAddr physAddr flags state = some next) :
    mapAddrInOr fallOff pml4 virtAddr physAddr flags state = some next := by
  rw [mapAddrIn] at maps
  rw [mapAddrInOr]
  split_ifs at maps ⊢
  obtain ⟨walked, loop, rfl⟩ := Option.map_eq_some_iff.mp maps
  simp only [foldl_of_foldlM (mapStepOr_of_mapStep fallOff) _ loop]

theorem sbrkPagesOr_of_sbrkPages
    {pages : Nat} {kernel grown : Kernel}
    (grows : HeapGrowth.sbrkPages pages kernel = some grown) :
    sbrkPagesOr fallOff pages kernel = some grown := by
  induction pages generalizing grown with
  | zero => exact grows
  | succ pages inductionHypothesis =>
      rw [HeapGrowth.sbrkPages, Option.bind_eq_some_iff] at grows
      obtain ⟨middle, earlier, last⟩ := grows
      rw [sbrkPagesOr, inductionHypothesis earlier, Option.bind_some]
      rw [HeapGrowth.sbrkStep, Option.bind_eq_some_iff] at last
      obtain ⟨allocated, allocates, last⟩ := last
      obtain ⟨mapped, maps, rfl⟩ := Option.map_eq_some_iff.mp last
      obtain ⟨mm, mapsIn, rfl⟩ := Option.map_eq_some_iff.mp maps
      simp only [sbrkStepOr, pageAllocOr_of_pageAlloc fallOff allocates,
        mapAddrOr]
      rw [mapAddrInOr_of_mapAddrIn fallOff mapsIn]
      rfl

/-- With frames enough `sbrk` does not depend on the value of the search. -/
theorem sbrkOr_of_sbrk
    {incr : Nat} {kernel : Kernel} {result : Nat × Kernel}
    (grows : HeapGrowth.sbrk incr kernel = some result) :
    sbrkOr fallOff incr kernel = some result := by
  rw [HeapGrowth.sbrk] at grows
  rw [sbrkOr]
  split_ifs at grows ⊢
  · exact grows
  · obtain ⟨grown, loop, rfl⟩ := Option.map_eq_some_iff.mp grows
    rw [sbrkPagesOr_of_sbrkPages fallOff loop, Option.map_some]

end Agreement

/-! ## What the calls do to the heap -/

section Heap

variable (fallOff : PageAllocator → Nat) {kernel : Kernel}

/-- Mapping one page at a page boundary always succeeds. -/
theorem sbrkStepOr_heap
    (aligned : kernel.heap.heapEnd % 4096 = 0) :
    ∃ next, sbrkStepOr fallOff kernel = some next ∧
      next.heap = { kernel.heap with
        heapEnd := (kernel.heap.heapEnd + pageSize) % 2 ^ 64 } := by
  have lowBits : ∀ value : Nat, value &&& pageLowMask = value % 4096 :=
    fun value => Nat.and_two_pow_sub_one_eq_mod value 12
  generalize allocates : pageAllocOr fallOff 0 pmlFlagWritable
    kernel.mm.allocator = allocated
  have physAligned : (address allocated.1 <<< 12) % 2 ^ 64 % 4096 = 0 := by
    rw [Nat.shiftLeft_eq]
    omega
  simp only [sbrkStepOr, allocates, mapAddrOr, mapAddrInOr, lowBits,
    physAligned, aligned, ne_eq, not_true_eq_false, if_false, Option.map_some]
  exact ⟨_, rfl, rfl⟩

/-- The loop of `sbrk` moves the end of the heap, whatever it maps. -/
theorem sbrkPagesOr_heap
    (aligned : kernel.heap.heapEnd % 4096 = 0)
    (pointer : kernel.heap.heapEnd < 2 ^ 64) (pages : Nat) :
    ∃ next, sbrkPagesOr fallOff pages kernel = some next ∧
      next.heap = { kernel.heap with
        heapEnd := (kernel.heap.heapEnd + pages * pageSize) % 2 ^ 64 } := by
  induction pages with
  | zero =>
      refine ⟨kernel, rfl, ?_⟩
      rw [Nat.zero_mul, Nat.add_zero, Nat.mod_eq_of_lt pointer]
  | succ pages inductionHypothesis =>
      obtain ⟨middle, earlier, moved⟩ := inductionHypothesis
      have middleAligned : middle.heap.heapEnd % 4096 = 0 := by
        rw [moved, pageSize]
        dsimp only
        omega
      obtain ⟨next, step, last⟩ := sbrkStepOr_heap fallOff middleAligned
      refine ⟨next, ?_, ?_⟩
      · rw [sbrkPagesOr, earlier, Option.bind_some, step]
      · rw [last, moved, Nat.mod_add_mod, Nat.add_assoc, Nat.succ_mul]

/-- On the heap `sbrk` acts as the block allocator assumes. -/
theorem sbrkOr_heap
    (aligned : kernel.heap.heapEnd % 4096 = 0)
    (pointer : kernel.heap.heapEnd < 2 ^ 64) (incr : Nat) :
    ∃ next, sbrkOr fallOff incr kernel =
        some ((Kmalloc.sbrk incr kernel.heap).1, next) ∧
      next.heap = (Kmalloc.sbrk incr kernel.heap).2 := by
  rw [sbrkOr, Kmalloc.sbrk]
  split_ifs with nothing
  · exact ⟨kernel, rfl, rfl⟩
  · obtain ⟨next, loop, moved⟩ := sbrkPagesOr_heap fallOff aligned pointer
      (pageRound incr / pageSize)
    have whole : pageRound incr / pageSize * pageSize = pageRound incr := by
      simp only [pageRound, pageSize]
      omega
    rw [whole] at moved
    exact ⟨next, by rw [loop, Option.map_some], moved⟩

theorem openHeapOr_heap
    (aligned : kernel.heap.heapEnd % 4096 = 0)
    (pointer : kernel.heap.heapEnd < 2 ^ 64) (size : Nat) :
    ∃ next, openHeapOr fallOff size kernel = some next ∧
      next.heap = openHeap size kernel.heap := by
  rw [openHeapOr, openHeap]
  split_ifs with empty
  · obtain ⟨next, grows, moved⟩ := sbrkOr_heap fallOff aligned pointer
      ((size + sizeofSizeT) % 2 ^ 64)
    rw [grows, Option.map_some]
    refine ⟨_, rfl, ?_⟩
    dsimp only
    rw [← moved]
  · exact ⟨kernel, rfl, rfl⟩

theorem firstFitAllocationOr_heap
    (aligned : kernel.heap.heapEnd % 4096 = 0)
    (pointer : kernel.heap.heapEnd < 2 ^ 64) {size : Nat}
    {result : Nat × Heap}
    (allocates : firstFitAllocation size kernel.heap = some result) :
    ∃ next, firstFitAllocationOr fallOff size kernel =
        some (result.1, next) ∧ next.heap = result.2 := by
  simp only [firstFitAllocation] at allocates
  simp only [firstFitAllocationOr]
  split_ifs at allocates ⊢ with fits
  · obtain rfl := Option.some.inj allocates
    exact ⟨_, rfl, rfl⟩
  · cases walk : nextFit kernel.heap.memory size walkLimit
        kernel.heap.freeBlockList
        (blockNext kernel.heap.memory kernel.heap.freeBlockList) with
    | none =>
        rw [walk] at allocates
        exact absurd allocates (by simp)
    | some found =>
        rw [walk] at allocates
        cases found with
        | none =>
            obtain ⟨next, grows, moved⟩ := sbrkOr_heap fallOff aligned pointer
              ((size + sizeofSizeT) % 2 ^ 64)
            obtain rfl := Option.some.inj allocates
            simp only [grows, Option.map_some]
            refine ⟨_, rfl, ?_⟩
            rw [← moved]
        | some place =>
            obtain rfl := Option.some.inj allocates
            exact ⟨_, rfl, rfl⟩

end Heap

/-! ## Accepted requests return a pointer -/

/--
A heap whose free list ends and passes the given blocks, none of which is
placed so high that its payload wraps around.
-/
structure HeapState (heap : Heap) (nodes : List Nat) : Prop where
  acyclic : Chain (blockNext heap.memory) null heap.freeBlockList nodes
  payloads : ∀ node ∈ nodes, node + 8 < 2 ^ 64
  aligned : heap.heapEnd % pageSize = 0
  pointer : heap.heapEnd < 2 ^ 64

section Pointers

variable {heap : Heap} {nodes : List Nat} {size : Nat}

/-- A list that ends is shorter than the limit of a walk. -/
theorem HeapState.length_lt (state : HeapState heap nodes) :
    nodes.length < walkLimit := by
  have inRange : nodes ⊆ List.range (2 ^ 64 - 8) := by
    intro node member
    have payload := state.payloads node member
    rw [List.mem_range]
    omega
  have short := (List.subperm_of_subset state.acyclic.nodup inRange).length_le
  rw [List.length_range] at short
  rw [walkLimit]
  omega

/-- The loop over the list ends, at one of its blocks or behind the last. -/
theorem nextFit_ends
    {memory : Memory} {prev pointer fuel : Nat} {rest : List Nat}
    (walk : Chain (blockNext memory) null pointer rest)
    (enough : rest.length < fuel) :
    ∃ found, nextFit memory size fuel prev pointer = some found ∧
      ∀ place ∈ found, place.2 ∈ rest := by
  induction rest generalizing fuel prev pointer with
  | nil =>
      obtain ⟨fuel, rfl⟩ :=
        Nat.exists_eq_add_one.mpr (Nat.zero_lt_of_lt enough)
      rw [nextFit, if_pos (chain_nil.mp walk)]
      exact ⟨none, rfl, by simp⟩
  | cons node rest inductionHypothesis =>
      obtain ⟨fuel, rfl⟩ :=
        Nat.exists_eq_add_one.mpr (Nat.zero_lt_of_lt enough)
      obtain ⟨rfl, nonnull, onwards⟩ := chain_cons.mp walk
      rw [nextFit, if_neg nonnull]
      split_ifs with small
      · obtain ⟨found, ends, placed⟩ := inductionHypothesis onwards
          (show rest.length < fuel by
            simp only [List.length_cons] at enough
            omega)
        exact ⟨found, ends, fun place member =>
          List.mem_cons_of_mem pointer (placed place member)⟩
      · refine ⟨some (prev, pointer), rfl, ?_⟩
        intro place member
        rw [Option.mem_some_iff] at member
        rw [← member]
        exact List.mem_cons_self

theorem payload_ne_null {node : Nat} (small : node + 8 < 2 ^ 64) :
    (node + 8) % 2 ^ 64 ≠ null := by
  rw [Nat.mod_eq_of_lt small, null]
  omega

/-- `sbrk` returns the old end of the heap and keeps the end page-aligned. -/
theorem sbrk_bounds
    (aligned : heap.heapEnd % pageSize = 0)
    (pointer : heap.heapEnd < 2 ^ 64) (incr : Nat) :
    (Kmalloc.sbrk incr heap).1 = heap.heapEnd ∧
      (Kmalloc.sbrk incr heap).2.heapEnd % pageSize = 0 ∧
      (Kmalloc.sbrk incr heap).2.heapEnd < 2 ^ 64 := by
  rw [Kmalloc.sbrk]
  split_ifs
  · exact ⟨rfl, aligned, pointer⟩
  · refine ⟨rfl, ?_, Nat.mod_lt _ (by decide)⟩
    simp only [pageRound, pageSize] at aligned ⊢
    omega

/-- First fit on a list with a block returns a pointer. -/
theorem firstFitAllocation_nonnull
    {rest : List Nat} (first : heap.freeBlockList + 8 < 2 ^ 64)
    (onwards : Chain (blockNext heap.memory) null
      (blockNext heap.memory heap.freeBlockList) rest)
    (payloads : ∀ node ∈ rest, node + 8 < 2 ^ 64)
    (enough : rest.length < walkLimit)
    (aligned : heap.heapEnd % pageSize = 0)
    (pointer : heap.heapEnd < 2 ^ 64) :
    ∃ result, firstFitAllocation size heap = some result ∧
      result.1 ≠ null := by
  rw [firstFitAllocation]
  split_ifs with fits
  · refine ⟨_, rfl, ?_⟩
    exact payload_ne_null first
  · obtain ⟨found, ends, placed⟩ := nextFit_ends onwards enough
    rw [ends]
    cases found with
    | some place =>
        refine ⟨_, rfl, ?_⟩
        exact payload_ne_null (payloads place.2 (placed place rfl))
    | none =>
        obtain ⟨returned, _⟩ := sbrk_bounds aligned pointer
          ((size + sizeofSizeT) % 2 ^ 64)
        refine ⟨_, rfl, ?_⟩
        apply payload_ne_null
        rw [returned]
        rw [pageSize] at aligned
        omega

/-- On every list, opened if it is empty, first fit returns a pointer. -/
theorem openHeap_nonnull (state : HeapState heap nodes) (size : Nat) :
    ∃ result, firstFitAllocation size (openHeap size heap) = some result ∧
      result.1 ≠ null := by
  have aligned := state.aligned
  have pointer := state.pointer
  cases nodes with
  | nil =>
      obtain ⟨returned, newAligned, newPointer⟩ := sbrk_bounds aligned pointer
        ((size + sizeofSizeT) % 2 ^ 64)
      rw [openHeap, if_pos (chain_nil.mp state.acyclic)]
      refine firstFitAllocation_nonnull ?_ (chain_nil.mpr ?_) ?_ ?_ ?_ ?_
      · show (Kmalloc.sbrk _ heap).1 + 8 < 2 ^ 64
        rw [returned]
        rw [pageSize] at aligned
        omega
      · exact blockNext_setNext_same (by decide)
      · simp
      · rw [walkLimit]
        decide
      · exact newAligned
      · exact newPointer
  | cons first rest =>
      have enough := state.length_lt
      obtain ⟨atHead, nonnull, onwards⟩ := chain_cons.mp state.acyclic
      have payload := state.payloads first List.mem_cons_self
      rw [openHeap, if_neg (atHead ▸ nonnull)]
      rw [← atHead] at payload onwards
      apply firstFitAllocation_nonnull payload onwards
      · intro node member
        exact state.payloads node (List.mem_cons_of_mem first member)
      · exact Nat.lt_of_succ_lt enough
      · exact aligned
      · exact pointer

end Pointers

/-! ## Exhaustion -/

/--
The page allocator has frames for `size + 8` bytes at the end of the heap and
for the page tables that they need.
-/
def FramesSuffice (size : Nat) (kernel : Kernel) : Prop :=
  ∃ grown, HeapGrowth.sbrkPages ((size + 8 + 4095) / 4096) kernel = some grown

/-- Without a free frame no page can be mapped. -/
theorem not_framesSuffice_of_exhausted
    {kernel : Kernel} (exhausted : freeFrames kernel.mm.allocator = [])
    (size : Nat) :
    ¬ FramesSuffice size kernel := by
  have stuck : ∀ pages, HeapGrowth.sbrkPages (pages + 1) kernel = none := by
    intro pages
    induction pages with
    | zero =>
        rw [HeapGrowth.sbrkPages, HeapGrowth.sbrkPages, Option.bind_some,
          HeapGrowth.sbrkStep, pageAlloc_of_exhausted address_zero exhausted,
          Option.bind_none]
    | succ pages inductionHypothesis =>
        rw [HeapGrowth.sbrkPages, inductionHypothesis, Option.bind_none]
  rintro ⟨grown, grows⟩
  obtain ⟨less, pages⟩ : ∃ less, (size + 8 + 4095) / 4096 = less + 1 :=
    Nat.exists_eq_add_one.mpr (by omega)
  rw [pages, stuck] at grows
  exact absurd grows (by simp)

/-- The free list, the headers, the bitmap and all translations are kept. -/
structure Untouched (before after : Kernel) : Prop where
  freeBlockList : after.heap.freeBlockList = before.heap.freeBlockList
  headers : ∀ block,
    blockSize after.heap.memory block = blockSize before.heap.memory block ∧
      blockNext after.heap.memory block = blockNext before.heap.memory block
  heapEnd : after.heap.heapEnd = before.heap.heapEnd
  bitmap : after.mm.allocator.frames = before.mm.allocator.frames
  translations : ∀ virtAddr,
    mmuTranslate after virtAddr = mmuTranslate before virtAddr

/-- A request that memory does not suffice for is refused without a trace. -/
def HandlesExhaustion (fallOff : PageAllocator → Nat) (size : Nat)
    (kernel : Kernel) : Prop :=
  ¬ FramesSuffice size kernel →
    ∃ next, kmallocOr fallOff size kernel = some (null, next) ∧
      Untouched kernel next

/-- A request that is not refused at once returns a pointer. -/
theorem kmallocOr_nonnull
    {kernel : Kernel} {nodes : List Nat} {size : Nat}
    (fallOff : PageAllocator → Nat) (state : HeapState kernel.heap nodes)
    (accepted : size ≤ mmuTotalMemory kernel) :
    ∃ pointer next, kmallocOr fallOff size kernel = some (pointer, next) ∧
      pointer ≠ null := by
  obtain ⟨opened, opens, sameHeap⟩ :=
    openHeapOr_heap fallOff state.aligned state.pointer size
  obtain ⟨result, allocates, nonnull⟩ := openHeap_nonnull state size
  rw [← sameHeap] at allocates
  have bounds : opened.heap.heapEnd % 4096 = 0 ∧
      opened.heap.heapEnd < 2 ^ 64 := by
    obtain ⟨_, newAligned, newPointer⟩ := sbrk_bounds state.aligned
      state.pointer ((size + sizeofSizeT) % 2 ^ 64)
    rw [sameHeap, openHeap]
    split_ifs
    · exact ⟨newAligned, newPointer⟩
    · exact ⟨state.aligned, state.pointer⟩
  obtain ⟨next, returns, _⟩ :=
    firstFitAllocationOr_heap fallOff bounds.1 bounds.2 allocates
  refine ⟨result.1, next, ?_, nonnull⟩
  rw [kmallocOr, if_neg (Nat.not_lt.mpr accepted), opens, Option.bind_some,
    returns]

/--
`kmalloc` handles the lack of memory exactly when it is asked for more than
the total that it compares the request with, however much of that is free.
-/
theorem exhaustion_handled_iff
    {kernel : Kernel} {nodes : List Nat}
    (state : HeapState kernel.heap nodes)
    (fallOff : PageAllocator → Nat) (size : Nat) :
    HandlesExhaustion fallOff size kernel ↔
      FramesSuffice size kernel ∨ mmuTotalMemory kernel < size := by
  constructor
  · intro handles
    by_contra lacking
    obtain ⟨scarce, accepted⟩ := not_or.mp lacking
    obtain ⟨next, refused, _⟩ := handles scarce
    obtain ⟨pointer, _, returns, nonnull⟩ :=
      kmallocOr_nonnull fallOff state (Nat.not_lt.mp accepted)
    rw [refused, Option.some.injEq, Prod.mk.injEq] at returns
    exact nonnull returns.1.symm
  · rintro (enough | excessive) scarce
    · exact absurd enough scarce
    · refine ⟨kernel, ?_, ?_⟩
      · rw [kmallocOr, if_pos excessive]
      · exact ⟨rfl, fun _ => ⟨rfl, rfl⟩, rfl, rfl, fun _ => rfl⟩

/-- An empty heap on a machine all of whose frames are in use. -/
def fullMachine : Kernel :=
  { Kernel.zeroed with
    mm := ⟨fun _ _ => 0, { fullByte with totalMemory := 0x8000000 }⟩
    heap := { Kernel.zeroed.heap with
      heapStart := kernelHeapStart
      heapEnd := kernelHeapStart } }

theorem fullMachine_heap : HeapState fullMachine.heap [] :=
  ⟨rfl, by simp, by decide, by decide⟩

theorem fullMachine_scarce (size : Nat) :
    ¬ FramesSuffice size fullMachine :=
  not_framesSuffice_of_exhausted (by decide) size

theorem excessive_request_handled :
    HandlesExhaustion (fun _ => 0) 0x8000001 fullMachine :=
  (exhaustion_handled_iff fullMachine_heap (fun _ => 0) 0x8000001).mpr
    (Or.inr (by decide))

/-- Without a free frame a request of 100 bytes returns a pointer. -/
theorem exhausted_request_returns_pointer :
    ¬ ∀ (kernel : Kernel) (nodes : List Nat)
      (fallOff : PageAllocator → Nat) (size : Nat),
      HeapState kernel.heap nodes →
        HandlesExhaustion fallOff size kernel := by
  intro handles
  obtain ⟨next, refused, _⟩ := handles fullMachine [] (fun _ => 0) 100
    fullMachine_heap (fullMachine_scarce 100)
  obtain ⟨pointer, _, returns, nonnull⟩ :=
    kmallocOr_nonnull (fun _ => 0) fullMachine_heap
      (show 100 ≤ mmuTotalMemory fullMachine by decide)
  rw [refused, Option.some.injEq, Prod.mk.injEq] at returns
  exact nonnull returns.1.symm

end Kernull.HeapExhaustion
