import Kernull.InitialTree
import Kernull.Library.LabelledRun
import Kernull.MapFrame
import Kernull.MapTranslate

/-!
# Growing the heap

`sbrk` of `kernel/kmalloc.c` with the frames it takes and the pages it maps:
every iteration of its loop takes a frame from the page allocator and maps the
page at `heap_end` with `map_addr`, which takes frames of its own for missing
page tables.  The result is `none` when a call runs out of frames.  On the
variables of `kmalloc.c` it has the effect that the model of the block
allocator gives it.

The pages of the heap are mapped in order, each to the frame whose number is
the byte address of the frame that was taken for it.
-/

namespace Kernull.HeapGrowth

open Kernull.Mm
open Kernull.Pml
open Kernull.PageAlloc
open Kernull.PageTables
open Kernull.PageWalkers
open Kernull.MapAddr
open Kernull.MapFrame
open Kernull.MapTranslate
open Kernull.MmuInit
open Kernull.InitialAddressSpace
open Kernull.InitialTree
open Kernull.Library.RadixTree
open Kernull.Library.LabelledRun

/-! ## `sbrk` -/

/-- `map_addr`. -/
def mapAddr (virtAddr physAddr : Nat) (flags : BitVec 64)
    (kernel : Kernel) : Option Kernel :=
  (mapAddrIn kernel.currentPml4 virtAddr physAddr flags kernel.mm).map
    fun mm => { kernel with mm := mm }

/-- One iteration of the loop of `sbrk`. -/
def sbrkStep (kernel : Kernel) : Option Kernel :=
  (pageAlloc 0 pmlFlagWritable kernel.mm.allocator).bind fun allocated =>
    let (page, allocator) := allocated
    let paddr := (address page <<< 12) % 2 ^ 64
    (mapAddr kernel.heap.heapEnd paddr pmlFlagWritable
        { kernel with mm := ⟨kernel.mm.memory, allocator⟩ }).map
      fun mapped =>
        { mapped with
          heap := { mapped.heap with
            heapEnd := (mapped.heap.heapEnd + pageSize) % 2 ^ 64 } }

/-- The loop of `sbrk` for the given number of pages. -/
def sbrkPages : Nat → Kernel → Option Kernel
  | 0, kernel => some kernel
  | pages + 1, kernel => (sbrkPages pages kernel).bind sbrkStep

/-- `sbrk`; `none` when the free frames do not suffice. -/
def sbrk (incr : Nat) (kernel : Kernel) : Option (Nat × Kernel) :=
  if incr = 0 then some (kernel.heap.heapEnd, kernel)
  else
    (sbrkPages (pageRound incr / pageSize) kernel).map fun grown =>
      (kernel.heap.heapEnd, grown)

/-- The state after a call of `sbrk`. -/
def sbrkEffect (kernel : Kernel) (incr : Nat) : Option Kernel :=
  (sbrk incr kernel).map Prod.snd

/-- The loop moves the end of the heap and no other variable of the heap. -/
theorem heap_sbrkPages
    {pages : Nat} {kernel grown : Kernel}
    (small : kernel.heap.heapEnd < 2 ^ 64)
    (grows : sbrkPages pages kernel = some grown) :
    grown.heap = { kernel.heap with
      heapEnd := (kernel.heap.heapEnd + pages * pageSize) % 2 ^ 64 } := by
  induction pages generalizing grown with
  | zero =>
      obtain rfl := Option.some.inj grows
      rw [Nat.zero_mul, Nat.add_zero, Nat.mod_eq_of_lt small]
  | succ pages inductionHypothesis =>
      rw [sbrkPages, Option.bind_eq_some_iff] at grows
      obtain ⟨middle, earlier, last⟩ := grows
      simp only [sbrkStep, mapAddr, Option.bind_eq_some_iff,
        Option.map_eq_some_iff] at last
      obtain ⟨_, _, _, ⟨mm, _, rfl⟩, rfl⟩ := last
      rw [inductionHypothesis earlier, Nat.mod_add_mod, Nat.add_assoc,
        Nat.succ_mul]

/-- On the variables of the heap `sbrk` acts as the block allocator assumes. -/
theorem sbrk_refines
    {incr returned : Nat} {kernel grown : Kernel}
    (small : kernel.heap.heapEnd < 2 ^ 64)
    (grows : sbrk incr kernel = some (returned, grown)) :
    Kmalloc.sbrk incr kernel.heap = (returned, grown.heap) := by
  rw [sbrk] at grows
  rw [Kmalloc.sbrk]
  split_ifs at grows ⊢ with nothing
  · obtain ⟨rfl, rfl⟩ := Prod.mk.inj (Option.some.inj grows)
    rfl
  · obtain ⟨_, loop, same⟩ := Option.map_eq_some_iff.mp grows
    obtain ⟨rfl, rfl⟩ := Prod.mk.inj same
    have whole : pageRound incr / pageSize * pageSize = pageRound incr := by
      simp only [pageRound, pageSize]
      omega
    rw [heap_sbrkPages small loop, whole]

/-! ## Mapping a page of the heap region -/

/--
The page tables are a tree without large pages in the heap region; the free
frames are clean and outside of it.
-/
structure HeapTables (mm : MmState) (root : Nat) : Prop where
  small : mm.allocator.nframes < 2 ^ 20
  tree : PageTree mm.memory root (freeFrames mm.allocator)
  clean : Clean pmlShape mm.memory (freeFrames mm.allocator)
  unstopped : ∀ virtAddr, pml4Index virtAddr = 510 →
    Unstopped pmlShape mm.memory 0 (tableFrame root) (indices virtAddr)

/-- A page is mapped to the frame with the number that is its address. -/
structure PageMapped (before after : MmState)
    (root virtAddr physAddr : Nat) : Prop where
  count : after.allocator.nframes = before.allocator.nframes
  free : freeFrames after.allocator <:+ freeFrames before.allocator
  found : ∃ entry, address entry = physAddr ∧
    lookup pmlShape after.memory 0 (tableFrame root) (indices virtAddr) =
      .found 3 entry
  kept : ∀ other, indices other ≠ indices virtAddr →
    Preserved
      (lookup pmlShape before.memory 0 (tableFrame root) (indices other))
      (lookup pmlShape after.memory 0 (tableFrame root) (indices other))

/-- Taking a frame for a page leaves the tables alone. -/
theorem HeapTables.take
    {mm : MmState} {root frame : Nat} {allocator : PageAllocator}
    (tables : HeapTables mm root)
    (count : allocator.nframes = mm.allocator.nframes)
    (free : freeFrames mm.allocator = frame :: freeFrames allocator) :
    HeapTables ⟨mm.memory, allocator⟩ root := by
  have later : ∀ other ∈ freeFrames allocator,
      other ∈ freeFrames mm.allocator := fun other member =>
    free ▸ List.mem_cons_of_mem frame member
  exact {
    small := count ▸ tables.small
    tree := ⟨tables.tree.unshared, fun path other short reaches member =>
      tables.tree.avoids path other short reaches (later other member)⟩
    clean := fun other member => tables.clean other (later other member)
    unstopped := tables.unstopped }

/-- Mapping a page of the heap region with the frames that are free. -/
theorem HeapTables.map
    {before after : MmState} {root virtAddr physAddr : Nat}
    (tables : HeapTables before root)
    (inHeap : pml4Index virtAddr = 510) (virtAligned : virtAddr % 4096 = 0)
    (physAligned : physAddr % 4096 = 0) (physSmall : physAddr < 2 ^ 40)
    (maps : mapAddrIn root virtAddr physAddr pmlFlagWritable before =
      some after) :
    HeapTables after root ∧ PageMapped before after root virtAddr physAddr := by
  have growable : Growable pmlShape tableLink before.memory 0
      (tableFrame root) 3 (freeFrames before.allocator) (indices virtAddr) :=
    { length := rfl
      unstopped := tables.unstopped virtAddr inHeap
      unshared := tables.tree.unshared
      avoids := tables.tree.avoids
      nodup := freeFrames_nodup before.allocator
      links := links_freeFrames tables.small
      clean := tables.clean }
  have enough := enough_of_mapAddrIn tables.small growable.avoids
    growable.unstopped growable.clean maps
  obtain ⟨allocator, inserts, ⟨count, -⟩, free⟩ :=
    mapAddrIn_eq_insert before pmlFlagWritable tables.small virtAligned
      physAligned enough
  obtain rfl := Option.some.inj (maps.symm.trans inserts)
  have finalPresent : ∀ entry, pmlShape.present
      (leafEntry physAddr pmlFlagWritable entry) = true := by
    intro entry
    simp [pmlShape, leafEntry]
  constructor
  · constructor
    · exact count ▸ tables.small
    · constructor
      · exact growable.unshared_insert
      · rw [free]
        exact growable.avoids_insert
    · rw [free]
      exact growable.insert_remaining.2
    · intro other otherInHeap
      exact growable.unstopped_insert rfl enough finalPresent
        (tables.unstopped other otherInHeap)
  · constructor
    · exact count
    · rw [free, growable.insert_remaining.1]
      exact List.drop_suffix _ _
    · obtain ⟨entry, finds⟩ := growable.lookup_self enough finalPresent
      refine ⟨_, ?_, finds⟩
      simp only [leafEntry, address_orFlags, address_setPresent,
        address_setAddress]
      exact Nat.mod_eq_of_lt physSmall
    · intro other different
      exact growable.lookup_other rfl different

/-! ## The pages of the heap -/

/--
The heap has grown by a number of pages since `mmu_init`: they are placed at
frames whose numbers are the addresses of frames that were free.
-/
structure HeapGrown (booted kernel : Kernel) (pages : Nat) : Prop where
  root : kernel.currentPml4 = booted.currentPml4
  count : kernel.mm.allocator.nframes = booted.mm.allocator.nframes
  tables : HeapTables kernel.mm kernel.currentPml4
  heapStart : kernel.heap.heapStart = booted.heap.heapStart
  heapEnd : kernel.heap.heapEnd = booted.heap.heapStart + pages * 4096
  free : freeFrames kernel.mm.allocator <:+ freeFrames booted.mm.allocator
  taken : pages + (freeFrames kernel.mm.allocator).length ≤
    (freeFrames booted.mm.allocator).length
  placed : ∀ page < pages, ∃ frame ∈ freeFrames booted.mm.allocator,
    ∃ entry, address entry = frame * 4096 ∧
      lookup pmlShape kernel.mm.memory 0 (tableFrame kernel.currentPml4)
          (indices (booted.heap.heapStart + page * 4096)) =
        .found 3 entry

/-- The heap starts page-aligned in its region, with room for its pages. -/
structure HeapRegion (booted : Kernel) : Prop where
  small : booted.mm.allocator.nframes < 2 ^ 20
  aligned : booted.heap.heapStart % 4096 = 0
  above : kernelHeapStart ≤ booted.heap.heapStart
  below : booted.heap.heapStart < kernelHeapStart + 2 ^ 30

section Region

variable {booted kernel : Kernel} (region : HeapRegion booted)

include region

theorem HeapRegion.length_freeFrames :
    (freeFrames booted.mm.allocator).length ≤ 2 ^ 20 := by
  have small := region.small
  have scanned := List.length_filter_le
    (fun frame => !decide (Marked booted.mm.allocator frame))
    (List.range (8 * (booted.mm.allocator.nframes / 8)))
  rw [List.length_range] at scanned
  rw [freeFrames]
  omega

/-- Heap addresses lie in the heap region of the root table. -/
theorem HeapRegion.pml4Index_eq
    {page : Nat} (few : page ≤ 2 ^ 20) :
    pml4Index (booted.heap.heapStart + page * 4096) = 510 := by
  have above := region.above
  have below := region.below
  rw [InitialAddressSpace.pml4Index_eq, realBits]
  rw [kernelHeapStart] at above below
  omega

/-- Different pages of the heap have different paths. -/
theorem HeapRegion.indices_ne
    {left right : Nat} (leftFew : left ≤ 2 ^ 20) (rightFew : right ≤ 2 ^ 20)
    (different : left ≠ right) :
    indices (booted.heap.heapStart + left * 4096) ≠
      indices (booted.heap.heapStart + right * 4096) := by
  have above := region.above
  have below := region.below
  intro same
  have samePage := pageAddress_of_indices same
  rw [pageAddress_eq, pageAddress_eq] at samePage
  rw [kernelHeapStart] at above below
  omega

omit region in
/-- An iteration takes the first free frame and maps the page at the end. -/
theorem sbrkStep_of_free
    {frame : Nat} {fresh : List Nat}
    (small : kernel.mm.allocator.nframes < 2 ^ 20)
    (free : freeFrames kernel.mm.allocator = frame :: fresh) :
    ∃ allocator, allocator.nframes = kernel.mm.allocator.nframes ∧
      freeFrames allocator = fresh ∧
      sbrkStep kernel =
        (mapAddrIn kernel.currentPml4 kernel.heap.heapEnd (frame * 4096)
            pmlFlagWritable ⟨kernel.mm.memory, allocator⟩).map fun mm =>
          { kernel with
            mm := mm
            heap := { kernel.heap with
              heapEnd := (kernel.heap.heapEnd + pageSize) % 2 ^ 64 } } := by
  obtain ⟨allocator, allocates, sameCount, remaining, -⟩ :=
    pageAlloc_of_free pmlFlagWritable address_zero small free
  have inRange := (mem_freeFrames.mp (free ▸ List.mem_cons_self)).1
  have stored : (address (orFlags (setPresent (setAddress 0 frame))
      pmlFlagWritable) <<< 12) % 2 ^ 64 = frame * 4096 := by
    rw [address_orFlags, address_setPresent, address_setAddress,
      Nat.shiftLeft_eq]
    omega
  refine ⟨allocator, sameCount, remaining, ?_⟩
  simp only [sbrkStep, mapAddr, allocates, Option.bind_some, stored,
    Option.map_map]
  rfl

/-- An iteration of the loop maps one page at the end of the heap. -/
theorem HeapGrown.step
    {next : Kernel} {pages : Nat} (grown : HeapGrown booted kernel pages)
    (steps : sbrkStep kernel = some next) :
    HeapGrown booted next (pages + 1) := by
  have tables := grown.tables
  -- the frame of the page
  rcases free : freeFrames kernel.mm.allocator with _ | ⟨frame, fresh⟩
  · rw [sbrkStep, pageAlloc_of_exhausted address_zero free] at steps
    exact nomatch steps
  obtain ⟨allocator, sameCount, remaining, equation⟩ :=
    sbrkStep_of_free tables.small free
  have frameFree : frame ∈ freeFrames booted.mm.allocator :=
    grown.free.subset (free ▸ List.mem_cons_self)
  have frameSmall : frame < 2 ^ 20 := by
    have inRange := (mem_freeFrames.mp frameFree).1
    have small := region.small
    omega
  rw [equation, Option.map_eq_some_iff] at steps
  obtain ⟨mm, maps, rfl⟩ := steps
  -- the page at the end of the heap
  have bound := region.length_freeFrames
  have taken := grown.taken
  rw [free, List.length_cons] at taken
  have aligned := region.aligned
  have inHeap : pml4Index kernel.heap.heapEnd = 510 := by
    rw [grown.heapEnd]
    exact region.pml4Index_eq (by omega)
  have virtAligned : kernel.heap.heapEnd % 4096 = 0 := by
    rw [grown.heapEnd]
    omega
  rw [← remaining] at free taken
  obtain ⟨tablesAfter, mapped⟩ := (tables.take sameCount free).map inHeap
    virtAligned (show frame * 4096 % 4096 = 0 by omega) (by omega) maps
  have fewer := mapped.free.length_le
  constructor
  · exact grown.root
  · exact mapped.count.trans (sameCount.trans grown.count)
  · exact tablesAfter
  · exact grown.heapStart
  · have below := region.below
    rw [kernelHeapStart] at below
    change (kernel.heap.heapEnd + pageSize) % 2 ^ 64 = _
    rw [grown.heapEnd, pageSize]
    omega
  · exact mapped.free.trans
      ((free ▸ List.suffix_cons frame _).trans grown.free)
  · change pages + 1 + (freeFrames mm.allocator).length ≤ _
    change (freeFrames mm.allocator).length ≤
      (freeFrames allocator).length at fewer
    omega
  · intro page few
    by_cases last : page = pages
    · subst last
      rw [← grown.heapEnd]
      exact ⟨frame, frameFree, mapped.found⟩
    · obtain ⟨source, sourceFree, entry, stored, found⟩ :=
        grown.placed page (by omega)
      have different := region.indices_ne
        (show page ≤ 2 ^ 20 by omega) (show pages ≤ 2 ^ 20 by omega) last
      rw [← grown.heapEnd] at different
      have kept := mapped.kept _ different
      change Preserved (lookup pmlShape kernel.mm.memory 0 _ _) _ at kept
      rw [found] at kept
      exact ⟨source, sourceFree, entry, stored, kept⟩

/-- With a frame for the page and three for tables an iteration succeeds. -/
theorem HeapGrown.exists_step
    {pages : Nat} (grown : HeapGrown booted kernel pages)
    (enough : 4 ≤ (freeFrames kernel.mm.allocator).length) :
    ∃ next, sbrkStep kernel = some next := by
  have tables := grown.tables
  rcases free : freeFrames kernel.mm.allocator with _ | ⟨frame, fresh⟩
  · rw [free] at enough
    exact absurd enough (by simp)
  obtain ⟨allocator, sameCount, remaining, equation⟩ :=
    sbrkStep_of_free tables.small free
  have virtAligned : kernel.heap.heapEnd % 4096 = 0 := by
    have aligned := region.aligned
    rw [grown.heapEnd]
    omega
  have lacking : missing pmlShape kernel.mm.memory
      (tableFrame kernel.currentPml4) (indices kernel.heap.heapEnd) ≤ 3 :=
    missing_le_length _ _ _
  rw [free, List.length_cons] at enough
  have sufficient : missing pmlShape kernel.mm.memory
      (tableFrame kernel.currentPml4) (indices kernel.heap.heapEnd) ≤
        (freeFrames allocator).length := by
    rw [remaining]
    omega
  have physAligned : frame * 4096 % 4096 = 0 := by omega
  obtain ⟨mapped, maps, -⟩ := mapAddrIn_eq_insert
    ⟨kernel.mm.memory, allocator⟩ pmlFlagWritable
    (sameCount ▸ tables.small) virtAligned physAligned sufficient
  exact ⟨_, by rw [equation, maps]; rfl⟩

/-- The loop maps its pages one after the other. -/
theorem HeapGrown.sbrkPages
    {next : Kernel} {pages more : Nat}
    (grown : HeapGrown booted kernel pages)
    (grows : sbrkPages more kernel = some next) :
    HeapGrown booted next (pages + more) := by
  induction more generalizing next with
  | zero => exact Option.some.inj grows ▸ grown
  | succ more inductionHypothesis =>
      rw [HeapGrowth.sbrkPages, Option.bind_eq_some_iff] at grows
      obtain ⟨middle, earlier, last⟩ := grows
      exact HeapGrown.step region (inductionHypothesis earlier) last

/-- The number of pages that a call of `sbrk` obtains. -/
def pagesObtained (incr : Nat) : Nat :=
  pageRound incr / pageSize

/-- A call of `sbrk` returns the old end of the heap and maps its pages. -/
theorem HeapGrown.sbrk
    {next : Kernel} {pages incr returned : Nat}
    (grown : HeapGrown booted kernel pages)
    (grows : sbrk incr kernel = some (returned, next)) :
    returned = kernel.heap.heapEnd ∧
      HeapGrown booted next (pages + pagesObtained incr) := by
  rw [HeapGrowth.sbrk] at grows
  split_ifs at grows with nothing
  · obtain ⟨rfl, rfl⟩ := Prod.mk.inj (Option.some.inj grows)
    have none : pagesObtained 0 = 0 := rfl
    rw [nothing, none]
    exact ⟨rfl, grown⟩
  · obtain ⟨_, loop, same⟩ := Option.map_eq_some_iff.mp grows
    obtain ⟨rfl, rfl⟩ := Prod.mk.inj same
    exact ⟨rfl, HeapGrown.sbrkPages region grown loop⟩

/-- The pages obtained by a sequence of calls add up. -/
theorem HeapGrown.run
    {next : Kernel} {pages : Nat} {calls : List Nat}
    (grown : HeapGrown booted kernel pages)
    (runs : run sbrkEffect kernel calls = some next) :
    HeapGrown booted next (pages + (calls.map pagesObtained).sum) := by
  induction calls generalizing kernel pages with
  | nil =>
      obtain rfl := Option.some.inj runs
      exact grown
  | cons incr calls inductionHypothesis =>
      obtain ⟨middle, first, later⟩ := run_cons_eq_some_iff.mp runs
      obtain ⟨⟨returned, _⟩, call, rfl⟩ := Option.map_eq_some_iff.mp first
      have step := (HeapGrown.sbrk region grown call).2
      have rest := inductionHypothesis step later
      rw [List.map_cons, List.sum_cons, ← Nat.add_assoc]
      exact rest

/-- Where the pages of the heap are translated to. -/
theorem HeapGrown.translate
    {pages page : Nat} (grown : HeapGrown booted kernel pages)
    (inHeap : page < pages) :
    ∃ frame ∈ freeFrames booted.mm.allocator, ∀ offset < 4096,
      mmuTranslate kernel
          (booted.heap.heapStart + page * 4096 + offset) =
        frame * 4096 * 4096 + offset := by
  obtain ⟨frame, free, entry, stored, found⟩ := grown.placed page inHeap
  refine ⟨frame, free, fun offset inPage => ?_⟩
  have aligned := region.aligned
  have pageAligned : (booted.heap.heapStart + page * 4096) % 4096 = 0 := by
    omega
  have lowBits : (booted.heap.heapStart + page * 4096 + offset) &&&
      offsetMask 3 = offset := by
    rw [offsetMask, if_neg (by decide), if_neg (by decide), pml1Mask_eq]
    omega
  rw [mmuTranslate, mmuTranslateVia_eq_lookup,
    indices_add_offset pageAligned inPage, found, translationOf, stored,
    lowBits, page_or_offset inPage]

end Region

end Kernull.HeapGrowth
