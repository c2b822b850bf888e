import Kernull.HeapGrowth
import Mathlib.Data.List.Perm.Subperm

/-!
# The frames behind the heap

What `sbrk` maps the pages of the heap to.  `page_alloc` puts a frame number
into the entry that it fills, `sbrk` turns it into an address, and `map_addr`
puts that address into the entry of the page, where it is read as a frame
number again.  A page of the heap therefore translates to the frame with the
number `4096 * f` when `f` is the frame that was taken for it.  No machine
with less than 4 GiB has that frame, since `f` lies behind the kernel image.
-/

namespace Kernull.HeapBacking

open Kernull.Mm
open Kernull.Pml
open Kernull.PageAlloc
open Kernull.PageTables
open Kernull.MapAddr
open Kernull.MmuInit
open Kernull.InitialAddressSpace
open Kernull.InitialTree
open Kernull.HeapGrowth
open Kernull.Library.RadixTree
open Kernull.Library.LabelledRun

/-! ## The property -/

/-- A page of the heap is backed by a frame that is in use for nothing else. -/
structure PageBacked (booted kernel : Kernel) (page frame : Nat) :
    Prop where
  translates : ∀ offset < 4096,
    mmuTranslate kernel (kernel.heap.heapStart + page * 4096 + offset) =
      frame * 4096 + offset
  inBitmap : frame < kernel.mm.allocator.nframes
  inUse : Marked kernel.mm.allocator frame
  notReserved : ¬ Marked booted.mm.allocator frame
  notTable : ∀ path, path.length ≤ 3 →
    tableAt pmlShape kernel.mm.memory 0 (tableFrame kernel.currentPml4)
      path ≠ some frame

/-- A page lies in the heap. -/
def InHeap (kernel : Kernel) (page : Nat) : Prop :=
  kernel.heap.heapStart + page * 4096 < kernel.heap.heapEnd

/-- Every page of the heap is backed by a frame of its own. -/
def HeapBacked (booted kernel : Kernel) : Prop :=
  ∃ frameOf : Nat → Nat,
    (∀ page, InHeap kernel page →
      PageBacked booted kernel page (frameOf page)) ∧
    ∀ left right, InHeap kernel left → InHeap kernel right →
      frameOf left = frameOf right → left = right

/-- What a call of `sbrk` is to do. -/
structure CallCorrect (booted before : Kernel) (incr returned : Nat)
    (after : Kernel) : Prop where
  returned : returned = before.heap.heapEnd
  grown : after.heap.heapEnd =
    (before.heap.heapEnd + (incr + 4095) / 4096 * 4096) % 2 ^ 64
  backed : HeapBacked booted after

/-- Every call of a sequence does that. -/
def CallsCorrect (booted : Kernel) (calls : List Nat) : Prop :=
  ∀ earlier incr later, calls = earlier ++ incr :: later →
    ∀ before returned after,
      run sbrkEffect booted earlier = some before →
      sbrk incr before = some (returned, after) →
        CallCorrect booted before incr returned after

/-! ## After `mmu_init` -/

/--
The image that holds the static tables lies between 1 MiB and the end of the
kernel that `mmu_init` is given.
-/
def ImageReserved (layout : Layout) (kernelEnd : Nat) : Prop :=
  ∀ table, 256 ≤ layout.frame table ∧
    layout.frame table < firstFreePage kernelEnd / 4096

/-- The state after `mmu_init`, as far as the heap depends on it. -/
structure Booted (layout : Layout) (kernelEnd memsize blocks : Nat)
    (booted : Kernel) : Prop where
  root : booted.currentPml4 = mmuToVirt (layout.addressOf .highBasePml4)
  heapStart : booted.heap.heapStart =
    kernelHeapStart + metadataPages memsize * 4096
  heapEnd : booted.heap.heapEnd = booted.heap.heapStart
  count : booted.mm.allocator.nframes = memsize / 4096
  free : ∀ frame, frame ∈ freeFrames booted.mm.allocator ↔
    frame < 8 * (memsize / 4096 / 8) ∧
      firstFreePage kernelEnd + memsize / 4096 / 8 ≤ frame * 4096
  initial : InitialTables layout booted.mm.memory blocks
    (firstFreePage kernelEnd) (metadataPages memsize)

section Boot

variable {layout : Layout} {kernelEndAddress memsize kernelEnd : Nat}
  {kernel : Kernel} (memoryBound : memsize < 2 ^ 32)
  (kernelEndBound : kernelEnd < 2 ^ 39)
  (image : ImageReserved layout kernelEnd)

include memoryBound kernelEndBound image

/-- `mmu_init` returns with the heap empty and the image reserved. -/
theorem booted_of_mmuInit
    (addressBound : kernelEndAddress ≤ 2 ^ 26)
    (zeroed : ∀ table i, kernel.mm.memory (layout.frame table) i = 0) :
    ∃ booted,
      mmuInit layout kernelEndAddress memsize kernelEnd kernel =
        some booted ∧
      Booted layout kernelEnd memsize (pml2Count kernelEndAddress)
        booted := by
  have blocks := pml2Count_eq addressBound
  have blocksBound : pml2Count kernelEndAddress ≤ 32 := by omega
  have pages := metadataPages_le memoryBound
  have pagesBound : metadataPages memsize ≤ 3 * 512 := by omega
  have bounds := firstFreePage_bounds kernelEndBound
  obtain ⟨booted, returns, root, initialised, heapStart, heapEnd, initial⟩ :=
    mmuInit_spec layout kernel blocksBound pagesBound kernelEndBound zeroed
      (fun table => Or.inl (image table).2)
  obtain ⟨count, -, marked⟩ :=
    pageAllocatorInit_spec memoryBound (by omega) initialised
  refine ⟨booted, returns, root, heapStart, heapEnd.trans heapStart.symm,
    count, ?_, initial⟩
  intro frame
  rw [mem_freeFrames, count]
  refine and_congr_right fun inside => ?_
  rw [marked frame inside, Nat.not_lt]

variable {booted : Kernel} {blocks : Nat}
  (boots : Booted layout kernelEnd memsize blocks booted)

include boots

omit kernelEndBound image in
theorem Booted.heapRegion : HeapRegion booted := by
  have pages := metadataPages_le memoryBound
  have heapStart := boots.heapStart
  constructor
  · rw [boots.count]
    omega
  · rw [heapStart, kernelHeapStart]
    omega
  · omega
  · omega

/-- Free frames lie behind the kernel image. -/
theorem Booted.free_ge
    {frame : Nat} (member : frame ∈ freeFrames booted.mm.allocator) :
    firstFreePage kernelEnd / 4096 ≤ frame ∧ 256 ≤ frame := by
  have bounds := firstFreePage_bounds kernelEndBound
  have behind := ((boots.free frame).mp member).2
  have inImage := image .highBasePml4
  omega

/-- With clean free frames the heap can grow from its start. -/
theorem Booted.heapGrown
    (blocksBound : blocks ≤ 32)
    (clean : Clean pmlShape booted.mm.memory
      (freeFrames booted.mm.allocator)) :
    HeapGrown booted booted 0 := by
  have region := boots.heapRegion memoryBound
  constructor
  · rfl
  · rfl
  · constructor
    · exact region.small
    · rw [boots.root]
      refine pageTree_of_initialTables boots.initial blocksBound
        fun table member => ?_
      have behind := boots.free_ge memoryBound kernelEndBound image member
      have inImage := image table
      omega
    · exact clean
    · intro virtAddr inHeap
      rw [boots.root]
      exact unstopped_of_no_huge (heap_noHuge boots.initial inHeap)
  · rfl
  · rw [boots.heapEnd, Nat.zero_mul, Nat.add_zero]
  · exact List.suffix_rfl
  · rw [Nat.zero_add]
  · intro page few
    exact absurd few (Nat.not_lt_zero page)

end Boot

/-! ## Calls that obtain no page -/

/-- A call that obtains no page changes nothing. -/
theorem sbrk_of_nothing
    {incr : Nat} (nothing : pagesObtained incr = 0) (kernel : Kernel) :
    sbrk incr kernel = some (kernel.heap.heapEnd, kernel) := by
  rw [pagesObtained] at nothing
  rw [sbrk, nothing]
  split_ifs
  · rfl
  · rfl

theorem run_of_nothing
    {calls : List Nat} (nothing : ∀ incr ∈ calls, pagesObtained incr = 0)
    (kernel : Kernel) :
    run sbrkEffect kernel calls = some kernel := by
  induction calls with
  | nil => rfl
  | cons incr calls inductionHypothesis =>
      rw [run_cons, sbrkEffect,
        sbrk_of_nothing (nothing incr List.mem_cons_self)]
      exact inductionHypothesis fun other member =>
        nothing other (List.mem_cons_of_mem incr member)

/-- An empty heap is backed. -/
theorem heapBacked_of_empty
    {booted kernel : Kernel}
    (empty : kernel.heap.heapEnd = kernel.heap.heapStart) :
    HeapBacked booted kernel := by
  have none : ∀ page, ¬ InHeap kernel page := by
    intro page
    rw [InHeap, empty]
    omega
  exact ⟨fun _ => 0, fun page inside => absurd inside (none page),
    fun left _ inside => absurd inside (none left)⟩

/-- Sequences of calls that obtain no page are correct. -/
theorem callsCorrect_of_nothing
    {booted : Kernel} {calls : List Nat}
    (empty : booted.heap.heapEnd = booted.heap.heapStart)
    (small : booted.heap.heapEnd < 2 ^ 64)
    (words : ∀ incr ∈ calls, incr < 2 ^ 64)
    (nothing : ∀ incr ∈ calls, pagesObtained incr = 0) :
    CallsCorrect booted calls := by
  rintro earlier incr later rfl before returned after runs call
  have member : incr ∈ earlier ++ incr :: later :=
    List.mem_append_right earlier List.mem_cons_self
  rw [run_of_nothing (fun other inEarlier => nothing other
    (List.mem_append_left _ inEarlier))] at runs
  obtain rfl := Option.some.inj runs
  rw [sbrk_of_nothing (nothing incr member)] at call
  obtain ⟨rfl, rfl⟩ := Prod.mk.inj (Option.some.inj call)
  refine ⟨rfl, ?_, heapBacked_of_empty empty⟩
  have word := words incr member
  have none := nothing incr member
  simp only [pagesObtained, pageRound, pageLowMask, pageSize] at none
  omega

/-! ## Calls that obtain a page -/

/-- A page of the heap that has grown is not backed. -/
theorem not_heapBacked_of_grown
    {booted kernel : Kernel} {pages : Nat} (region : HeapRegion booted)
    (grown : HeapGrown booted kernel pages) (some : 0 < pages)
    (behind : ∀ frame ∈ freeFrames booted.mm.allocator, 256 ≤ frame) :
    ¬ HeapBacked booted kernel := by
  rintro ⟨frameOf, backed, -⟩
  obtain ⟨frame, free, translates⟩ := grown.translate region some
  have inHeap : InHeap kernel 0 := by
    rw [InHeap, grown.heapEnd, grown.heapStart]
    omega
  have first := (backed 0 inHeap).translates 0 (by decide)
  have inBitmap := (backed 0 inHeap).inBitmap
  have large := behind frame free
  have small := region.small
  rw [grown.heapStart, translates 0 (by decide)] at first
  rw [grown.count] at inBitmap
  omega

/-! ## A machine with zeroed memory -/

/-- The part of the bitmap that is not cleared holds what memory held. -/
theorem frames_zero_behind
    {firstFree memsize : Nat} {allocator initialised : PageAllocator}
    (small : memsize < 2 ^ 32) (physical : firstFree < 2 ^ 40)
    (whole : memsize / 4096 % 8 = 0)
    (zeroBitmap : ∀ i, allocator.frames i = 0)
    (returned : pageAllocatorInit firstFree memsize allocator =
      some initialised)
    {byte : Nat} (behind : memsize / 4096 / 8 ≤ byte) :
    initialised.frames byte = 0 := by
  obtain ⟨-, marked⟩ :=
    pageAllocatorInit_marked small (by omega) returned
  apply BitVec.eq_of_getLsbD_eq
  intro bit inByte
  have unmarked : ¬ Marked initialised (8 * byte + bit) := by
    rw [marked]
    rintro (⟨-, inside⟩ | old)
    · omega
    · simp [Marked, clearBitmap, zeroBitmap] at old
  have sameByte : (8 * byte + bit) / 8 = byte := by omega
  have sameBit : (8 * byte + bit) % 8 = bit := by omega
  rw [Marked, sameByte, sameBit, Bool.not_eq_true] at unmarked
  rw [unmarked]
  exact BitVec.getLsbD_zero.symm

/-- When memory is zeroed before the boot the free frames are clean. -/
theorem clean_of_zeroed
    {layout : Layout} {kernelEndAddress memsize kernelEnd blocks : Nat}
    {kernel booted : Kernel} (memoryBound : memsize < 2 ^ 32)
    (kernelEndBound : kernelEnd < 2 ^ 39)
    (image : ImageReserved layout kernelEnd)
    (whole : memsize / 4096 % 8 = 0)
    (zeroMemory : ∀ frame i, kernel.mm.memory frame i = 0)
    (zeroBitmap : ∀ i, kernel.mm.allocator.frames i = 0)
    (returns : mmuInit layout kernelEndAddress memsize kernelEnd kernel =
      some booted)
    (boots : Booted layout kernelEnd memsize blocks booted) :
    Clean pmlShape booted.mm.memory (freeFrames booted.mm.allocator) := by
  have bounds := firstFreePage_bounds kernelEndBound
  intro frame member index
  have behind := ((boots.free frame).mp member).2
  have inImage := boots.free_ge memoryBound kernelEndBound image member
  obtain ⟨initialised, memory⟩ := mmuInit_eq_some returns
  change present (booted.mm.memory frame index) = false
  rw [memory]
  rw [withBitmap]
  split_ifs with inWindow
  · have zero : ∀ byte, booted.mm.allocator.frames
        ((frame - firstFreePage kernelEnd / 4096) * 4096 +
          index.val * 8 + byte) = 0 := fun byte =>
      frames_zero_behind memoryBound (by omega) whole zeroBitmap initialised
        (by omega)
    have entry : bitmapEntry booted.mm.allocator
        ((frame - firstFreePage kernelEnd / 4096) * 4096 +
          index.val * 8) = 0 := by
      simp only [bitmapEntry, zero]
      decide
    rw [entry]
    exact present_zero
  · rw [applyStores, writeAll_of_unwritten, zeroMemory]
    · exact present_zero
    · intro cell stored
      obtain ⟨store, -, rfl⟩ := List.mem_map.mp stored
      rintro ⟨same, -⟩
      have static := image store.table
      change layout.frame store.table = frame at same
      omega

theorem imageReserved_contiguous :
    ImageReserved Layout.contiguous 0x1F0001 := by
  have firstFree : firstFreePage 0x1F0001 = 0x1F1000 := by decide
  intro table
  rw [firstFree]
  cases table <;> simp only [Layout.contiguous] <;> omega

/-! ## Which sequences of calls are correct -/

/--
After `mmu_init`, for sequences of `sbrk` calls for which the free frames
suffice: a sequence none of whose calls obtains a page is correct, and with
clean free frames no other sequence is.
-/
theorem sbrk_backed_iff_no_page_obtained
    (layout : Layout) {kernelEndAddress memsize kernelEnd : Nat}
    (kernel : Kernel) (addressBound : kernelEndAddress ≤ 2 ^ 26)
    (memoryBound : memsize < 2 ^ 32) (kernelEndBound : kernelEnd < 2 ^ 39)
    (zeroed : ∀ table i, kernel.mm.memory (layout.frame table) i = 0)
    (image : ImageReserved layout kernelEnd) :
    ∃ booted,
      mmuInit layout kernelEndAddress memsize kernelEnd kernel =
        some booted ∧
      ∀ calls final, (∀ incr ∈ calls, incr < 2 ^ 64) →
        run sbrkEffect booted calls = some final →
        ((∀ incr ∈ calls, pagesObtained incr = 0) →
          CallsCorrect booted calls) ∧
        (Clean pmlShape booted.mm.memory
            (freeFrames booted.mm.allocator) →
          (CallsCorrect booted calls ↔
            ∀ incr ∈ calls, pagesObtained incr = 0)) := by
  obtain ⟨booted, returns, boots⟩ := booted_of_mmuInit memoryBound
    kernelEndBound image addressBound zeroed
  have region := boots.heapRegion memoryBound
  have heapSmall : booted.heap.heapEnd < 2 ^ 64 := by
    have below := region.below
    rw [kernelHeapStart] at below
    rw [boots.heapEnd]
    omega
  refine ⟨booted, returns, fun calls final words runs => ?_⟩
  have enough := callsCorrect_of_nothing boots.heapEnd heapSmall words
  refine ⟨enough, fun clean => ⟨fun correct => ?_, enough⟩⟩
  have blocks := pml2Count_eq addressBound
  have grown := HeapGrown.run region
    (boots.heapGrown memoryBound kernelEndBound image (by omega) clean) runs
  rw [Nat.zero_add] at grown
  rcases List.eq_nil_or_concat calls with rfl | ⟨earlier, last, rfl⟩
  · exact fun incr member => absurd member List.not_mem_nil
  · rw [List.concat_eq_append, run_append, Option.bind_eq_some_iff] at runs
    obtain ⟨before, runsBefore, call⟩ := runs
    rw [run_cons_eq_some_iff] at call
    obtain ⟨after, effect, same⟩ := call
    obtain rfl := Option.some.inj same
    obtain ⟨⟨returned, _⟩, call, rfl⟩ := Option.map_eq_some_iff.mp effect
    have backed := (correct earlier last [] (List.concat_eq_append)
      before returned _ runsBefore call).backed
    intro incr member
    by_contra obtains
    refine not_heapBacked_of_grown region grown ?_
      (fun frame free =>
        (boots.free_ge memoryBound kernelEndBound image free).2) backed
    exact List.sum_pos_iff_exists_pos_nat.mpr ⟨pagesObtained incr,
      List.mem_map_of_mem member, Nat.pos_of_ne_zero obtains⟩

/--
On 128 MiB of memory a small kernel may ask for nothing, or for so much that
the increment is zero when it is rounded.
-/
theorem sbrk_backed_small_kernel :
    pagesObtained (2 ^ 64 - 1) = 0 ∧
    ∃ booted,
      mmuInit Layout.contiguous 0x190000 0x8000000 0x1F0001 Kernel.zeroed =
        some booted ∧
      run sbrkEffect booted [0, 2 ^ 64 - 1] = some booted ∧
      CallsCorrect booted [0, 2 ^ 64 - 1] := by
  have nothing : ∀ incr ∈ [0, 2 ^ 64 - 1], pagesObtained incr = 0 := by
    decide
  obtain ⟨booted, boots, backed⟩ :=
    sbrk_backed_iff_no_page_obtained Layout.contiguous Kernel.zeroed
      (show 0x190000 ≤ 2 ^ 26 by decide) (show 0x8000000 < 2 ^ 32 by decide)
      (show 0x1F0001 < 2 ^ 39 by decide) (fun _ _ => rfl)
      imageReserved_contiguous
  have runs := run_of_nothing nothing booted
  exact ⟨nothing _ (by decide), booted, boots, runs,
    (backed _ _ (by decide) runs).1 nothing⟩

/-- The first page that `sbrk` obtains is not backed. -/
theorem first_page_not_backed :
    ∃ booted final,
      mmuInit Layout.contiguous 0x190000 0x8000000 0x1F0001 Kernel.zeroed =
        some booted ∧
      run sbrkEffect booted [4096] = some final ∧
      ¬ CallsCorrect booted [4096] := by
  have memoryBound : (0x8000000 : Nat) < 2 ^ 32 := by decide
  have kernelEndBound : (0x1F0001 : Nat) < 2 ^ 39 := by decide
  have image := imageReserved_contiguous
  have zeroed : ∀ table i,
      Kernel.zeroed.mm.memory (Layout.contiguous.frame table) i = 0 :=
    fun _ _ => rfl
  obtain ⟨booted, returns, boots⟩ := booted_of_mmuInit memoryBound
    kernelEndBound image (show 0x190000 ≤ 2 ^ 26 by decide) zeroed
  have region := boots.heapRegion memoryBound
  have clean := clean_of_zeroed memoryBound kernelEndBound image (by decide)
    (fun _ _ => rfl) (fun _ => rfl) returns boots
  have grown := boots.heapGrown memoryBound kernelEndBound image (by decide)
    clean
  have enough : 4 ≤ (freeFrames booted.mm.allocator).length := by
    have free : ∀ frame ∈ [1000, 1001, 1002, 1003],
        frame ∈ freeFrames booted.mm.allocator := by
      intro frame member
      rw [boots.free]
      revert frame
      decide
    exact (List.subperm_of_subset (by decide) free).length_le
  obtain ⟨final, steps⟩ := HeapGrown.exists_step region grown enough
  have call : sbrk 4096 booted = some (booted.heap.heapEnd, final) := by
    have onePage : pageRound 4096 / pageSize = 1 := by decide
    rw [sbrk, if_neg (by decide), onePage, sbrkPages, sbrkPages,
      Option.bind_some, steps, Option.map_some]
  refine ⟨booted, final, returns, ?_, fun correct => ?_⟩
  · rw [run_cons, sbrkEffect, call]
    rfl
  · exact not_heapBacked_of_grown region
      (HeapGrown.step region grown steps) (Nat.succ_pos 0)
      (fun frame free =>
        (boots.free_ge memoryBound kernelEndBound image free).2)
      (correct [] 4096 [] rfl booted _ final rfl call).backed

end Kernull.HeapBacking
