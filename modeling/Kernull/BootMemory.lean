import Kernull.FrameSearch
import Kernull.Library.LabelledRun
import Kernull.MmuInit
import Kernull.Multiboot2Parser

/-!
# The frames handed out after the boot

`kmain` of `arch/x86_64/kmain.c` up to its call of `mmu_init`.  The linker
symbol `kernel_end` marks the end of the image by its address; `kmain`
declares it as a `u64` and passes its value, the eight bytes behind the image.
These bytes and the memory map decide where the reserved frames end, and so
which frames `page_alloc` hands out: from the end of the reserved frames on.
When no frame is free it hands out whatever number the search leaves.
-/

namespace Kernull.BootMemory

open Kernull.Mm
open Kernull.Pml
open Kernull.PageAlloc
open Kernull.FrameSearch
open Kernull.MmuInit
open Kernull.Kmalloc
open Kernull.Multiboot2Parser
open Kernull.Library.ByteMemory
open Kernull.Library.LabelledRun

/-! ## `kmain` -/

/-- `MULTIBOOT2_BOOTLOADER_MAGIC`. -/
def multiboot2BootloaderMagic : Nat := 0x36D76289

/-- `kernel_end` as `kmain` reads it: the `u64` at the symbol's address. -/
def kernelEndValue (memory : Memory) (kernelEndAddress : Nat) : Nat :=
  readBytes memory kernelEndAddress 8

/--
`kmain` up to the return of `mmu_init`; `parameterAddress` is the address of
the parameter of `mmu_init`.  The result is `none` when `kmain` refuses the
magic number, when the parser does not return, or when `mmu_init` does not.
-/
def kmain (layout : Layout) (memory : Memory)
    (kernelEndAddress parameterAddress fuel mbInfoAddr mbMagic : Nat)
    (kernel : Kernel) : Option Kernel :=
  if mbMagic ≠ multiboot2BootloaderMagic then none
  else
    let tags := mbInfoAddr + 8
    (multibootGetMemoryEnd memory fuel tags).bind fun memoryEnd =>
      mmuInit layout parameterAddress memoryEnd
        (kernelEndValue memory kernelEndAddress) kernel

/--
A call of `page_alloc`; `fallOff` is the number its caller sees when the
search ends without a result.
-/
def allocStep (fallOff : PageAllocator → Nat) (allocator : PageAllocator)
    (call : PmlEntry × BitVec 64) : Option PageAllocator :=
  some (pageAllocOr fallOff call.1 call.2 allocator).2

/-! ## The property -/

/--
The memory map of a machine with one region of available memory from 1 MiB on
and below 4 GiB; other available regions lie below 1 MiB.
-/
structure OneRegion (memory : Memory)
    (mmap entrySize count available regionEnd : Nat) : Prop where
  isMap : MemoryMap memory mmap entrySize count
  inside : available < count
  isAvailable : entryType memory (entryAt mmap entrySize available) =
    multibootMemoryAvailable
  start : entryAddr memory (entryAt mmap entrySize available) = 0x100000
  finish : 0x100000 +
    entryLen memory (entryAt mmap entrySize available) = regionEnd
  nonempty : 0x100000 < regionEnd
  below : regionEnd ≤ 2 ^ 32
  others : ∀ index, index < count → index ≠ available →
    entryType memory (entryAt mmap entrySize index) =
        multibootMemoryAvailable →
      0 < entryLen memory (entryAt mmap entrySize index) ∧
        entryAddr memory (entryAt mmap entrySize index) +
          entryLen memory (entryAt mmap entrySize index) ≤ 0x100000

/-- The frame of a byte of the bitmap, as `mmu_init` maps it. -/
def bitmapFrame (firstFree byte : Nat) : Nat :=
  (firstFree + byte) % 2 ^ 64 / 4096 % 2 ^ 40

/--
A frame lies in the available region, and neither in the kernel image nor in
the bitmap, which has a bit for each frame.
-/
structure FrameSafe
    (regionEnd kernelEndAddress firstFree nframes frame : Nat) : Prop where
  above : 0x100000 ≤ frame * 4096
  below : frame * 4096 + 4096 ≤ regionEnd
  image : frame * 4096 + 4096 ≤ 0x100000 ∨
    kernelEndAddress ≤ frame * 4096
  bitmap : ∀ byte < (nframes + 7) / 8, bitmapFrame firstFree byte ≠ frame

/-- What a call puts into an empty entry is a safe frame. -/
def HandsOutSafe (fallOff : PageAllocator → Nat)
    (regionEnd kernelEndAddress firstFree : Nat)
    (allocator : PageAllocator) (call : PmlEntry × BitVec 64) : Prop :=
  address call.1 = 0 →
    FrameSafe regionEnd kernelEndAddress firstFree allocator.nframes
      (address (pageAllocOr fallOff call.1 call.2 allocator).1)

/--
Once `kmain` has called `mmu_init`, each of the calls of `page_alloc` meets
the guard in the state that the calls before it have left.
-/
def AfterBoot (layout : Layout) (memory : Memory)
    (kernelEndAddress parameterAddress mbInfoAddr : Nat) (kernel : Kernel)
    (fallOff : PageAllocator → Nat)
    (guard : PageAllocator → PmlEntry × BitVec 64 → Prop)
    (calls : List (PmlEntry × BitVec 64)) : Prop :=
  ∀ booted enough,
    (∀ fuel, enough ≤ fuel →
      kmain layout memory kernelEndAddress parameterAddress fuel mbInfoAddr
        multiboot2BootloaderMagic kernel = some booted) →
    Guarded (allocStep fallOff) guard booted.mm.allocator calls

/-- Every frame that the calls hand out is safe. -/
def BootSafe (layout : Layout) (memory : Memory)
    (kernelEndAddress parameterAddress mbInfoAddr regionEnd : Nat)
    (kernel : Kernel) (fallOff : PageAllocator → Nat)
    (calls : List (PmlEntry × BitVec 64)) : Prop :=
  AfterBoot layout memory kernelEndAddress parameterAddress mbInfoAddr kernel
    fallOff
    (HandsOutSafe fallOff regionEnd kernelEndAddress
      (firstFreePage (kernelEndValue memory kernelEndAddress)))
    calls

/-! ## Where the reserved frames end -/

/-- The highest end of available memory among every third entry. -/
def visitedHighest (memory : Memory) (mmap entrySize count : Nat) : Nat :=
  (visitedFrom count 0).sup fun index =>
    contribution memory (entryAt mmap entrySize index)

/-- The bound of the reservation: the end of the cleared bitmap. -/
def reservedBound (value memoryEnd : Nat) : Nat :=
  (firstFreePage value + memoryEnd / 4096 / 8) % 2 ^ 64

/-- The page boundary at or behind that bound. -/
def reservedEnd (value memoryEnd : Nat) : Nat :=
  (reservedBound value memoryEnd + 4095) / 4096 * 4096

/--
The reserved frames end at or behind the image and cover the last, partial
byte of the bitmap.
-/
structure ReservedEnough (kernelEndAddress value memoryEnd : Nat) :
    Prop where
  image : kernelEndAddress ≤ reservedEnd value memoryEnd
  bitmap : ¬ (memoryEnd / 4096 % 8 ≠ 0 ∧
    reservedEnd value memoryEnd = reservedBound value memoryEnd)

/--
A call for an empty entry finds a free frame, and enough is reserved; or it
finds none, and the number the search leaves is that of a safe frame.
-/
def Provided (fallOff : PageAllocator → Nat)
    (regionEnd kernelEndAddress value memoryEnd : Nat)
    (allocator : PageAllocator) (call : PmlEntry × BitVec 64) : Prop :=
  address call.1 = 0 →
    if firstFreeFrame allocator = none then
      FrameSafe regionEnd kernelEndAddress (firstFreePage value)
        allocator.nframes (fallOff allocator % 2 ^ 40)
    else
      ReservedEnough kernelEndAddress value memoryEnd

/-- The parser returns at most the end of the region. -/
theorem OneRegion.visitedHighest_lt
    {memory : Memory} {mmap entrySize count available regionEnd : Nat}
    (region : OneRegion memory mmap entrySize count available regionEnd) :
    visitedHighest memory mmap entrySize count < regionEnd := by
  have nonempty := region.nonempty
  rw [visitedHighest, Finset.sup_lt_iff (by rw [bot_eq_zero]; omega)]
  intro index visited
  have inside := Finset.mem_range.mp (Finset.mem_filter.mp visited).1
  rw [contribution]
  split_ifs with isAvailable
  · by_cases same : index = available
    · subst same
      have finish := region.finish
      rw [region.isMap.entryHighest_of_usable inside (by omega),
        region.start]
      omega
    · obtain ⟨positive, low⟩ :=
        region.others index inside same isAvailable
      rw [region.isMap.entryHighest_of_usable inside positive]
      omega
  · omega

section Boot

variable {layout : Layout} {kernel : Kernel}
  {parameterAddress memoryEnd value : Nat}

/-- `mmu_init` returns when the reservation ends. -/
theorem mmuInit_of_reservedEnd
    (parameterBound : parameterAddress ≤ 2 ^ 26)
    (small : memoryEnd < 2 ^ 32)
    (ends : reservedEnd value memoryEnd < 2 ^ 64) :
    ∃ booted, mmuInit layout parameterAddress memoryEnd value kernel =
      some booted := by
  have blocks := pml2Count_eq parameterBound
  have blocksBound : pml2Count parameterAddress ≤ 32 := by omega
  have pages := metadataPages_le small
  have pagesBound : metadataPages memoryEnd ≤ 3 * 512 := by omega
  have count : (memoryEnd >>> 12) % 2 ^ 32 = memoryEnd / 4096 := by
    rw [Nat.shiftRight_eq_div_pow]
    omega
  obtain ⟨allocator, initialised⟩ : ∃ allocator,
      pageAllocatorInit (firstFreePage value) memoryEnd
        kernel.mm.allocator = some allocator := by
    refine ⟨_, if_pos ?_⟩
    rw [count]
    exact ends
  exact ⟨_, mmuInit_of_pageAllocatorInit layout blocksBound pagesBound
    initialised⟩

/-- The free frames are those of whole bitmap bytes behind the reserved. -/
theorem mem_freeFrames_boot
    {booted : Kernel} (small : memoryEnd < 2 ^ 32)
    (returns : mmuInit layout parameterAddress memoryEnd value kernel =
      some booted) :
    booted.mm.allocator.nframes = memoryEnd / 4096 ∧
      ∀ frame, frame ∈ freeFrames booted.mm.allocator ↔
        frame < 8 * (memoryEnd / 4096 / 8) ∧
          reservedEnd value memoryEnd ≤ frame * 4096 := by
  obtain ⟨count, marked⟩ :=
    pageAllocatorInit_reserved small (mmuInit_eq_some returns).1
  refine ⟨count, fun frame => ?_⟩
  rw [mem_freeFrames, count]
  refine and_congr_right fun inside => ?_
  rw [marked, or_iff_left (not_marked_clearBitmap inside _),
    ← reservedBound, reservedEnd]
  omega

end Boot

/-! ## Calls of `page_alloc` -/

/-- Marking a frame keeps the others marked. -/
theorem marked_frameSet_of_marked
    {allocator : PageAllocator} {frame : Nat}
    (marked : Marked allocator frame) (frameAddr : Nat) :
    Marked (frameSet frameAddr allocator) frame := by
  by_cases inside : frameAddr < frameLimit allocator
  · exact (marked_frameSet inside frame).mpr (Or.inr marked)
  · rw [frameSet, if_neg inside]
    exact marked

/-- `page_alloc` only takes free frames away. -/
theorem freeFrames_pageAllocOr
    (fallOff : PageAllocator → Nat) (page : PmlEntry) (flags : BitVec 64)
    (allocator : PageAllocator) :
    (pageAllocOr fallOff page flags allocator).2.nframes =
        allocator.nframes ∧
      freeFrames (pageAllocOr fallOff page flags allocator).2 ⊆
        freeFrames allocator := by
  by_cases empty : address page = 0
  · have marked : (pageAllocOr fallOff page flags allocator).2.frames =
        (frameSet ((firstFreeFrameOr fallOff allocator <<< 12) % 2 ^ 64)
          allocator).frames := by
      rw [pageAllocOr, if_neg (not_not.mpr empty)]
    have count : (pageAllocOr fallOff page flags allocator).2.nframes =
        allocator.nframes := by
      rw [pageAllocOr, if_neg (not_not.mpr empty)]
      exact nframes_frameSet _ allocator
    refine ⟨count, fun frame member => ?_⟩
    rw [mem_freeFrames, count, marked_congr marked] at member
    exact mem_freeFrames.mpr ⟨member.1, fun before =>
      member.2 (marked_frameSet_of_marked before _)⟩
  · have same : pageAllocOr fallOff page flags allocator =
        (page, allocator) := if_pos empty
    rw [same]
    exact ⟨rfl, fun _ member => member⟩

/-- What an empty entry receives is the first free frame. -/
theorem address_pageAllocOr_of_free
    {page : PmlEntry} {allocator : PageAllocator} {frame : Nat}
    {rest : List Nat} (empty : address page = 0)
    (small : allocator.nframes < 2 ^ 20)
    (free : freeFrames allocator = frame :: rest)
    (fallOff : PageAllocator → Nat) (flags : BitVec 64) :
    address (pageAllocOr fallOff page flags allocator).1 = frame := by
  obtain ⟨next, allocates, -⟩ := pageAlloc_of_free flags empty small free
  have inRange := (mem_freeFrames.mp (free ▸ List.mem_cons_self)).1
  rw [pageAllocOr_of_pageAlloc fallOff allocates, address_orFlags,
    address_setPresent, address_setAddress, Nat.mod_eq_of_lt (by omega)]

/-- Without a free frame it is the number that the search leaves. -/
theorem address_pageAllocOr_of_exhausted
    {page : PmlEntry} {allocator : PageAllocator}
    (empty : address page = 0) (none_ : firstFreeFrame allocator = none)
    (fallOff : PageAllocator → Nat) (flags : BitVec 64) :
    address (pageAllocOr fallOff page flags allocator).1 =
      fallOff allocator % 2 ^ 40 :=
  ((exhaustion_untouched_iff none_ fallOff page flags).2 empty).2

/-- The first free frame is the lowest one. -/
theorem head_freeFrames
    {allocator : PageAllocator} {frame other : Nat} {rest : List Nat}
    (free : freeFrames allocator = frame :: rest)
    (member : other ∈ freeFrames allocator) : frame ≤ other := by
  have sorted : (freeFrames allocator).Pairwise (· < ·) :=
    List.pairwise_lt_range.filter _
  rw [free] at sorted member
  rcases List.mem_cons.mp member with rfl | later
  · exact Nat.le_refl other
  · exact Nat.le_of_lt ((List.pairwise_cons.mp sorted).1 other later)

/-! ## When the frames are safe -/

section Safety

variable {layout : Layout} {memory : Memory}
  {kernelEndAddress parameterAddress mbInfoAddr : Nat}
  {mmap entrySize count available regionEnd : Nat} {kernel : Kernel}
  (first : FirstTag memory multibootTagTypeMmap (mbInfoAddr + 8) mmap)
  (region : OneRegion memory mmap entrySize count available regionEnd)

include first region

/-- With enough fuel `kmain` calls `mmu_init` with the visited maximum. -/
theorem kmain_eq
    (layout : Layout) (kernelEndAddress parameterAddress : Nat)
    (kernel : Kernel) :
    ∃ enough, ∀ fuel, enough ≤ fuel →
      kmain layout memory kernelEndAddress parameterAddress fuel mbInfoAddr
          multiboot2BootloaderMagic kernel =
        mmuInit layout parameterAddress
          (visitedHighest memory mmap entrySize count)
          (kernelEndValue memory kernelEndAddress) kernel := by
  obtain ⟨enough, returns⟩ := region.isMap.returns_visited first
  refine ⟨enough, fun fuel bound => ?_⟩
  rw [kmain, if_neg (not_not.mpr rfl)]
  simp only [returns fuel bound, Option.bind_some]
  rfl

end Safety

/-! ### One frame -/

section Frame

variable {kernelEndAddress regionEnd value memoryEnd frame : Nat}

/-- When the frame behind the reserved ones is safe, enough is reserved. -/
theorem reservedEnough_of_frameSafe
    (small : memoryEnd < 2 ^ 32)
    (inside : frame < 8 * (memoryEnd / 4096 / 8))
    (atEnd : frame * 4096 = reservedEnd value memoryEnd)
    (safe : FrameSafe regionEnd kernelEndAddress (firstFreePage value)
      (memoryEnd / 4096) frame) :
    ReservedEnough kernelEndAddress value memoryEnd := by
  have above := safe.above
  refine ⟨by have image := safe.image; omega, ?_⟩
  rintro ⟨partly, same⟩
  refine safe.bitmap (memoryEnd / 4096 / 8) (by omega) ?_
  rw [bitmapFrame, ← reservedBound, ← same, ← atEnd]
  omega

/-- When enough is reserved, every frame behind it is safe. -/
theorem frameSafe_of_reservedEnough
    (image : 0x100000 ≤ kernelEndAddress) (below : memoryEnd < regionEnd)
    (small : memoryEnd < 2 ^ 32)
    (reserved : ReservedEnough kernelEndAddress value memoryEnd)
    (inside : frame < 8 * (memoryEnd / 4096 / 8))
    (behind : reservedEnd value memoryEnd ≤ frame * 4096) :
    FrameSafe regionEnd kernelEndAddress (firstFreePage value)
      (memoryEnd / 4096) frame := by
  have behindImage := reserved.image
  refine ⟨by omega, by omega, Or.inr (by omega), ?_⟩
  intro byte inBitmap same
  -- only the last, partial byte can lie behind the reserved frames
  have aligned : firstFreePage value % 4096 = 0 := Nat.mul_mod_left _ _
  have start : firstFreePage value < 2 ^ 64 := pageRound_lt value
  have covered := reserved.bitmap
  simp only [reservedEnd, reservedBound, bitmapFrame] at *
  refine covered ?_
  omega

end Frame

/-! ### Runs -/

/-- The state of a run of calls, before or behind its first allocation. -/
structure Allocating
    (kernelEndAddress value memoryEnd : Nat)
    (booted allocator : PageAllocator) : Prop where
  nframes : allocator.nframes = booted.nframes
  fewer : freeFrames allocator ⊆ freeFrames booted
  untouched : freeFrames allocator = freeFrames booted ∨
    ReservedEnough kernelEndAddress value memoryEnd

section Runs

variable {layout : Layout} {kernel booted : Kernel}
  {kernelEndAddress parameterAddress memoryEnd regionEnd value : Nat}
  (small : memoryEnd < 2 ^ 32)
  (returns : mmuInit layout parameterAddress memoryEnd value kernel =
    some booted)

include small returns

/-- The first frame handed out is the one behind the reserved frames. -/
theorem first_handed_out
    {frame : Nat} {rest : List Nat}
    (free : freeFrames booted.mm.allocator = frame :: rest) :
    frame < 8 * (memoryEnd / 4096 / 8) ∧
      frame * 4096 = reservedEnd value memoryEnd := by
  obtain ⟨nframes, member⟩ := mem_freeFrames_boot small returns
  obtain ⟨inside, notBelow⟩ :=
    (member frame).mp (free ▸ List.mem_cons_self)
  have aligned : reservedEnd value memoryEnd % 4096 = 0 :=
    Nat.mul_mod_left _ _
  have lowest := (member (reservedEnd value memoryEnd / 4096)).mpr
    (by omega)
  have notAbove := head_freeFrames free lowest
  exact ⟨inside, by omega⟩

/-- A safe call was provided for. -/
theorem provided_of_handsOutSafe
    {fallOff : PageAllocator → Nat} {allocator : PageAllocator}
    {call : PmlEntry × BitVec 64}
    (allocating : Allocating kernelEndAddress value memoryEnd
      booted.mm.allocator allocator)
    (safe : HandsOutSafe fallOff regionEnd kernelEndAddress
      (firstFreePage value) allocator call) :
    Provided fallOff regionEnd kernelEndAddress value memoryEnd allocator
      call := by
  obtain ⟨nframes, -⟩ := mem_freeFrames_boot small returns
  have count := allocating.nframes.trans nframes
  intro empty
  have frameSafe := safe empty
  split_ifs with none_
  · rwa [address_pageAllocOr_of_exhausted empty none_] at frameSafe
  rcases allocating.untouched with untouched | reserved
  · rcases free : freeFrames allocator with _ | ⟨frame, rest⟩
    · rw [firstFreeFrame_eq_head, free] at none_
      exact absurd rfl none_
    · rw [address_pageAllocOr_of_free empty (by omega) free, count]
        at frameSafe
      obtain ⟨inside, atEnd⟩ :=
        first_handed_out small returns (untouched ▸ free)
      exact reservedEnough_of_frameSafe small inside atEnd frameSafe
  · exact reserved

/-- A call that was provided for is safe. -/
theorem handsOutSafe_of_provided
    (image : 0x100000 ≤ kernelEndAddress) (below : memoryEnd < regionEnd)
    {fallOff : PageAllocator → Nat} {allocator : PageAllocator}
    {call : PmlEntry × BitVec 64}
    (allocating : Allocating kernelEndAddress value memoryEnd
      booted.mm.allocator allocator)
    (provided : Provided fallOff regionEnd kernelEndAddress value memoryEnd
      allocator call) :
    HandsOutSafe fallOff regionEnd kernelEndAddress (firstFreePage value)
      allocator call := by
  obtain ⟨nframes, member⟩ := mem_freeFrames_boot small returns
  have count := allocating.nframes.trans nframes
  intro empty
  have condition := provided empty
  split_ifs at condition with none_
  · rwa [address_pageAllocOr_of_exhausted empty none_]
  rcases free : freeFrames allocator with _ | ⟨frame, rest⟩
  · rw [firstFreeFrame_eq_head, free] at none_
    exact absurd rfl none_
  · obtain ⟨inside, behind⟩ := (member frame).mp
      (allocating.fewer (free ▸ List.mem_cons_self))
    rw [address_pageAllocOr_of_free empty (by omega) free, count]
    exact frameSafe_of_reservedEnough image below small condition inside
      behind

omit small returns

/-- A call that was provided for leaves a state of the run. -/
theorem allocating_allocStep
    {fallOff : PageAllocator → Nat} {start allocator next : PageAllocator}
    {call : PmlEntry × BitVec 64}
    (allocating : Allocating kernelEndAddress value memoryEnd start
      allocator)
    (provided : Provided fallOff regionEnd kernelEndAddress value memoryEnd
      allocator call)
    (stepped : allocStep fallOff allocator call = some next) :
    Allocating kernelEndAddress value memoryEnd start next := by
  obtain rfl := Option.some.inj stepped
  obtain ⟨count, fewer⟩ :=
    freeFrames_pageAllocOr fallOff call.1 call.2 allocator
  refine ⟨count.trans allocating.nframes, fun _ member =>
    allocating.fewer (fewer member), ?_⟩
  rcases allocating.untouched with untouched | reserved
  case inr => exact Or.inr reserved
  by_cases empty : address call.1 = 0
  · have condition := provided empty
    split_ifs at condition with none_
    · -- there was nothing to take
      rw [firstFreeFrame_eq_head, List.head?_eq_none_iff] at none_
      rw [none_] at fewer
      rw [← untouched, none_]
      exact Or.inl (List.subset_nil.mp fewer)
    · exact Or.inr condition
  · left
    have same : pageAllocOr fallOff call.1 call.2 allocator =
        (call.1, allocator) := if_pos empty
    rw [same, untouched]

end Runs

section Boot

variable {layout : Layout} {memory : Memory}
  {kernelEndAddress parameterAddress mbInfoAddr : Nat}
  {mmap entrySize count available regionEnd : Nat} {kernel : Kernel}

end Boot

/-! ## A value behind the image -/

/--
A multiboot information with a memory map of one entry, the available memory
from 1 MiB to 128 MiB, and the end tag.  Memory behind it is zero, apart from
one byte behind an image that ends at 0x190000.
-/
def oneEntry (behind : BitVec 8) : Memory := fun address =>
  if address = 0x190002 then behind
  else
    ([0, 0, 0, 0, 0, 0, 0, 0,
      6, 0, 0, 0, 40, 0, 0, 0, 24, 0, 0, 0, 0, 0, 0, 0,
      0, 0, 16, 0, 0, 0, 0, 0, 0, 0, 0xF0, 7, 0, 0, 0, 0,
      1, 0, 0, 0, 0, 0, 0, 0,
      0, 0, 0, 0, 8, 0, 0, 0] : List (BitVec 8)).getD address 0

theorem readBytes_oneEntry (behind : BitVec 8) {address count : Nat}
    (below : address + count ≤ 0x190002) :
    readBytes (oneEntry behind) address count =
      readBytes (oneEntry 0) address count := by
  apply readBytes_congr
  intro offset inside
  have before : address + offset ≠ 0x190002 := by omega
  rw [oneEntry, oneEntry, if_neg before, if_neg before]

theorem firstTag_oneEntry (behind : BitVec 8) :
    FirstTag (oneEntry behind) multibootTagTypeMmap 8 8 := by
  have isMap : tagType (oneEntry behind) 8 = multibootTagTypeMmap :=
    (readBytes_oneEntry behind (by decide)).trans (by decide +kernel)
  refine .here ?_ isMap
  rw [isMap]
  decide

theorem oneRegion_oneEntry (behind : BitVec 8) :
    OneRegion (oneEntry behind) 8 24 1 0 0x8000000 := by
  have start : entryAddr (oneEntry behind) (entryAt 8 24 0) = 0x100000 :=
    (readBytes_oneEntry behind (by decide)).trans (by decide +kernel)
  have length : entryLen (oneEntry behind) (entryAt 8 24 0) = 0x7F00000 :=
    (readBytes_oneEntry behind (by decide)).trans (by decide +kernel)
  exact {
    isMap :=
      { entry_size :=
          (readBytes_oneEntry behind (by decide)).trans (by decide +kernel)
        size :=
          (readBytes_oneEntry behind (by decide)).trans (by decide +kernel)
        large := Nat.le_refl 24
        aligned := rfl
        unwrapped := by
          intro index inside
          obtain rfl : index = 0 := by omega
          rw [start, length]
          decide }
    inside := Nat.one_pos
    isAvailable :=
      (readBytes_oneEntry behind (by decide)).trans (by decide +kernel)
    start := start
    finish := by rw [length]
    nonempty := by decide
    below := by decide
    others := by
      intro index inside other
      omega }

/-- The kernel of such a machine boots, and leaves free frames. -/
theorem boots_oneEntry
    {behind : BitVec 8} {memoryEnd : Nat}
    (highest : visitedHighest (oneEntry behind) 8 24 1 = memoryEnd)
    (small : memoryEnd < 2 ^ 32)
    (room : reservedEnd (kernelEndValue (oneEntry behind) 0x190000)
      memoryEnd < 8 * (memoryEnd / 4096 / 8) * 4096) :
    ∃ booted enough,
      (∀ fuel, enough ≤ fuel →
        kmain Layout.contiguous (oneEntry behind) 0x190000 0x180000 fuel 0
          multiboot2BootloaderMagic Kernel.zeroed = some booted) ∧
      firstFreeFrame booted.mm.allocator ≠ none := by
  obtain ⟨enough, equation⟩ := kmain_eq (firstTag_oneEntry behind)
    (oneRegion_oneEntry behind) Layout.contiguous 0x190000 0x180000
    Kernel.zeroed
  rw [highest] at equation
  obtain ⟨booted, returns⟩ : ∃ booted, mmuInit Layout.contiguous 0x180000
      memoryEnd (kernelEndValue (oneEntry behind) 0x190000) Kernel.zeroed =
        some booted :=
    mmuInit_of_reservedEnd (by decide) small (by omega)
  refine ⟨booted, enough,
    fun fuel bound => (equation fuel bound).trans returns, ?_⟩
  obtain ⟨-, member⟩ := mem_freeFrames_boot small returns
  have aligned : reservedEnd (kernelEndValue (oneEntry behind) 0x190000)
      memoryEnd % 4096 = 0 := Nat.mul_mod_left _ _
  have lowest := (member (reservedEnd
    (kernelEndValue (oneEntry behind) 0x190000) memoryEnd / 4096)).mpr
      (by omega)
  rw [firstFreeFrame_eq_head, Ne, List.head?_eq_none_iff]
  exact List.ne_nil_of_mem lowest

end Kernull.BootMemory
