import Kernull.InitialAddressSpace

/-!
# The mapping of the kernel image

The linker symbol `kernel_end` is the end of the image by its address.  Inside
`mmu_init` the name stands for the parameter, which lies on the boot stack in
the image, and low memory is mapped up to the address of the parameter, rounded
up to 16 MiB.  Whether the image stays mapped depends on where the stack lies.
-/

namespace Kernull.ImageMapping

open Kernull.Mm
open Kernull.Pml
open Kernull.PageTables
open Kernull.PageWalkers
open Kernull.MmuInit
open Kernull.InitialAddressSpace

/-- The address at which the image starts. -/
def imageStart : Nat := 0x100000

/-- The size of the boot stack. -/
def stackSize : Nat := 16384

/--
An image from 1 MiB to the symbol `kernel_end`, with the boot stack somewhere
in it and the parameter of `mmu_init`, eight bytes long, on the stack.
-/
structure Image where
  kernelEnd : Nat
  stackBottom : Nat
  parameter : Nat
  atMost : kernelEnd ≤ 2 ^ 26
  stackInside :
    imageStart ≤ stackBottom ∧ stackBottom + stackSize ≤ kernelEnd
  onStack :
    stackBottom ≤ parameter ∧ parameter + 8 ≤ stackBottom + stackSize

/-- Where the mapping ends that is computed from `&kernel_end`. -/
def mappedEnd (kernelEndAddress : Nat) : Nat :=
  (kernelEndAddress + (2 ^ 24 - 1)) / 2 ^ 24 * 2 ^ 24

/-- Every address of the image translates to itself. -/
def ImageMapped (image : Image) (kernel : Kernel) : Prop :=
  ∀ virtAddr, imageStart ≤ virtAddr → virtAddr < image.kernelEnd →
    mmuTranslate kernel virtAddr = virtAddr

/--
The static tables are zero before, and the metadata of the page allocator,
which is cleared behind the page of `kernel_end`, is not put over them.
-/
structure TablesReady
    (layout : Layout) (memsize kernelEnd : Nat) (kernel : Kernel) :
    Prop where
  zeroed : ∀ table i, kernel.mm.memory (layout.frame table) i = 0
  apart : ∀ table,
    layout.frame table < firstFreePage kernelEnd / 4096 ∨
      firstFreePage kernelEnd / 4096 + metadataPages memsize ≤
        layout.frame table

section Mapping

variable {layout : Layout} {memsize kernelEnd : Nat} {kernel after : Kernel}

theorem currentPml4_of_mmuInit {kernelEndAddress : Nat}
    (returns :
      mmuInit layout kernelEndAddress memsize kernelEnd kernel =
        some after) :
    pml2Count kernelEndAddress ≤ 32 ∧ metadataPages memsize ≤ 3 * 512 ∧
      after.currentPml4 = mmuToVirt (layout.addressOf .highBasePml4) := by
  rw [mmuInit] at returns
  split_ifs at returns with bounds
  rcases Option.bind_eq_some_iff.mp returns with
    ⟨allocator, _, heapReturns⟩
  rcases Option.map_eq_some_iff.mp heapReturns with ⟨heap, _, built⟩
  subst built
  exact ⟨bounds.1, bounds.2, rfl⟩

/-- The tables keep what `mmu_init` stored in them. -/
theorem initialTables_of_mmuInit {kernelEndAddress : Nat}
    (ready : TablesReady layout memsize kernelEnd kernel)
    (returns :
      mmuInit layout kernelEndAddress memsize kernelEnd kernel =
        some after) :
    InitialTables layout after.mm.memory (pml2Count kernelEndAddress)
      (firstFreePage kernelEnd) (metadataPages memsize) := by
  rcases currentPml4_of_mmuInit returns with ⟨blocks, pages, _⟩
  intro table i
  have outside :
      ¬ (firstFreePage kernelEnd / 4096 ≤ layout.frame table ∧
        layout.frame table <
          firstFreePage kernelEnd / 4096 + metadataPages memsize) := by
    have apart := ready.apart table
    omega
  rw [(mmuInit_eq_some returns).2, withBitmap, if_neg outside]
  exact applyStores_frame blocks pages table i (ready.zeroed table i)

/-- Low addresses translate to themselves up to the end of the mapping. -/
theorem mmuTranslate_low {kernelEndAddress virtAddr : Nat}
    (ready : TablesReady layout memsize kernelEnd kernel)
    (bound : kernelEndAddress ≤ 2 ^ 26)
    (returns :
      mmuInit layout kernelEndAddress memsize kernelEnd kernel = some after)
    (above : imageStart ≤ virtAddr) (low : virtAddr < 2 ^ 26) :
    mmuTranslate after virtAddr = virtAddr ↔
      virtAddr < mappedEnd kernelEndAddress := by
  have initial := initialTables_of_mmuInit ready returns
  rcases currentPml4_of_mmuInit returns with ⟨blocks, _, root⟩
  have count := pml2Count_eq bound
  have real : realBits virtAddr = virtAddr := Nat.mod_eq_of_lt (by omega)
  have inLow : pml4Index virtAddr = 0 := by
    rw [pml4Index_eq, real]
    omega
  have first : pml3Index virtAddr = 0 := by
    rw [pml3Index_eq, real]
    omega
  rw [mmuTranslate, root, mappedEnd]
  by_cases inside : pml2Index virtAddr < pml2Count kernelEndAddress
  · have notNull : ¬ (pml2Index virtAddr = 0 ∧ pml1Index virtAddr = 0) := by
      rw [pml2Index_eq, pml1Index_eq_realBits, real]
      rw [imageStart] at above
      omega
    have mapped :=
      low_mapped initial inLow first inside blocks notNull
    rw [real] at mapped
    rw [mapped]
    rw [pml2Index_eq, real] at inside
    constructor
    · intro _
      omega
    · intro _
      rfl
  · have absent :=
      translate_of_firstAbsentAt
        (low_absent_pml2 initial inLow first (Nat.not_lt.mp inside))
    rw [absent, unmapped]
    rw [pml2Index_eq, real] at inside
    constructor
    · intro same
      omega
    · intro below
      omega

/--
The kernel image stays mapped after `mmu_init` exactly when it ends no later
than the address of the parameter, rounded up to 16 MiB.
-/
theorem kernel_image_mapped_iff
    (layout : Layout) (image : Image) (memsize kernelEnd : Nat)
    (kernel after : Kernel)
    (ready : TablesReady layout memsize kernelEnd kernel)
    (returns :
      mmuInit layout image.parameter memsize kernelEnd kernel =
        some after) :
    ImageMapped image after ↔
      image.kernelEnd ≤ mappedEnd image.parameter := by
  have atMost := image.atMost
  have stackInside := image.stackInside
  have onStack := image.onStack
  have bound : image.parameter ≤ 2 ^ 26 := by omega
  have low : ∀ virtAddr, imageStart ≤ virtAddr →
      virtAddr < image.kernelEnd →
        (mmuTranslate after virtAddr = virtAddr ↔
          virtAddr < mappedEnd image.parameter) := by
    intro virtAddr above inImage
    exact mmuTranslate_low ready bound returns above (by omega)
  constructor
  · intro mapped
    -- the last byte of the image decides
    have last : imageStart ≤ image.kernelEnd - 1 := by
      rw [stackSize] at stackInside
      omega
    have inImage : image.kernelEnd - 1 < image.kernelEnd := by omega
    have below := (low _ last inImage).mp (mapped _ last inImage)
    omega
  · intro covered virtAddr above inImage
    exact (low virtAddr above inImage).mpr (by omega)

end Mapping

/-! ## Images that stay mapped and that do not -/

/-- The zeroed kernel, with the eight bytes behind the image zero as well. -/
theorem tablesReady_zeroed :
    TablesReady Layout.contiguous 0x8000000 0 Kernel.zeroed where
  zeroed _ _ := rfl
  apart := by
    have pages : metadataPages 0x8000000 = 4 := by decide
    have firstFree : firstFreePage 0 = 0 := by decide
    intro table
    right
    rw [pages, firstFree]
    cases table <;> simp only [Layout.contiguous] <;> omega

/-- `mmu_init` returns for 128 MiB of memory. -/
theorem exists_mmuInit_zeroed
    {kernelEndAddress : Nat} (bound : kernelEndAddress ≤ 2 ^ 26) :
    ∃ after,
      mmuInit Layout.contiguous kernelEndAddress 0x8000000 0
        Kernel.zeroed = some after := by
  have count := pml2Count_eq bound
  have pages : metadataPages 0x8000000 = 4 := by decide
  rcases mmuInit_spec Layout.contiguous Kernel.zeroed
      (show pml2Count kernelEndAddress ≤ 32 by omega)
      (show metadataPages 0x8000000 ≤ 3 * 512 by omega) (by decide)
      tablesReady_zeroed.zeroed tablesReady_zeroed.apart with
    ⟨after, returns, _⟩
  exact ⟨after, returns⟩

/-- An image of 15 MiB with the stack at its start. -/
def mappedImage : Image where
  kernelEnd := 0x1000000
  stackBottom := 0x100000
  parameter := 0x103FF0
  atMost := by decide
  stackInside := by decide
  onStack := by decide

theorem kernel_image_mapped_15MiB :
    ∃ after,
      mmuInit Layout.contiguous mappedImage.parameter 0x8000000 0
          Kernel.zeroed = some after ∧
        ImageMapped mappedImage after := by
  rcases exists_mmuInit_zeroed (by decide : mappedImage.parameter ≤ 2 ^ 26)
    with ⟨after, returns⟩
  refine ⟨after, returns, ?_⟩
  exact
    (kernel_image_mapped_iff Layout.contiguous mappedImage 0x8000000 0
      Kernel.zeroed after tablesReady_zeroed returns).mpr (by decide)

/-- An image of 16 MiB with the stack at its start. -/
def unmappedImage : Image where
  kernelEnd := 0x1100000
  stackBottom := 0x100000
  parameter := 0x103FF0
  atMost := by decide
  stackInside := by decide
  onStack := by decide

/-- The last page of an image of 16 MiB is not mapped. -/
theorem kernel_image_not_mapped :
    ¬ ∀ (layout : Layout) (image : Image) (memsize kernelEnd : Nat)
      (kernel after : Kernel),
      TablesReady layout memsize kernelEnd kernel →
      mmuInit layout image.parameter memsize kernelEnd kernel =
          some after →
        ImageMapped image after := by
  intro always
  rcases exists_mmuInit_zeroed
      (by decide : unmappedImage.parameter ≤ 2 ^ 26) with
    ⟨after, returns⟩
  have mapped :=
    always Layout.contiguous unmappedImage 0x8000000 0 Kernel.zeroed after
      tablesReady_zeroed returns
  have low :=
    mmuTranslate_low tablesReady_zeroed
      (by decide : unmappedImage.parameter ≤ 2 ^ 26) returns
      (by decide : imageStart ≤ 0x10FFFFF) (by decide)
  have covered := low.mp (mapped 0x10FFFFF (by decide) (by decide))
  exact absurd covered (by decide)

end Kernull.ImageMapping
