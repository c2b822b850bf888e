import Kernull.Library.LabelledRun
import Kernull.PageAlloc

/-!
# Exclusive frames

Runs of `page_alloc` and `page_free` behind `page_allocator_init`.  An entry
is live from the call of `page_alloc` that fills it until it is freed.  The
frames of live entries are distinct, in use and not reserved as long as
`page_free` does not release somebody else's frame: it passes the frame number
of the entry where `frame_test` and `frame_clear` expect a byte address, and
so clears the frame with that number divided by the page size.
-/

namespace Kernull.FrameExclusivity

open Kernull.Pml
open Kernull.PageAlloc
open Kernull.Library.LabelledRun

/-- The allocator, the entries it is called with, and those that are live. -/
structure FrameSystem where
  allocator : PageAllocator
  entries : Nat → PmlEntry
  live : List Nat

/-- A call of the page allocator on a named entry. -/
inductive FrameCall where
  | alloc (entry : Nat) (flags : BitVec 64)
  | free (entry : Nat)

/-- The frame an entry holds. -/
def FrameSystem.frame (system : FrameSystem) (entry : Nat) : Nat :=
  address (system.entries entry)

/--
One call; `none` when `page_alloc` uses an undefined frame, or when
`page_free` is called on an entry that is not live.
-/
def frameStep (system : FrameSystem) : FrameCall → Option FrameSystem
  | .alloc entry flags =>
      (pageAlloc (system.entries entry) flags system.allocator).map
        fun result =>
          { allocator := result.2
            entries := Function.update system.entries entry result.1
            live :=
              if system.frame entry = 0 then entry :: system.live
              else system.live }
  | .free entry =>
      if entry ∈ system.live then
        let result := pageFree (system.entries entry) system.allocator
        some
          { allocator := result.2
            entries := Function.update system.entries entry result.1
            live := system.live.erase entry }
      else none

/-- A frame below the bound set at initialisation. -/
def Reserved (bound frame : Nat) : Prop :=
  frame * 4096 < bound

instance (bound frame : Nat) : Decidable (Reserved bound frame) :=
  inferInstanceAs (Decidable (_ < _))

/--
Live entries hold distinct frames that are not reserved, and neither their
frames nor reserved ones are available.
-/
structure Exclusive (bound : Nat) (system : FrameSystem) : Prop where
  distinct : system.live.Pairwise fun left right =>
    system.frame left ≠ system.frame right
  unreserved : ∀ entry ∈ system.live, ¬ Reserved bound (system.frame entry)
  heldUnavailable : ∀ entry ∈ system.live,
    system.frame entry ∉ freeFrames system.allocator
  reservedUnavailable : ∀ frame, Reserved bound frame →
    frame ∉ freeFrames system.allocator

/-- Whatever `page_alloc` puts into an empty entry next is nobody's frame. -/
def HandsOutFresh (bound : Nat) (system : FrameSystem) : Prop :=
  ∀ entry flags next, system.frame entry = 0 →
    frameStep system (.alloc entry flags) = some next →
      ¬ Reserved bound (next.frame entry) ∧
        ∀ other ∈ system.live, system.frame other ≠ next.frame entry

/-- The calls that keep frames exclusive. -/
def KeepsFrames (bound : Nat) (system : FrameSystem) :
    FrameCall → Prop
  | .alloc entry _ =>
      system.frame entry ≠ 0 ∨ freeFrames system.allocator ≠ []
  | .free entry =>
      frameTest (system.frame entry) system.allocator = false ∨
        (¬ Reserved bound (system.frame entry / 4096) ∧
          ∀ other ∈ system.live.erase entry,
            system.frame other ≠ system.frame entry / 4096)

/-- The invariant behind exclusivity, in terms of the bitmap. -/
structure FramesHeld (bound : Nat) (system : FrameSystem) : Prop where
  small : system.allocator.nframes < 2 ^ 20
  firstReserved : system.allocator.nframes / 8 ≠ 0 → 0 < bound
  reserved : ∀ frame, frame < 8 * (system.allocator.nframes / 8) →
    Reserved bound frame → Marked system.allocator frame
  distinct : system.live.Pairwise fun left right =>
    system.frame left ≠ system.frame right
  held : ∀ entry ∈ system.live,
    system.frame entry < 8 * (system.allocator.nframes / 8) ∧
      Marked system.allocator (system.frame entry) ∧
      ¬ Reserved bound (system.frame entry)

section Invariant

variable {bound : Nat} {system next : FrameSystem}

/-- Frame zero is reserved, so live entries are not empty. -/
theorem FramesHeld.frame_ne_zero
    (holds : FramesHeld bound system) {entry : Nat}
    (live : entry ∈ system.live) :
    system.frame entry ≠ 0 := by
  intro zero
  obtain ⟨inside, _, unreserved⟩ := holds.held entry live
  have positive := holds.firstReserved (by omega)
  rw [zero] at unreserved
  exact unreserved (by rw [Reserved]; omega)

theorem FramesHeld.exclusive
    (holds : FramesHeld bound system) : Exclusive bound system where
  distinct := holds.distinct
  unreserved := fun entry live => (holds.held entry live).2.2
  heldUnavailable := fun entry live free =>
    (mem_freeFrames.mp free).2 (holds.held entry live).2.1
  reservedUnavailable := fun frame isReserved free =>
    (mem_freeFrames.mp free).2
      (holds.reserved frame (mem_freeFrames.mp free).1 isReserved)

/-- What a successful allocation on an empty entry does. -/
theorem frameStep_alloc
    {entry : Nat} {flags : BitVec 64}
    (holds : FramesHeld bound system) (empty : system.frame entry = 0)
    (step : frameStep system (.alloc entry flags) = some next) :
    ∃ frame, frame ∈ freeFrames system.allocator ∧
      next.frame entry = frame ∧
      (∀ other, other ≠ entry → next.frame other = system.frame other) ∧
      next.live = entry :: system.live ∧
      next.allocator.nframes = system.allocator.nframes ∧
      ∀ other, Marked next.allocator other ↔
        other = frame ∨ Marked system.allocator other := by
  cases free : freeFrames system.allocator with
  | nil =>
      rw [frameStep, pageAlloc_of_exhausted empty free,
        Option.map_none] at step
      exact absurd step (by simp)
  | cons frame rest =>
      obtain ⟨allocator, equation, sameCount, _, marked⟩ :=
        pageAlloc_of_free flags empty holds.small free
      rw [frameStep, equation, Option.map_some, Option.some.injEq,
        if_pos empty] at step
      subst step
      have inRange := (mem_freeFrames.mp (free ▸ List.mem_cons_self)).1
      have small := holds.small
      refine ⟨frame, List.mem_cons_self, ?_, ?_, rfl, sameCount, marked⟩
      · simp only [FrameSystem.frame, Function.update_self, address_orFlags,
          address_setPresent, address_setAddress]
        exact Nat.mod_eq_of_lt (by omega)
      · intro other different
        simp only [FrameSystem.frame, Function.update_of_ne different]

/-- A frame that `page_alloc` takes is nobody's. -/
theorem FramesHeld.handsOutFresh
    (holds : FramesHeld bound system) : HandsOutFresh bound system := by
  intro entry flags next empty step
  obtain ⟨frame, free, taken, _⟩ := frameStep_alloc holds empty step
  obtain ⟨inside, unmarked⟩ := mem_freeFrames.mp free
  rw [taken]
  refine ⟨fun isReserved => unmarked (holds.reserved frame inside isReserved),
    fun other live same => unmarked ?_⟩
  rw [← same]
  exact (holds.held other live).2.1

/-- What freeing a live entry does to the bitmap. -/
theorem frameStep_free
    {entry : Nat} (step : frameStep system (.free entry) = some next) :
    entry ∈ system.live ∧ next.live = system.live.erase entry ∧
      (∀ other, other ≠ entry → next.frame other = system.frame other) ∧
      next.allocator.nframes = system.allocator.nframes ∧
      ∀ frame, Marked system.allocator frame →
        Marked next.allocator frame ∨
          (frameTest (system.frame entry) system.allocator = true ∧
            frame = system.frame entry / 4096) := by
  rw [frameStep] at step
  split_ifs at step with live
  rw [Option.some.injEq] at step
  subst step
  refine ⟨live, rfl, ?_, nframes_pageFree _ _, fun frame marked =>
    marked_pageFree marked⟩
  intro other different
  simp only [FrameSystem.frame, Function.update_of_ne different]

theorem FramesHeld.alloc
    {entry : Nat} {flags : BitVec 64} (holds : FramesHeld bound system)
    (empty : system.frame entry = 0)
    (step : frameStep system (.alloc entry flags) = some next) :
    FramesHeld bound next := by
  obtain ⟨frame, free, taken, others, live, sameCount, marked⟩ :=
    frameStep_alloc holds empty step
  obtain ⟨inside, unmarked⟩ := mem_freeFrames.mp free
  have notLive : entry ∉ system.live := fun member =>
    holds.frame_ne_zero member empty
  have sameFrame : ∀ other ∈ system.live,
      next.frame other = system.frame other := by
    intro other member
    exact others other (by rintro rfl; exact notLive member)
  have fresh := holds.handsOutFresh entry flags next empty step
  refine ⟨sameCount ▸ holds.small, sameCount ▸ holds.firstReserved,
    ?_, ?_, ?_⟩
  · intro other inRange isReserved
    rw [sameCount] at inRange
    exact (marked other).mpr
      (Or.inr (holds.reserved other inRange isReserved))
  · rw [live]
    refine List.pairwise_cons.mpr ⟨?_, ?_⟩
    · intro other member same
      rw [sameFrame other member] at same
      exact fresh.2 other member same.symm
    · refine holds.distinct.imp_of_mem ?_
      intro left right leftLive rightLive different
      rw [sameFrame left leftLive, sameFrame right rightLive]
      exact different
  · rw [live, sameCount]
    intro other member
    rcases List.mem_cons.mp member with rfl | member
    · refine ⟨taken ▸ inside, ?_, fresh.1⟩
      rw [taken]
      exact (marked frame).mpr (Or.inl rfl)
    · rw [sameFrame other member]
      obtain ⟨inRange, isMarked, unreserved⟩ := holds.held other member
      exact ⟨inRange, (marked _).mpr (Or.inr isMarked), unreserved⟩

/-- A guarded `page_free` clears the bit of a frame that nobody holds. -/
theorem FramesHeld.free
    {entry : Nat} (holds : FramesHeld bound system)
    (keeps : KeepsFrames bound system (.free entry))
    (step : frameStep system (.free entry) = some next) :
    FramesHeld bound next := by
  obtain ⟨_, live, others, sameCount, marked⟩ := frameStep_free step
  have nodup : system.live.Nodup :=
    holds.distinct.imp fun different same => different (by rw [same])
  have sameFrame : ∀ other ∈ system.live.erase entry,
      next.frame other = system.frame other := by
    intro other member
    refine others other ?_
    rintro rfl
    exact nodup.not_mem_erase member
  have stays : ∀ frame, Marked system.allocator frame →
      Marked next.allocator frame ∨
        (¬ Reserved bound frame ∧
          ∀ other ∈ system.live.erase entry, system.frame other ≠ frame) := by
    intro frame isMarked
    rcases marked frame isMarked with still | ⟨tested, rfl⟩
    · exact Or.inl still
    · rcases keeps with untested | harmless
      · rw [tested] at untested
        exact absurd untested (by decide)
      · exact Or.inr harmless
  refine ⟨sameCount ▸ holds.small, sameCount ▸ holds.firstReserved,
    ?_, ?_, ?_⟩
  · intro frame inRange isReserved
    rw [sameCount] at inRange
    exact (stays frame (holds.reserved frame inRange isReserved)).resolve_right
      fun harmless => harmless.1 isReserved
  · rw [live]
    refine (holds.distinct.sublist List.erase_sublist).imp_of_mem ?_
    intro left right leftLive rightLive different
    rw [sameFrame left leftLive, sameFrame right rightLive]
    exact different
  · rw [live, sameCount]
    intro other member
    rw [sameFrame other member]
    obtain ⟨inRange, isMarked, unreserved⟩ :=
      holds.held other (List.mem_of_mem_erase member)
    exact ⟨inRange, (stays _ isMarked).resolve_right
      fun harmless => harmless.2 other member rfl, unreserved⟩

/-- Guarded calls keep the invariant. -/
theorem FramesHeld.step
    {call : FrameCall} (holds : FramesHeld bound system)
    (keeps : KeepsFrames bound system call)
    (step : frameStep system call = some next) :
    FramesHeld bound next := by
  cases call with
  | alloc entry flags =>
      by_cases empty : system.frame entry = 0
      · exact holds.alloc empty step
      · have unchanged : next = system := by
          rw [frameStep, pageAlloc_of_allocated empty, Option.map_some,
            Option.some.injEq, if_neg empty, Function.update_eq_self] at step
          exact step.symm
        rw [unchanged]
        exact holds
  | free entry => exact holds.free keeps step

end Invariant

/-! ## Runs -/

/-- `first_free_page + metadata_bytes`. -/
def reservedBound (firstFreePage memsize : Nat) : Nat :=
  firstFreePage + memsize / 4096 / 8

/-- The system behind `page_allocator_init`. -/
def bootFrames (firstFreePage memsize : Nat) (allocator : PageAllocator)
    (entries : Nat → PmlEntry) : Option FrameSystem :=
  (pageAllocatorInit firstFreePage memsize allocator).map
    fun allocator => ⟨allocator, entries, []⟩

theorem framesHeld_of_boot
    {firstFreePage memsize : Nat} {allocator : PageAllocator}
    {entries : Nat → PmlEntry} {initial : FrameSystem}
    (small : memsize < 2 ^ 32)
    (unwrapped : reservedBound firstFreePage memsize < 2 ^ 64)
    (booted : bootFrames firstFreePage memsize allocator entries =
      some initial) :
    FramesHeld (reservedBound firstFreePage memsize) initial := by
  rw [bootFrames, Option.map_eq_some_iff] at booted
  obtain ⟨allocator, initialised, rfl⟩ := booted
  obtain ⟨count, reserved, _⟩ :=
    pageAllocatorInit_spec small unwrapped initialised
  refine ⟨?_, ?_, ?_, List.Pairwise.nil, by simp⟩
  · simp only [count]
    omega
  · simp only [count, reservedBound]
    omega
  · intro frame inside isReserved
    simp only [count] at inside
    exact reserved frame (by omega) isReserved

/--
Along runs whose calls keep frames, live frames stay exclusive and every
frame handed out is nobody's.
-/
theorem frames_exclusive_of_guarded
    {firstFreePage memsize : Nat} {allocator : PageAllocator}
    {entries : Nat → PmlEntry} {initial visited : FrameSystem}
    {calls : List FrameCall} (small : memsize < 2 ^ 32)
    (unwrapped : reservedBound firstFreePage memsize < 2 ^ 64)
    (booted : bootFrames firstFreePage memsize allocator entries =
      some initial)
    (guarded : Guarded frameStep
      (KeepsFrames (reservedBound firstFreePage memsize)) initial calls)
    (visits : Visits frameStep initial calls visited) :
    Exclusive (reservedBound firstFreePage memsize) visited ∧
      HandsOutFresh (reservedBound firstFreePage memsize) visited := by
  have holds := invariant_of_guarded
    (fun _ _ _ holds keeps step => FramesHeld.step holds keeps step)
    (framesHeld_of_boot small unwrapped booted) guarded visits
  exact ⟨holds.exclusive, holds.handsOutFresh⟩

/-- A cleared bitmap before `page_allocator_init`. -/
def blankAllocator : PageAllocator where
  frames := fun _ => 0
  nframes := 0
  totalMemory := 0
  unavailableMemory := 0

/-- Two entries filled from 128 KiB of memory hold exclusive frames. -/
theorem frames_exclusive_after_two_allocations :
    ∃ initial final,
      bootFrames 0x1000 0x20000 blankAllocator (fun _ => 0) = some initial ∧
      run frameStep initial [.alloc 0 0, .alloc 1 0] = some final ∧
      Exclusive (reservedBound 0x1000 0x20000) final ∧
      HandsOutFresh (reservedBound 0x1000 0x20000) final := by
  have observed :
      ((bootFrames 0x1000 0x20000 blankAllocator fun _ => 0).bind
        fun initial => (run frameStep initial [.alloc 0 0]).bind
          fun next => (run frameStep next [.alloc 1 0]).map fun _ =>
            decide (freeFrames initial.allocator ≠ [] ∧
              freeFrames next.allocator ≠ [])) = some true := by
    decide +kernel
  obtain ⟨initial, booted, observed⟩ := Option.bind_eq_some_iff.mp observed
  obtain ⟨next, first, observed⟩ := Option.bind_eq_some_iff.mp observed
  obtain ⟨final, second, free⟩ := Option.map_eq_some_iff.mp observed
  rw [decide_eq_true_eq] at free
  obtain ⟨middle, firstStep, isNext⟩ := run_cons_eq_some_iff.mp first
  rw [run_nil, Option.some.injEq] at isNext
  subst isNext
  have ran : run frameStep initial [.alloc 0 0, .alloc 1 0] = some final :=
    run_cons_eq_some_iff.mpr ⟨middle, firstStep, second⟩
  have guarded : Guarded frameStep (KeepsFrames (reservedBound 0x1000 0x20000))
      initial [.alloc 0 0, .alloc 1 0] := by
    refine ⟨Or.inr free.1, fun state step => ⟨Or.inr ?_, fun _ _ => trivial⟩⟩
    rw [firstStep, Option.some.injEq] at step
    rw [← step]
    exact free.2
  exact ⟨initial, final, booted, ran,
    frames_exclusive_of_guarded (by decide) (by decide) booted guarded
      ⟨[.alloc 0 0, .alloc 1 0], [], rfl, ran⟩⟩

/--
Freeing the only live entry makes the reserved frame 0 available, and the
next allocation returns it.
-/
theorem reserved_frame_handed_out_after_free :
    ∃ firstFreePage memsize allocator entries initial calls visited,
      memsize < 2 ^ 32 ∧
      bootFrames firstFreePage memsize allocator entries = some initial ∧
      Visits frameStep initial calls visited ∧
      freeFrames visited.allocator ≠ [] ∧
      ¬ HandsOutFresh (reservedBound firstFreePage memsize) visited := by
  have observed :
      ((bootFrames 0x1000 0x20000 blankAllocator fun _ => 0).bind
        fun initial => (run frameStep initial [.alloc 0 0, .free 0]).bind
          fun visited => (frameStep visited (.alloc 1 0)).map fun next =>
            (decide (freeFrames visited.allocator ≠ []),
              visited.frame 1, next.frame 1)) = some (true, 0, 0) := by
    decide +kernel
  obtain ⟨initial, booted, observed⟩ := Option.bind_eq_some_iff.mp observed
  obtain ⟨visited, reached, observed⟩ := Option.bind_eq_some_iff.mp observed
  obtain ⟨next, step, values⟩ := Option.map_eq_some_iff.mp observed
  simp only [Prod.mk.injEq, decide_eq_true_eq] at values
  obtain ⟨free, empty, handed⟩ := values
  refine ⟨0x1000, 0x20000, blankAllocator, fun _ => 0, initial, _, visited,
    by decide, booted, ⟨_, [], (List.append_nil _).symm, reached⟩, free, ?_⟩
  intro fresh
  have unreserved := (fresh 1 0 next empty step).1
  rw [handed] at unreserved
  exact unreserved (by decide)

end Kernull.FrameExclusivity
