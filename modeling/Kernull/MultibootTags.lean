import Mathlib.Algebra.BigOperators.Group.List.Basic
import Mathlib.Order.Monotone.Basic
import Kernull.Multiboot2Parser

/-!
# Lists of boot information tags

A list of tags laid out in memory, each padded to a multiple of eight bytes,
with an end tag behind them.  `multiboot_find_tag` finds the first tag of a
type by the headers alone: payloads may hold anything, bytes that look like
tags included.
-/

namespace Kernull.MultibootTags

open Kernull.Library.ByteMemory
open Kernull.Multiboot2Parser

/-- A tag: its type and its bytes behind the type and the size. -/
structure Tag where
  type : Nat
  payload : List (BitVec 8)
  notEnd : type ≠ multibootTagTypeEnd
  bound : payload.length + 8 ≤ 2 ^ 32 - 8

namespace Tag

/-- The size of a tag, header included. -/
def size (tag : Tag) : Nat :=
  tag.payload.length + 8

/-- The size of a tag with its padding. -/
def padded (tag : Tag) : Nat :=
  (tag.size + 7) / 8 * 8

theorem size_le_padded (tag : Tag) : tag.size ≤ tag.padded := by
  rw [padded]
  omega

end Tag

/-- The tags stand one after the other, with an end tag behind them. -/
def LaidOut (memory : Memory) : Nat → List Tag → Prop
  | address, [] => tagType memory address = multibootTagTypeEnd
  | address, tag :: others =>
      tagType memory address = tag.type ∧
        tagSize memory address = tag.size ∧
        Holds memory (address + 8) tag.payload ∧
        LaidOut memory (address + tag.padded) others

/-- The address of a tag of the list; the end tag is behind the last one. -/
def tagAddress (base : Nat) (tags : List Tag) (i : Nat) : Nat :=
  base + ((tags.take i).map Tag.padded).sum

/-- The address of the first tag of a type. -/
def firstOfType (base : Nat) (tags : List Tag) (wanted : Nat) :
    Option Nat :=
  (tags.findIdx? fun tag => tag.type == wanted).map (tagAddress base tags)

/-- The headers up to the first tag of a type, or to the end tag. -/
def Inspected (base : Nat) (tags : List Tag) (wanted a : Nat) : Prop :=
  ∃ i, i ≤ tags.findIdx (fun tag => tag.type == wanted) ∧
    tagAddress base tags i ≤ a ∧ a < tagAddress base tags i + 8

/-! ## Addresses -/

@[simp]
theorem tagAddress_zero (base : Nat) (tags : List Tag) :
    tagAddress base tags 0 = base := by
  simp [tagAddress]

theorem tagAddress_cons
    (base : Nat) (tag : Tag) (others : List Tag) (i : Nat) :
    tagAddress base (tag :: others) (i + 1) =
      tagAddress (base + tag.padded) others i := by
  rw [tagAddress, tagAddress, List.take_succ_cons, List.map_cons,
    List.sum_cons, Nat.add_assoc]

theorem tagAddress_succ
    (base : Nat) (tags : List Tag) {i : Nat} (inside : i < tags.length) :
    tagAddress base tags (i + 1) =
      tagAddress base tags i + (tags[i]).padded := by
  induction tags generalizing base i with
  | nil => exact absurd inside (Nat.not_lt_zero i)
  | cons tag others inductionHypothesis =>
      cases i with
      | zero => simp [tagAddress_cons]
      | succ i =>
          rw [tagAddress_cons, tagAddress_cons]
          exact
            inductionHypothesis (base + tag.padded)
              (Nat.lt_of_succ_lt_succ inside)

theorem tagAddress_mono (base : Nat) (tags : List Tag) :
    Monotone (tagAddress base tags) := by
  apply monotone_nat_of_le_succ
  intro i
  by_cases inside : i < tags.length
  · rw [tagAddress_succ base tags inside]
    exact Nat.le_add_right _ _
  · have all := Nat.not_lt.mp inside
    rw [tagAddress, tagAddress, List.take_of_length_le all,
      List.take_of_length_le (Nat.le_succ_of_le all)]

/-- No byte of a payload is in a header. -/
theorem payload_not_inspected
    (base : Nat) (tags : List Tag) (wanted : Nat) {i offset : Nat}
    (inside : i < tags.length)
    (inPayload : offset < (tags[i]).payload.length) :
    ¬ Inspected base tags wanted (tagAddress base tags i + 8 + offset) := by
  rintro ⟨j, _, least, most⟩
  by_cases earlier : j ≤ i
  · have ordered := tagAddress_mono base tags earlier
    omega
  · have ordered :=
      tagAddress_mono base tags (Nat.succ_le_of_lt (Nat.not_le.mp earlier))
    have behind := tagAddress_succ base tags inside
    have room := Tag.size_le_padded tags[i]
    rw [Tag.size] at room
    rw [Nat.succ_eq_add_one] at ordered
    omega

/-! ## The search -/

theorem firstOfType_cons
    (base : Nat) (tag : Tag) (others : List Tag) (wanted : Nat) :
    firstOfType base (tag :: others) wanted =
      if tag.type = wanted then some base
      else firstOfType (base + tag.padded) others wanted := by
  rw [firstOfType, firstOfType, List.findIdx?_cons]
  by_cases here : tag.type = wanted
  · simp [here]
  · have later :
        tagAddress base (tag :: others) ∘ (· + 1) =
          tagAddress (base + tag.padded) others := by
      ext i
      exact tagAddress_cons base tag others i
    simp [here, Option.map_map, later]

theorem inspected_here
    {base : Nat} {tags : List Tag} {wanted offset : Nat}
    (inHeader : offset < 8) : Inspected base tags wanted (base + offset) := by
  refine ⟨0, Nat.zero_le _, ?_, ?_⟩
  · rw [tagAddress_zero]
    exact Nat.le_add_right base offset
  · rw [tagAddress_zero]
    exact Nat.add_lt_add_left inHeader base

theorem inspected_cons
    {base : Nat} {tag : Tag} {others : List Tag} {wanted a : Nat}
    (differs : tag.type ≠ wanted)
    (inspected : Inspected (base + tag.padded) others wanted a) :
    Inspected base (tag :: others) wanted a := by
  rcases inspected with ⟨i, upTo, least, most⟩
  refine ⟨i + 1, ?_, ?_, ?_⟩
  · rw [List.findIdx_cons, beq_false_of_ne differs, cond_false]
    exact Nat.succ_le_succ upTo
  · rwa [tagAddress_cons]
  · rwa [tagAddress_cons]

/-- A step from a tag leads to the tag behind its padding. -/
theorem nextTag_of_size
    {memory : Memory} {address : Nat} {tag : Tag}
    (size : tagSize memory address = tag.size) :
    nextTag memory address = address + tag.padded := by
  have bound := tag.bound
  rw [nextTag, size, Tag.padded, Tag.size, Nat.mod_eq_of_lt (by omega)]

/-- The search through a list of tags that are laid out in memory. -/
theorem multibootFindTag_of_laidOut
    {memory : Memory} {base : Nat} {tags : List Tag} (wanted : Nat)
    {fuel : Nat} (laid : LaidOut memory base tags)
    (enough : tags.length < fuel) :
    multibootFindTag memory wanted fuel base =
      some (firstOfType base tags wanted) := by
  induction tags generalizing base fuel with
  | nil =>
      cases fuel with
      | zero => exact absurd enough (Nat.not_lt_zero _)
      | succ fuel =>
          have ended : tagType memory base = multibootTagTypeEnd := laid
          rw [multibootFindTag, if_neg (not_not.mpr ended)]
          rfl
  | cons tag others inductionHypothesis =>
      cases fuel with
      | zero => exact absurd enough (Nat.not_lt_zero _)
      | succ fuel =>
          rcases laid with ⟨type, size, _, rest⟩
          have running : tagType memory base ≠ multibootTagTypeEnd := by
            rw [type]
            exact tag.notEnd
          rw [multibootFindTag, if_pos running, type, firstOfType_cons]
          split_ifs with here
          · rfl
          · rw [nextTag_of_size size]
            exact
              inductionHypothesis rest (Nat.lt_of_succ_lt_succ enough)

/-- Memory that agrees on a header has the same type and size there. -/
theorem header_congr
    {left right : Memory} {address : Nat}
    (agree : ∀ offset, offset < 8 →
      left (address + offset) = right (address + offset)) :
    tagType left address = tagType right address ∧
      tagSize left address = tagSize right address := by
  constructor
  · apply readBytes_congr
    intro offset inType
    exact agree offset (by omega)
  · apply readBytes_congr
    intro offset inSize
    rw [Nat.add_assoc]
    exact agree (4 + offset) (by omega)

/-- The headers that are inspected decide the search. -/
theorem multibootFindTag_congr
    {memory other : Memory} {base : Nat} {tags : List Tag} {wanted : Nat}
    (laid : LaidOut memory base tags)
    (agree : ∀ a, Inspected base tags wanted a → other a = memory a)
    (fuel : Nat) :
    multibootFindTag other wanted fuel base =
      multibootFindTag memory wanted fuel base := by
  induction fuel generalizing base tags with
  | zero => rfl
  | succ fuel inductionHypothesis =>
      have header :=
        header_congr fun offset inHeader =>
          agree (base + offset) (inspected_here inHeader)
      have next : nextTag other base = nextTag memory base := by
        rw [nextTag, nextTag, header.2]
      rw [multibootFindTag, multibootFindTag, header.1, next]
      cases tags with
      | nil =>
          have ended : tagType memory base = multibootTagTypeEnd := laid
          rw [if_neg (not_not.mpr ended), if_neg (not_not.mpr ended)]
      | cons tag others =>
          rcases laid with ⟨type, size, _, rest⟩
          split_ifs with running here
          · rfl
          · rw [nextTag_of_size size]
            apply inductionHypothesis rest
            intro a inspected
            rw [type] at here
            exact agree a (inspected_cons here inspected)
          · rfl

/--
`multiboot_find_tag` on a list of tags: it ends and returns the first tag of
the type or `NULL`, it depends on the headers up to that tag only, and no
byte of a payload is in these headers.
-/
theorem multiboot_find_tag_finds_first
    (memory : Memory) (base : Nat) (tags : List Tag) (wanted : Nat)
    (laid : LaidOut memory base tags) :
    (∀ fuel, tags.length < fuel →
      multibootFindTag memory wanted fuel base =
        some (firstOfType base tags wanted)) ∧
    (∀ other : Memory,
      (∀ a, Inspected base tags wanted a → other a = memory a) →
      ∀ fuel,
        multibootFindTag other wanted fuel base =
          multibootFindTag memory wanted fuel base) ∧
    ∀ i offset (inside : i < tags.length),
      offset < (tags[i]).payload.length →
        ¬ Inspected base tags wanted
          (tagAddress base tags i + 8 + offset) := by
  refine ⟨?_, ?_, ?_⟩
  · intro fuel enough
    exact multibootFindTag_of_laidOut wanted laid enough
  · intro other agree fuel
    exact multibootFindTag_congr laid agree fuel
  · intro i offset inside inPayload
    exact payload_not_inspected base tags wanted inside inPayload

/-- A tag whose payload looks like a memory map tag. -/
def decoyTag : Tag where
  type := 1
  payload := [6, 0, 0, 0, 16, 0, 0, 0]
  notEnd := by decide
  bound := by decide

/-- A memory map tag without entries. -/
def mapTag : Tag where
  type := 6
  payload := []
  notEnd := by decide
  bound := by decide

/-- The two tags at address 8, with an end tag behind them. -/
def decoyMemory : Memory := fun a =>
  [0, 0, 0, 0, 0, 0, 0, 0,
   1, 0, 0, 0, 16, 0, 0, 0, 6, 0, 0, 0, 16, 0, 0, 0,
   6, 0, 0, 0, 8, 0, 0, 0].getD a 0

/-- The payload that looks like a tag is skipped. -/
theorem multiboot_find_tag_skips_decoy :
    LaidOut decoyMemory 8 [decoyTag, mapTag] ∧
      multibootFindTag decoyMemory multibootTagTypeMmap 3 8 =
        some (some 24) := by
  have laid : LaidOut decoyMemory 8 [decoyTag, mapTag] := by
    refine ⟨by decide, by decide, by decide, by decide, by decide, ?_, ?_⟩
    · exact holds_nil _ _
    · exact (by decide : tagType decoyMemory 32 = multibootTagTypeEnd)
  refine ⟨laid, ?_⟩
  exact
    (multiboot_find_tag_finds_first decoyMemory 8 [decoyTag, mapTag]
      multibootTagTypeMmap laid).1 3 (by decide)

end Kernull.MultibootTags
