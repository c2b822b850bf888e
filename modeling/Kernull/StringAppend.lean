import Kernull.Library.StoreTrace
import Kernull.StringReading

/-!
# Appending a string

`strcat` and `strncat` look for the end of the destination with a loop that
steps past the terminator, and append behind it: the string at the destination
stays as it was, and one byte more is written than the result has room for.
-/

namespace Kernull.StringAppend

open Kernull.KernelString
open Kernull.StringReading
open Kernull.Library.ByteMemory
open Kernull.Library.StoreTrace

/-- `while (*dest++);` -/
def skipString (memory : Memory) : Nat → Nat → Option Nat
  | 0, _ => none
  | rounds + 1, dest =>
      if memory dest ≠ 0 then
        skipString memory rounds (pointerAdd dest 1)
      else
        some (pointerAdd dest 1)

/-- `while ((*dest++ = *src++) != '\0');` -/
def copyString : Nat → Nat → Nat → TracedMemory → Option TracedMemory
  | 0, _, _, _ => none
  | rounds + 1, dest, src, traced =>
      let c := traced.memory src
      let traced := traced.store dest c
      if c ≠ 0 then
        copyString rounds (pointerAdd dest 1) (pointerAdd src 1) traced
      else
        some traced

/-- `strcat`: the pointer it returns and the memory after it. -/
def strcat (dest src : Nat) (traced : TracedMemory) :
    Option (Nat × TracedMemory) := do
  let ret := dest
  let dest ← skipString traced.memory addresses dest
  let traced ← copyString addresses dest src traced
  some (ret, traced)

/-- The second loop of `strncat`, with a count that is not zero. -/
def copyCounted :
    Nat → Nat → Nat → Nat → TracedMemory → Option TracedMemory
  | 0, _, _, _, _ => none
  | rounds + 1, dest, src, n, traced =>
      let c := traced.memory src
      let traced := traced.store dest c
      if c ≠ 0 then
        let n := n - 1
        if n = 0 then
          some (traced.store (pointerAdd dest 1) 0)
        else
          copyCounted rounds (pointerAdd dest 1) (pointerAdd src 1) n traced
      else
        some traced

/-- `strncat`: the pointer it returns and the memory after it. -/
def strncat (dest src n : Nat) (traced : TracedMemory) :
    Option (Nat × TracedMemory) :=
  let ret := dest
  if n ≠ 0 then do
    let dest ← skipString traced.memory addresses dest
    let traced ← copyCounted addresses dest src n traced
    some (ret, traced)
  else
    some (ret, traced)

/-! ## The loops -/

/-- The loop over the destination stops behind the terminator. -/
theorem skipString_eq
    {memory : Memory} {dest rounds : Nat} {text : List (BitVec 8)}
    (holds : HoldsString memory dest text)
    (fits : dest + text.length < 2 ^ 64) (enough : text.length < rounds) :
    skipString memory rounds dest =
      some (pointerAdd (dest + text.length) 1) := by
  induction rounds generalizing text dest with
  | zero => exact absurd enough (Nat.not_lt_zero _)
  | succ rounds inductionHypothesis =>
      rw [skipString]
      cases text with
      | nil =>
          have ends : memory dest = 0 := holds.terminator
          rw [if_neg (not_not.mpr ends)]
          rfl
      | cons first others =>
          rw [List.length_cons] at fits ⊢
          have next : pointerAdd dest 1 = dest + 1 :=
            pointerAdd_of_lt (by omega)
          rw [if_pos holds.head_ne_zero, next,
            inductionHypothesis holds.tail (by omega)
              (Nat.lt_of_succ_lt_succ enough),
            show dest + (others.length + 1) = dest + 1 + others.length by
              omega]

/-- The stores of some bytes, one behind the other. -/
def storesAt (dest : Nat) : List (BitVec 8) → List Store
  | [] => []
  | first :: others => (dest, first) :: storesAt (pointerAdd dest 1) others

/-- The place of a store among them. -/
theorem exists_place_of_mem_storesAt
    {start offset : Nat} {bytes : List (BitVec 8)} {store : Store}
    (member : store ∈ storesAt (pointerAdd start offset) bytes) :
    ∃ i, i < bytes.length ∧ store.1 = pointerAdd start (offset + i) := by
  induction bytes generalizing offset with
  | nil => exact nomatch member
  | cons first others inductionHypothesis =>
      have next : pointerAdd (pointerAdd start offset) 1 =
          pointerAdd start (offset + 1) := by
        rw [pointerAdd, pointerAdd, pointerAdd]
        omega
      rw [storesAt, next] at member
      rcases List.mem_cons.mp member with here | later
      · subst here
        exact ⟨0, Nat.succ_pos _, rfl⟩
      · rcases inductionHypothesis later with ⟨i, bound, place⟩
        refine ⟨i + 1, Nat.succ_lt_succ bound, ?_⟩
        rw [place, show offset + 1 + i = offset + (i + 1) by omega]

/-- The terminator is stored behind the characters. -/
theorem terminator_mem_storesAt
    (start offset : Nat) (characters : List (BitVec 8)) :
    (pointerAdd start (offset + characters.length), 0) ∈
      storesAt (pointerAdd start offset) (characters ++ [0]) := by
  induction characters generalizing offset with
  | nil => exact List.mem_cons_self
  | cons first others inductionHypothesis =>
      have next : pointerAdd (pointerAdd start offset) 1 =
          pointerAdd start (offset + 1) := by
        rw [pointerAdd, pointerAdd, pointerAdd]
        omega
      have rest := inductionHypothesis (offset + 1)
      rw [List.cons_append, storesAt, next, List.length_cons,
        show offset + (others.length + 1) = offset + 1 + others.length by
          omega]
      exact List.mem_cons_of_mem _ rest

/-- The destination does not reach the characters that are still to be read. -/
def ClearOf (dest room src length : Nat) : Prop :=
  src + length < dest ∨ dest + room ≤ src

/-- After a character has been copied, the rest of the source is as before. -/
theorem rest_of_copied
    {traced : TracedMemory} {dest room src : Nat} {first : BitVec 8}
    {others : List (BitVec 8)}
    (holds : HoldsString traced.memory src (first :: others))
    (clear : ClearOf dest (room + 1) src (others.length + 1)) :
    HoldsString (traced.store dest first).memory (src + 1) others := by
  apply holds.tail.congr
  intro i bound
  apply Function.update_of_ne
  rw [ClearOf] at clear
  omega

/-- The next step of the destination stays clear, also when it wraps. -/
theorem ClearOf.next
    {dest room src length : Nat} (destFits : dest + (room + 1) ≤ 2 ^ 64)
    (clear : ClearOf dest (room + 1) src (length + 1)) :
    ClearOf (pointerAdd dest 1) room (src + 1) length ∧
      pointerAdd dest 1 + room ≤ 2 ^ 64 := by
  rw [ClearOf] at clear ⊢
  rw [pointerAdd]
  omega

/-- The second loop of `strcat` stores the source with its terminator. -/
theorem copyString_stored
    {traced : TracedMemory} {dest src rounds : Nat}
    {source : List (BitVec 8)}
    (holds : HoldsString traced.memory src source)
    (srcFits : src + source.length < 2 ^ 64)
    (destFits : dest + source.length ≤ 2 ^ 64)
    (clear : ClearOf dest source.length src source.length)
    (enough : source.length < rounds) :
    ∃ after, copyString rounds dest src traced = some after ∧
      Stored traced after (storesAt dest (source ++ [0])) := by
  induction rounds generalizing source dest src traced with
  | zero => exact absurd enough (Nat.not_lt_zero _)
  | succ rounds inductionHypothesis =>
      rw [copyString]
      cases source with
      | nil =>
          have ends : traced.memory src = 0 := holds.terminator
          rw [ends, if_neg (not_not.mpr rfl)]
          exact ⟨_, rfl, .single traced dest 0⟩
      | cons first others =>
          rw [List.length_cons] at srcFits destFits clear enough
          have next : pointerAdd src 1 = src + 1 :=
            pointerAdd_of_lt (by omega)
          rw [if_pos holds.head_ne_zero, next, holds.head]
          rcases clear.next destFits with ⟨clearNext, destNext⟩
          rcases inductionHypothesis (rest_of_copied holds clear)
              (by omega) destNext clearNext
              (Nat.lt_of_succ_lt_succ enough) with
            ⟨after, run, stored⟩
          refine ⟨after, run, ?_⟩
          exact (Stored.single traced dest first).trans stored

/-- The second loop of `strncat` stores characters and a terminator. -/
theorem copyCounted_stored
    {traced : TracedMemory} {dest src rounds n : Nat}
    {source : List (BitVec 8)} (positive : 0 < n)
    (holds : HoldsString traced.memory src source)
    (srcFits : src + source.length < 2 ^ 64)
    (destFits : dest + (source.take n).length ≤ 2 ^ 64)
    (clear : ClearOf dest (source.take n).length src source.length)
    (enough : source.length < rounds) :
    ∃ after, copyCounted rounds dest src n traced = some after ∧
      Stored traced after (storesAt dest (source.take n ++ [0])) := by
  induction rounds generalizing source dest src n traced with
  | zero => exact absurd enough (Nat.not_lt_zero _)
  | succ rounds inductionHypothesis =>
      rw [copyCounted]
      obtain ⟨left, counted⟩ := Nat.exists_eq_add_one.mpr positive
      subst counted
      cases source with
      | nil =>
          have ends : traced.memory src = 0 := holds.terminator
          rw [ends, if_neg (not_not.mpr rfl)]
          exact ⟨_, rfl, .single traced dest 0⟩
      | cons first others =>
          rw [List.take_succ_cons, List.length_cons] at destFits
          rw [List.take_succ_cons, List.length_cons, List.length_cons]
            at clear
          rw [List.length_cons] at srcFits enough
          have next : pointerAdd src 1 = src + 1 :=
            pointerAdd_of_lt (by omega)
          rw [if_pos holds.head_ne_zero, next, holds.head,
            Nat.add_sub_cancel, List.take_succ_cons]
          by_cases counted : left = 0
          · subst counted
            rw [if_pos rfl]
            refine ⟨_, rfl, ?_⟩
            exact (Stored.single traced dest first).trans (.single _ _ 0)
          · rw [if_neg counted]
            rcases clear.next destFits with ⟨clearNext, destNext⟩
            rcases inductionHypothesis (Nat.pos_of_ne_zero counted)
                (rest_of_copied holds clear) (by omega) destNext clearNext
                (Nat.lt_of_succ_lt_succ enough) with
              ⟨after, run, stored⟩
            refine ⟨after, run, ?_⟩
            exact (Stored.single traced dest first).trans stored

/-! ## The two functions -/

/--
Two strings in buffers that do not overlap, the first with room for as many
more characters.
-/
structure Placed (memory : Memory) (dest : Nat) (text : List (BitVec 8))
    (src : Nat) (source : List (BitVec 8)) (room : Nat) : Prop where
  holdsDest : HoldsString memory dest text
  holdsSrc : HoldsString memory src source
  destFits : dest + text.length + room < 2 ^ 64
  srcFits : src + source.length < 2 ^ 64
  apart : src + source.length < dest ∨ dest + text.length + room < src

/--
The characters have been appended to the string at the destination, and no
byte outside it and its terminator has been written.
-/
structure Appended (after : TracedMemory) (dest : Nat)
    (text added : List (BitVec 8)) : Prop where
  holds : HoldsString after.memory dest (text ++ added)
  inside : ∀ store ∈ after.stores,
    dest ≤ store.1 ∧ store.1 ≤ dest + text.length + added.length

section

variable
  {memory : Memory} {dest src : Nat} {text source added : List (BitVec 8)}
  {after : TracedMemory}

/-- The stores begin behind the terminator of the destination. -/
theorem store_outside_text
    (placed : Placed memory dest text src source added.length)
    {store : Store}
    (member : store ∈
      storesAt (pointerAdd (dest + text.length) 1) (added ++ [0])) :
    store.1 < dest ∨ dest + text.length < store.1 := by
  rcases exists_place_of_mem_storesAt member with ⟨i, bound, place⟩
  have destFits := placed.destFits
  have srcFits := placed.srcFits
  have apart := placed.apart
  rw [List.length_append, List.length_singleton] at bound
  rw [place, pointerAdd]
  omega

/-- The last store is behind the room that the result needs. -/
theorem last_store_outside
    (placed : Placed memory dest text src source added.length) :
    ∃ store ∈
        storesAt (pointerAdd (dest + text.length) 1) (added ++ [0]),
      store.1 < dest ∨ dest + text.length + added.length < store.1 := by
  refine ⟨_, terminator_mem_storesAt (dest + text.length) 1 added, ?_⟩
  have destFits := placed.destFits
  have srcFits := placed.srcFits
  have apart := placed.apart
  simp only [pointerAdd]
  omega

/-- The string at the destination is the one from before. -/
theorem text_stays
    (placed : Placed memory dest text src source added.length)
    (stored : Stored (untouched memory) after
      (storesAt (pointerAdd (dest + text.length) 1) (added ++ [0]))) :
    HoldsString after.memory dest text := by
  apply placed.holdsDest.congr
  intro i bound
  apply stored.unwritten
  intro store member same
  have outside := store_outside_text placed member
  omega

/-- So it is the longer one only if there was nothing to append. -/
theorem holds_appended_iff
    (stays : HoldsString after.memory dest text) :
    HoldsString after.memory dest (text ++ added) ↔ added = [] := by
  constructor
  · intro holds
    cases added with
    | nil => rfl
    | cons first others =>
        exfalso
        have inside : text.length < (text ++ first :: others).length := by
          rw [List.length_append, List.length_cons]
          omega
        have here := holds.bytes text.length inside
        have nonzero := holds.nonzero _ (List.getElem_mem inside)
        rw [← here, stays.terminator] at nonzero
        exact nonzero rfl
  · intro empty
    rw [empty, List.append_nil]
    exact stays

/-- Nothing is appended by stores behind the terminator. -/
theorem not_appended
    (placed : Placed memory dest text src source added.length)
    (stored : Stored (untouched memory) after
      (storesAt (pointerAdd (dest + text.length) 1) (added ++ [0]))) :
    ¬ Appended after dest text added := by
  intro appended
  rcases last_store_outside placed with ⟨store, member, outside⟩
  have made : store ∈ after.stores := by
    rw [stored.stores]
    exact List.mem_append_right _ member
  have inside := appended.inside store made
  omega

/-- The first loop stops behind the terminator, where the second may start. -/
theorem Placed.start {room : Nat}
    (placed : Placed memory dest text src source room) :
    skipString (untouched memory).memory addresses dest =
        some (pointerAdd (dest + text.length) 1) ∧
      pointerAdd (dest + text.length) 1 + room ≤ 2 ^ 64 ∧
      ClearOf (pointerAdd (dest + text.length) 1) room src source.length ∧
      source.length < addresses := by
  have destFits := placed.destFits
  have srcFits := placed.srcFits
  have apart := placed.apart
  refine ⟨?_, ?_, ?_, ?_⟩
  · apply skipString_eq placed.holdsDest
    · omega
    · rw [addresses]
      omega
  · rw [pointerAdd]
    omega
  · rw [ClearOf, pointerAdd]
    omega
  · rw [addresses]
    omega

/-- `strcat` stores its source behind the terminator of the destination. -/
theorem strcat_stored
    (placed : Placed memory dest text src source source.length) :
    ∃ after, strcat dest src (untouched memory) = some (dest, after) ∧
      Stored (untouched memory) after
        (storesAt (pointerAdd (dest + text.length) 1)
          (source ++ [0])) := by
  rcases placed.start with ⟨skipped, destFits, clear, enough⟩
  have holds : HoldsString (untouched memory).memory src source :=
    placed.holdsSrc
  rcases copyString_stored holds placed.srcFits destFits clear enough with
    ⟨after, run, stored⟩
  refine ⟨after, ?_, stored⟩
  rw [strcat]
  simp only [Option.bind_eq_bind, skipped, Option.bind_some, run]

/-- `strncat` with a count stores the first characters there. -/
theorem strncat_stored {n : Nat} (positive : 0 < n)
    (placed :
      Placed memory dest text src source (source.take n).length) :
    ∃ after, strncat dest src n (untouched memory) = some (dest, after) ∧
      Stored (untouched memory) after
        (storesAt (pointerAdd (dest + text.length) 1)
          (source.take n ++ [0])) := by
  rcases placed.start with ⟨skipped, destFits, clear, enough⟩
  have holds : HoldsString (untouched memory).memory src source :=
    placed.holdsSrc
  rcases copyCounted_stored positive holds placed.srcFits destFits clear
      enough with ⟨after, run, stored⟩
  refine ⟨after, ?_, stored⟩
  rw [strncat, if_pos (Nat.pos_iff_ne_zero.mp positive)]
  simp only [Option.bind_eq_bind, skipped, Option.bind_some, run]

end

/--
For every two strings in separate buffers with room, `strcat` returns and
never appends as it should: the string at the destination is right only for an
empty source, and a byte behind the room is written in any case.  `strncat`
returns and appends as it should exactly for a count of zero.
-/
theorem append_iff
    (memory : Memory) (dest : Nat) (text : List (BitVec 8)) (src : Nat)
    (source : List (BitVec 8)) :
    (Placed memory dest text src source source.length →
      ∃ after, strcat dest src (untouched memory) = some (dest, after) ∧
        (HoldsString after.memory dest (text ++ source) ↔ source = []) ∧
        ¬ Appended after dest text source) ∧
    ∀ n, Placed memory dest text src source (source.take n).length →
      ∃ after, strncat dest src n (untouched memory) = some (dest, after) ∧
        (HoldsString after.memory dest (text ++ source.take n) ↔
          source.take n = []) ∧
        (Appended after dest text (source.take n) ↔ n = 0) := by
  constructor
  · intro placed
    rcases strcat_stored placed with ⟨after, run, stored⟩
    refine ⟨after, run, ?_, not_appended placed stored⟩
    exact holds_appended_iff (text_stays placed stored)
  · intro n placed
    rcases Nat.eq_zero_or_pos n with zero | positive
    · subst zero
      refine ⟨untouched memory, rfl, ?_, ?_⟩
      · exact holds_appended_iff placed.holdsDest
      · apply iff_of_true
        · constructor
          · rw [List.take_zero, List.append_nil]
            exact placed.holdsDest
          · exact fun _ member => nomatch member
        · rfl
    · rcases strncat_stored positive placed with ⟨after, run, stored⟩
      refine ⟨after, run, ?_, ?_⟩
      · exact holds_appended_iff (text_stays placed stored)
      · apply iff_of_false
        · exact not_appended placed stored
        · exact Nat.pos_iff_ne_zero.mp positive

/-- The string `a` at 0x1000 and the string `b` at 0x2000. -/
def letters : Memory := fun address =>
  if address = 0x1000 then 0x61
  else if address = 0x2000 then 0x62
  else 0

/-- They are in separate buffers, with room for one character more. -/
theorem placed_letters :
    Placed letters 0x1000 [0x61] 0x2000 [0x62] 1 where
  holdsDest := ⟨by decide, by decide, by decide⟩
  holdsSrc := ⟨by decide, by decide, by decide⟩
  destFits := by decide
  srcFits := by decide
  apart := by decide

/-- `strcat` does not append them; `strncat` of no characters does. -/
theorem append_letters :
    (∃ after,
      strcat 0x1000 0x2000 (untouched letters) = some (0x1000, after) ∧
        ¬ HoldsString after.memory 0x1000 ([0x61] ++ [0x62])) ∧
    ∃ after,
      strncat 0x1000 0x2000 0 (untouched letters) = some (0x1000, after) ∧
        Appended after 0x1000 [0x61] [] := by
  have functions := append_iff letters 0x1000 [0x61] 0x2000 [0x62]
  have placed : Placed letters 0x1000 [0x61] 0x2000 [0x62]
      ([(0x62 : BitVec 8)].take 0).length :=
    { placed_letters with
      destFits := by decide
      srcFits := by decide
      apart := by decide }
  obtain ⟨whole, wholeRuns, holds, -⟩ := functions.1 placed_letters
  obtain ⟨none, noneRuns, -, appended⟩ := functions.2 0 placed
  refine ⟨⟨whole, wholeRuns, fun held => ?_⟩, none, noneRuns,
    appended.mpr rfl⟩
  exact absurd (holds.mp held) (List.cons_ne_nil _ _)

/-- The string `b` is not appended to the string `a`. -/
theorem letters_not_appended :
    ¬ ∀ (memory : Memory) (dest : Nat) (text : List (BitVec 8)) (src : Nat)
      (source : List (BitVec 8)),
      Placed memory dest text src source source.length →
        ∃ after, strcat dest src (untouched memory) = some (dest, after) ∧
          Appended after dest text source := by
  intro always
  rcases always letters 0x1000 [0x61] 0x2000 [0x62] placed_letters with
    ⟨after, run, appended⟩
  rcases strcat_stored placed_letters with ⟨expected, expectedRun, stored⟩
  rw [run] at expectedRun
  obtain rfl := (Prod.mk.inj (Option.some.inj expectedRun)).2
  exact not_appended placed_letters stored appended

end Kernull.StringAppend
