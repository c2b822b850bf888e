import Kernull.Library.Position
import Kernull.StringReading

/-!
# Search for a character

`strchr` and `strrchr` convert the sought character to `unsigned char` and
compare it with signed characters, so they find no byte from 0x80 on;
`memchr`, which reads unsigned bytes, finds all of them.
-/

namespace Kernull.CharacterSearch

open Kernull.KernelString
open Kernull.StringReading
open Kernull.Library.GuardedMemory
open Kernull.Library.Position

/-- The character at a position of a string is one of those wanted. -/
def WantedAt (wanted : BitVec 8 → Prop) (text : List (BitVec 8))
    (i : Nat) : Prop :=
  ∃ here, text[i]? = some here ∧ wanted here

section

variable {wanted : BitVec 8 → Prop} {first : BitVec 8}
  {others text : List (BitVec 8)}

theorem not_wantedAt_nil (i : Nat) : ¬ WantedAt wanted [] i := by
  rintro ⟨here, place, _⟩
  exact nomatch place

@[simp]
theorem wantedAt_zero : WantedAt wanted (first :: others) 0 ↔
    wanted first := by
  constructor
  · rintro ⟨here, place, found⟩
    obtain rfl := Option.some.inj place
    exact found
  · intro found
    exact ⟨first, rfl, found⟩

instance [DecidablePred wanted] :
    Decidable (WantedAt wanted (first :: others) 0) :=
  decidable_of_iff (wanted first) wantedAt_zero.symm

/-- No position is wanted exactly when no character is. -/
theorem forall_not_wantedAt_iff :
    (∀ i, ¬ WantedAt wanted text i) ↔ ∀ here ∈ text, ¬ wanted here := by
  constructor
  · intro never here member found
    rcases List.getElem?_of_mem member with ⟨i, place⟩
    exact never i ⟨here, place, found⟩
  · rintro never i ⟨here, place, found⟩
    exact never here (List.mem_of_getElem? place) found

end

/-! ## The loops -/

section

variable
  {memory : ReadableMemory} {s rounds : Nat} {c : BitVec 32}
  {text : List (BitVec 8)}

/-- `memchr` over a whole string finds the first of the sought bytes. -/
theorem memchr_first (reads : ReadsString memory s text) :
    ∃ found, memchr memory s c text.length = some found ∧
      PointsToFirst (WantedAt (· = c.setWidth 8) text) s found := by
  induction text generalizing s with
  | nil => exact ⟨none, rfl, .nowhere not_wantedAt_nil⟩
  | cons first others inductionHypothesis =>
      rw [List.length_cons, memchr, reads.head]
      simp only [Option.bind_eq_bind, Option.bind_some]
      by_cases here : first = c.setWidth 8
      · rw [if_pos here]
        exact ⟨some s, rfl, .first_here (wantedAt_zero.mpr here)⟩
      · rw [if_neg here, pointerAdd_one reads]
        rcases inductionHypothesis reads.tail with ⟨found, run, points⟩
        refine ⟨found, run, .first_later ?_ points⟩
        rwa [wantedAt_zero]

/-- `strchr` finds the first character that equals the sought `int`. -/
theorem strchrLoop_first (reads : ReadsString memory s text)
    (enough : text.length < rounds) :
    ∃ found, strchrLoop memory c rounds s = some found ∧
      PointsToFirst (WantedAt (IsCharacter · c) text) s found := by
  induction rounds generalizing text s with
  | zero => exact absurd enough (Nat.not_lt_zero _)
  | succ rounds inductionHypothesis =>
      rw [strchrLoop]
      cases text with
      | nil =>
          rw [reads.empty]
          exact ⟨none, rfl, .nowhere not_wantedAt_nil⟩
      | cons first others =>
          simp only [reads.head, Option.bind_eq_bind, Option.bind_some,
            if_pos reads.head_ne_zero]
          by_cases here : IsCharacter first c
          · rw [if_pos here]
            exact ⟨some s, rfl, .first_here (wantedAt_zero.mpr here)⟩
          · rw [if_neg here, pointerAdd_one reads]
            rcases inductionHypothesis reads.tail
                (Nat.lt_of_succ_lt_succ enough) with
              ⟨found, run, points⟩
            refine ⟨found, run, .first_later ?_ points⟩
            rwa [wantedAt_zero]

/--
`strrchr` finds the last character that equals the sought `int`, and keeps
what it has found before if there is none.
-/
theorem strrchrLoop_last (reads : ReadsString memory s text)
    (enough : text.length < rounds) (ret : Option Nat) :
    ∃ found, strrchrLoop memory c rounds s ret = some (found.or ret) ∧
      PointsToLast (WantedAt (IsCharacter · c) text) s found := by
  induction rounds generalizing text s ret with
  | zero => exact absurd enough (Nat.not_lt_zero _)
  | succ rounds inductionHypothesis =>
      rw [strrchrLoop]
      cases text with
      | nil =>
          rw [reads.empty]
          exact ⟨none, rfl, .nowhere not_wantedAt_nil⟩
      | cons first others =>
          simp only [reads.head, Option.bind_eq_bind, Option.bind_some,
            if_pos reads.head_ne_zero, pointerAdd_one reads]
          rcases inductionHypothesis reads.tail
              (Nat.lt_of_succ_lt_succ enough)
              (if IsCharacter first c then some s else ret) with
            ⟨found, run, points⟩
          refine ⟨_, ?_, points.last⟩
          rw [run, Option.or_assoc]
          congr 2
          by_cases here : IsCharacter first c
          · rw [if_pos here, if_pos (wantedAt_zero.mpr here),
              Option.some_or]
          · rw [if_neg here,
              if_neg fun wanted => here (wantedAt_zero.mp wanted),
              Option.none_or]

end

/-! ## Signed and unsigned characters -/

/-- A signed character equals the sought byte only if that is below 0x80. -/
theorem isCharacter_iff (here : BitVec 8) (c : BitVec 32) :
    IsCharacter here c ↔
      here = c.setWidth 8 ∧ (c.setWidth 8).msb = false := by
  have hereBound := here.isLt
  have soughtBound := (c.setWidth 8).isLt
  rw [IsCharacter, ← BitVec.toNat_inj, BitVec.toInt_eq_toNat_cond,
    BitVec.msb_eq_decide, decide_eq_false_iff_not]
  split_ifs <;> omega

/-- A search for equal characters is one for the byte, unless it is missed. -/
theorem pointsTo_byte_iff
    {better : Nat → Nat → Prop} {text : List (BitVec 8)} {c : BitVec 32}
    {s : Nat} {found : Option Nat}
    (points : PointsTo better (WantedAt (IsCharacter · c) text) s found) :
    PointsTo better (WantedAt (· = c.setWidth 8) text) s found ↔
      ((c.setWidth 8).msb = false ∨ c.setWidth 8 ∉ text) := by
  constructor
  · intro byte
    by_cases high : (c.setWidth 8).msb = false
    · exact Or.inl high
    · right
      have never : ∀ i, ¬ WantedAt (IsCharacter · c) text i := by
        rintro i ⟨here, _, equal⟩
        exact high ((isCharacter_iff here c).mp equal).2
      have nothing := points.null.mpr never
      have absent := forall_not_wantedAt_iff.mp (byte.null.mp nothing)
      exact fun member => absent _ member rfl
  · intro visible
    apply points.congr
    intro i
    constructor
    · rintro ⟨here, place, same⟩
      refine ⟨here, place, (isCharacter_iff here c).mpr ⟨same, ?_⟩⟩
      rcases visible with low | absent
      · exact low
      · exact absurd (same ▸ List.mem_of_getElem? place) absent
    · rintro ⟨here, place, equal⟩
      exact ⟨here, place, ((isCharacter_iff here c).mp equal).1⟩

/-! ## The three functions together -/

/--
`strchr` points to the first and `strrchr` to the last position of the sought
byte, and both agree with `memchr` over the whole string on whether it occurs.
-/
structure SearchesRight
    {memory : ReadableMemory} (s : StringIn memory) (c : BitVec 32)
    (first last any : Option Nat) : Prop where
  pointsToFirst :
    PointsToFirst (WantedAt (· = c.setWidth 8) s.text) s.address first
  pointsToLast :
    PointsToLast (WantedAt (· = c.setWidth 8) s.text) s.address last
  firstAgrees : first = none ↔ any = none
  lastAgrees : last = none ↔ any = none

/--
For every string and every `int`, the three functions return, and the searches
are right exactly when the sought byte is below 0x80 or does not occur.
-/
theorem character_search_iff
    {memory : ReadableMemory} (s : StringIn memory) (c : BitVec 32) :
    ∃ first last length any,
      strchr memory s.address c = some first ∧
      strrchr memory s.address c = some last ∧
      strlen memory s.address = some length ∧
      memchr memory s.address c length = some any ∧
      (SearchesRight s c first last any ↔
        (c.setWidth 8).msb = false ∨ c.setWidth 8 ∉ s.text) := by
  have fits := s.stands.fits
  have enough : s.text.length < addresses := by
    rw [addresses]
    omega
  rcases strchrLoop_first (c := c) s.stands enough with
    ⟨first, firstRun, firstPoints⟩
  rcases strrchrLoop_last (c := c) s.stands enough none with
    ⟨last, lastRun, lastPoints⟩
  rcases memchr_first (c := c) s.stands with ⟨any, anyRun, anyPoints⟩
  rw [Option.or_none] at lastRun
  refine ⟨first, last, s.text.length, any, firstRun, lastRun,
    strlen_eq s.stands, anyRun, ?_⟩
  rw [← pointsTo_byte_iff firstPoints]
  constructor
  · intro right
    exact right.pointsToFirst
  · intro firstByte
    have lastByte := (pointsTo_byte_iff lastPoints).mpr
      ((pointsTo_byte_iff firstPoints).mp firstByte)
    constructor
    · exact firstByte
    · exact lastByte
    · rw [firstByte.null, anyPoints.null]
    · rw [lastByte.null, anyPoints.null]

/-- Memory with the one-byte string 0x80 at 0x1000. -/
def highMemory : ReadableMemory :=
  fun address => some (if address = 0x1000 then 0x80 else 0)

/-- The string of the byte 0x80. -/
def highString : StringIn highMemory where
  address := 0x1000
  text := [0x80]
  stands :=
    { bytes := by decide
      nonzero := by decide
      terminator := by decide
      fits := by decide }

/-- The byte 0x80 is in the string, and neither search finds it. -/
theorem high_byte_not_found :
    ¬ ∀ (memory : ReadableMemory) (s : StringIn memory) (c : BitVec 32)
      (first last : Option Nat) (length : Nat) (any : Option Nat),
      c.setWidth 8 ≠ 0 →
      strchr memory s.address c = some first →
      strrchr memory s.address c = some last →
      strlen memory s.address = some length →
      memchr memory s.address c length = some any →
        SearchesRight s c first last any := by
  intro always
  have right := always highMemory highString 0x80 none none 1 (some 0x1000)
    (by decide) (by decide +kernel) (by decide +kernel)
    (by decide +kernel) (by decide +kernel)
  exact nomatch right.firstAgrees.mp rfl

end Kernull.CharacterSearch
