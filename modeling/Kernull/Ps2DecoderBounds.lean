import Kernull.Ps2Decoder
import Kernull.Library.LabelledRun

/-!
# When the decoder stays inside its buffers

The buffer pointer of `handle_data` is reset only when a scan code completes,
the tables are shorter than a byte can index, and the last byte of a Pause
sequence leaves the expected-byte counter at zero.  This module states, on
the bytes alone, which streams keep every store and every lookup in bounds
and the counter from wrapping, and proves that the decoder does so for
exactly these streams.
-/

namespace Kernull.Ps2DecoderBounds

open Kernull.Ps2Decoder
open Kernull.Library.LabelledRun

/-! ## The property of the decoder -/

/--
The accesses made for one byte: the store is inside `scan_code_buf`, the
lookup, if there is one, is inside its table, and `expect` can be decremented.
-/
structure InBounds (decoder : Decoder) (data : BitVec 8) : Prop where
  store : decoder.scanCodePtr < scanCodeBufSize
  defined : (handleData decoder data).isSome = true
  expect : decoder.expect ≠ 0

instance (decoder : Decoder) (data : BitVec 8) :
    Decidable (InBounds decoder data) :=
  decidable_of_iff
    (decoder.scanCodePtr < scanCodeBufSize ∧
      (handleData decoder data).isSome = true ∧ decoder.expect ≠ 0)
    ⟨fun held => ⟨held.1, held.2.1, held.2.2⟩,
      fun held => ⟨held.store, held.defined, held.expect⟩⟩

/-- The state after one byte. -/
def decodeByte (decoder : Decoder) (data : BitVec 8) : Option Decoder :=
  (handleData decoder data).map Prod.fst

/-- Every byte of the stream is handled in bounds. -/
def StaysInBounds (decoder : Decoder) (bytes : List (BitVec 8)) : Prop :=
  Guarded decodeByte InBounds decoder bytes

theorem staysInBounds_cons_iff
    {decoder : Decoder} {data : BitVec 8} {rest : List (BitVec 8)} :
    StaysInBounds decoder (data :: rest) ↔
      InBounds decoder data ∧
        ∀ next events, handleData decoder data = some (next, events) →
          StaysInBounds next rest := by
  constructor
  · rintro ⟨inBounds, later⟩
    refine ⟨inBounds, fun next events handled => later next ?_⟩
    simp [decodeByte, handled]
  · rintro ⟨inBounds, later⟩
    refine ⟨inBounds, fun next stepped => ?_⟩
    obtain ⟨⟨_, events⟩, handled, rfl⟩ := Option.map_eq_some_iff.mp stepped
    exact later _ events handled

/-- Once a byte is handled in bounds, the rest decides. -/
theorem staysInBounds_cons_of_handled
    {decoder next : Decoder} {data : BitVec 8} {rest : List (BitVec 8)}
    {events : List Kernull.Input.InputEvent}
    (store : decoder.scanCodePtr < scanCodeBufSize)
    (expect : decoder.expect ≠ 0)
    (handled : handleData decoder data = some (next, events)) :
    StaysInBounds decoder (data :: rest) ↔ StaysInBounds next rest := by
  rw [staysInBounds_cons_iff]
  constructor
  · rintro ⟨_, later⟩
    exact later next events handled
  · intro later
    refine ⟨⟨store, by simp [handled], expect⟩, ?_⟩
    rintro _ _ rewritten
    simp only [handled, Option.some.injEq, Prod.mk.injEq] at rewritten
    exact rewritten.1 ▸ later

/-! ## The condition on the bytes

`earlier` lists the bytes since the last completed scan code, newest first. -/

/-- The code that ends the first part of a Print Screen sequence. -/
def firstPartCode (earlier : List (BitVec 8)) : BitVec 8 :=
  if release ∈ earlier then 0x7C else 0x12

/-- An `E0` came that no first part of a Print Screen sequence used up. -/
def extended : List (BitVec 8) → Bool
  | [] => false
  | byte :: earlier =>
      byte == emul0 || (extended earlier && byte != firstPartCode earlier)

/-- The byte ends the first part of a Print Screen sequence. -/
def printScreenPart (earlier : List (BitVec 8)) (byte : BitVec 8) : Bool :=
  extended earlier && byte == firstPartCode earlier

/-- A first part of a Print Screen sequence is among the bytes. -/
def printScreenSeen : List (BitVec 8) → Bool
  | [] => false
  | byte :: earlier =>
      printScreenPart earlier byte || printScreenSeen earlier

/-- The byte ends a Pause sequence: `77` after both `E1` and `F0`. -/
def pauseEnd (earlier : List (BitVec 8)) (byte : BitVec 8) : Bool :=
  decide (emul1 ∈ earlier) && decide (release ∈ earlier) && byte == 0x77

/-- A byte that is neither a prefix nor part of a special sequence. -/
def plain (earlier : List (BitVec 8)) (byte : BitVec 8) : Bool :=
  byte != emul1 && byte != emul0 && byte != release &&
    !printScreenPart earlier byte && !pauseEnd earlier byte

/--
How many plain bytes are still to come: one, one more for each `E1`, less
those already seen.
-/
def outstanding : List (BitVec 8) → Nat
  | [] => 1
  | byte :: earlier =>
      if byte = emul1 then outstanding earlier + 1
      else if plain earlier byte then outstanding earlier - 1
      else outstanding earlier

/-- The last byte of a scan code is not looked up, or is inside the table. -/
def CodeInTable (earlier : List (BitVec 8)) (byte : BitVec 8) : Prop :=
  printScreenSeen earlier = true ∨
    byte.toNat < if extended earlier then 0x80 else 0x84

instance (earlier : List (BitVec 8)) (byte : BitVec 8) :
    Decidable (CodeInTable earlier byte) :=
  inferInstanceAs (Decidable (_ ∨ _))

/--
The streams handled in bounds: a scan code has at most eight bytes, its last
byte is inside the table unless it is a Print Screen, and nothing follows the
end of a Pause sequence.
-/
def SafeFrom : List (BitVec 8) → List (BitVec 8) → Prop
  | _, [] => True
  | earlier, byte :: rest =>
      earlier.length < scanCodeBufSize ∧
        if pauseEnd earlier byte then rest = []
        else if plain earlier byte ∧ outstanding earlier = 1 then
          CodeInTable earlier byte ∧ SafeFrom [] rest
        else SafeFrom (byte :: earlier) rest

instance decidableSafeFrom :
    (earlier bytes : List (BitVec 8)) → Decidable (SafeFrom earlier bytes)
  | _, [] => inferInstanceAs (Decidable True)
  | earlier, byte :: rest =>
      have := decidableSafeFrom [] rest
      have := decidableSafeFrom (byte :: earlier) rest
      inferInstanceAs (Decidable (earlier.length < scanCodeBufSize ∧
        if pauseEnd earlier byte then rest = []
        else if plain earlier byte ∧ outstanding earlier = 1 then
          CodeInTable earlier byte ∧ SafeFrom [] rest
        else SafeFrom (byte :: earlier) rest))

/-! ## The decoder follows the bytes -/

/-- The static variables as functions of the bytes since the last code. -/
structure Follows (decoder : Decoder) (earlier : List (BitVec 8)) :
    Prop where
  ext0 : decoder.ext0 = extended earlier
  released : decoder.released = decide (release ∈ earlier)
  ext1 : decoder.ext1 = decide (emul1 ∈ earlier)
  scanCodePtr : decoder.scanCodePtr = earlier.length
  expect : decoder.expect.toNat = outstanding earlier
  outstanding_pos : 0 < outstanding earlier
  isPause : decoder.isPause = false
  isSysrq : decoder.isSysrq = printScreenSeen earlier

theorem follows_initialDecoder : Follows initialDecoder [] := by
  constructor <;> simp [initialDecoder, extended, printScreenSeen, outstanding]

theorem outstanding_le_length (earlier : List (BitVec 8)) :
    outstanding earlier ≤ earlier.length + 1 := by
  induction earlier with
  | nil => exact Nat.le_refl 1
  | cons byte earlier inductionHypothesis =>
      simp only [outstanding, List.length_cons]
      split_ifs <;> omega

theorem firstPartCode_cases (earlier : List (BitVec 8)) :
    firstPartCode earlier = 0x7C ∨ firstPartCode earlier = 0x12 := by
  rw [firstPartCode]
  split_ifs
  · exact Or.inl rfl
  · exact Or.inr rfl

/-- A prefix byte is no part of a special sequence. -/
theorem not_special_of_large
    (earlier : List (BitVec 8)) {byte : BitVec 8}
    (large : 0x80 ≤ byte.toNat) :
    (byte != firstPartCode earlier) = true ∧
      printScreenPart earlier byte = false ∧
      pauseEnd earlier byte = false := by
  have notFirst : byte ≠ firstPartCode earlier := by
    rintro rfl
    rcases firstPartCode_cases earlier with code | code <;>
      exact absurd large (by rw [code]; decide)
  have notLast : byte ≠ 0x77 := by
    rintro rfl
    exact absurd large (by decide)
  exact ⟨bne_iff_ne.mpr notFirst, by simp [printScreenPart, notFirst],
    by rw [pauseEnd, beq_false_of_ne notLast, Bool.and_false]⟩

namespace Follows

variable {decoder : Decoder} {earlier : List (BitVec 8)}

theorem expect_ne_zero (follows : Follows decoder earlier) :
    decoder.expect ≠ 0 := by
  intro zero
  have counted := follows.expect
  have positive := follows.outstanding_pos
  rw [zero] at counted
  simp at counted
  omega

/-- The counter after its decrement. -/
theorem expect_sub_one (follows : Follows decoder earlier) :
    (decoder.expect - 1).toNat = outstanding earlier - 1 := by
  have counted := follows.expect
  have positive := follows.outstanding_pos
  bv_omega

/-- A byte that leaves the count as it is, from what it does to the flags. -/
theorem of_uncounted
    {byte : BitVec 8} {next : Decoder} (follows : Follows decoder earlier)
    (same : outstanding (byte :: earlier) = outstanding earlier)
    (pointer : next.scanCodePtr = decoder.scanCodePtr + 1)
    (expect : next.expect = decoder.expect - 1 + 1)
    (isPause : next.isPause = decoder.isPause)
    (ext0 : next.ext0 = extended (byte :: earlier))
    (released : next.released = decide (release ∈ byte :: earlier))
    (ext1 : next.ext1 = decide (emul1 ∈ byte :: earlier))
    (isSysrq : next.isSysrq = printScreenSeen (byte :: earlier)) :
    Follows next (byte :: earlier) where
  ext0 := ext0
  released := released
  ext1 := ext1
  scanCodePtr := by
    rw [pointer, follows.scanCodePtr, List.length_cons]
  expect := by
    rw [expect, BitVec.sub_add_cancel, same, follows.expect]
  outstanding_pos := by
    rw [same]
    exact follows.outstanding_pos
  isPause := isPause.trans follows.isPause
  isSysrq := isSysrq

theorem handle_emul1 (follows : Follows decoder earlier)
    (room : decoder.scanCodePtr < scanCodeBufSize) :
    ∃ next, handleData decoder emul1 = some (next, []) ∧
      Follows next (emul1 :: earlier) := by
  obtain ⟨notFirst, notPart, _⟩ := not_special_of_large earlier
    (show 0x80 ≤ emul1.toNat by decide)
  have counted := follows.expect
  have positive := follows.outstanding_pos
  have bounded := outstanding_le_length earlier
  have length := follows.scanCodePtr
  refine ⟨_, by rw [handleData, if_pos room, Decoder.decode, if_pos rfl], ?_⟩
  constructor
  · simpa [extended, notFirst, Decoder.store,
      show (emul1 == emul0) = false by decide]
      using follows.ext0
  · simpa [Decoder.store, show release ≠ emul1 by decide]
      using follows.released
  · simp
  · simp [Decoder.store, length]
  · simp only [outstanding, if_true, Decoder.store]
    simp only [scanCodeBufSize] at room
    bv_omega
  · simp [outstanding]
  · exact follows.isPause
  · simpa [printScreenSeen, notPart, Decoder.store] using follows.isSysrq

theorem handle_emul0 (follows : Follows decoder earlier)
    (room : decoder.scanCodePtr < scanCodeBufSize) :
    ∃ next, handleData decoder emul0 = some (next, []) ∧
      Follows next (emul0 :: earlier) := by
  obtain ⟨_, notPart, _⟩ := not_special_of_large earlier
    (show 0x80 ≤ emul0.toNat by decide)
  have same : outstanding (emul0 :: earlier) =
      outstanding earlier := by
    simp [outstanding, plain, show emul0 ≠ emul1 by decide]
  refine ⟨_, by rw [handleData, if_pos room, Decoder.decode, if_neg (by decide),
    if_pos rfl], ?_⟩
  refine follows.of_uncounted same rfl rfl rfl ?_ ?_ ?_ ?_
  · simp [extended]
  · simpa [Decoder.store, show release ≠ emul0 by decide]
      using follows.released
  · simpa [Decoder.store,
      show emul1 ≠ emul0 by decide]
      using follows.ext1
  · simpa [printScreenSeen, notPart, Decoder.store] using follows.isSysrq

theorem handle_release (follows : Follows decoder earlier)
    (room : decoder.scanCodePtr < scanCodeBufSize) :
    ∃ next, handleData decoder release = some (next, []) ∧
      Follows next (release :: earlier) := by
  obtain ⟨notFirst, notPart, _⟩ := not_special_of_large earlier
    (show 0x80 ≤ release.toNat by decide)
  have same : outstanding (release :: earlier) =
      outstanding earlier := by
    simp [outstanding, plain,
      show release ≠ emul1 by decide]
  refine ⟨_, by rw [handleData, if_pos room, Decoder.decode, if_neg (by decide),
    if_neg (by decide), if_pos rfl], ?_⟩
  refine follows.of_uncounted same rfl rfl rfl ?_ ?_ ?_ ?_
  · simpa [extended, notFirst, Decoder.store,
      show (release == emul0) = false by decide]
      using follows.ext0
  · simp
  · simpa [Decoder.store,
      show emul1 ≠ release by decide]
      using follows.ext1
  · simpa [printScreenSeen, notPart, Decoder.store] using follows.isSysrq

/-- The first part of a Print Screen sequence. -/
theorem handle_printScreenPart {byte : BitVec 8}
    (follows : Follows decoder earlier)
    (room : decoder.scanCodePtr < scanCodeBufSize)
    (part : printScreenPart earlier byte = true) :
    ∃ next, handleData decoder byte = some (next, []) ∧
      Follows next (byte :: earlier) := by
  obtain ⟨isExtended, isCode⟩ := Bool.and_eq_true_iff.mp part
  have isCode : byte = firstPartCode earlier := beq_iff_eq.mp isCode
  have ext0 := follows.ext0
  have released := follows.released
  have small : byte = 0x7C ∨ byte = 0x12 :=
    isCode ▸ firstPartCode_cases earlier
  have notEmul1 : byte ≠ emul1 := by
    rcases small with rfl | rfl <;> decide
  have notEmul0 : byte ≠ emul0 := by
    rcases small with rfl | rfl <;> decide
  have notRelease : byte ≠ release := by
    rcases small with rfl | rfl <;> decide
  have same : outstanding (byte :: earlier) = outstanding earlier := by
    simp [outstanding, plain, part, notEmul1]
  have handled : ∃ next, handleData decoder byte = some (next, []) ∧
      next = { decoder.store byte with
        isSysrq := true, ext0 := false
        expect := (decoder.store byte).expect + 1 } := by
    refine ⟨_, ?_, rfl⟩
    rw [handleData, if_pos room, Decoder.decode, if_neg notEmul1,
      if_neg notEmul0, if_neg notRelease]
    by_cases seen : release ∈ earlier
    · have code : byte = 0x7C := by rw [isCode, firstPartCode, if_pos seen]
      simp [Decoder.store, ext0, released, isExtended, seen, code]
    · have code : byte = 0x12 := by rw [isCode, firstPartCode, if_neg seen]
      simp [Decoder.store, ext0, released, isExtended, seen, code]
  obtain ⟨next, handled, rfl⟩ := handled
  refine ⟨_, handled, ?_⟩
  refine follows.of_uncounted same rfl rfl rfl ?_ ?_ ?_ ?_
  · simp [extended, notEmul0, ← isCode]
  · simpa [Decoder.store, Ne.symm notRelease] using released
  · simpa [Decoder.store, Ne.symm notEmul1] using follows.ext1
  · simp [printScreenSeen, part]

/-- The end of a Pause sequence leaves the counter at zero. -/
theorem handle_pauseEnd {byte : BitVec 8}
    (follows : Follows decoder earlier)
    (room : decoder.scanCodePtr < scanCodeBufSize)
    (ends : pauseEnd earlier byte = true) :
    ∃ next, handleData decoder byte = some (next, []) ∧
      next.expect = 0 := by
  have ext1 := follows.ext1
  have released := follows.released
  simp only [pauseEnd, Bool.and_eq_true, decide_eq_true_eq, beq_iff_eq]
    at ends
  obtain ⟨⟨seenEmul1, seenRelease⟩, rfl⟩ := ends
  refine ⟨{ decoder.store 0x77 with isPause := true, expect := 0 }, ?_, rfl⟩
  rw [handleData, if_pos room, Decoder.decode, if_neg (by decide),
    if_neg (by decide), if_neg (by decide)]
  simp [Decoder.store, ext1, released, seenEmul1, seenRelease]

/-- A plain byte completes the scan code or is merely counted. -/
theorem handle_plain {byte : BitVec 8}
    (follows : Follows decoder earlier)
    (room : decoder.scanCodePtr < scanCodeBufSize)
    (isPlain : plain earlier byte = true) :
    handleData decoder byte =
      if outstanding earlier = 1 then
        (decoder.store byte).complete lookupKeycode byte
      else
        some (decoder.store byte, []) := by
  have ext0 := follows.ext0
  have ext1 := follows.ext1
  have released := follows.released
  have last : (decoder.store byte).expect = 0 ↔
      outstanding earlier = 1 := by
    have counted := follows.expect_sub_one
    have positive := follows.outstanding_pos
    simp only [Decoder.store]
    bv_omega
  simp only [plain, Bool.and_eq_true, bne_iff_ne, ne_eq,
    Bool.not_eq_true'] at isPlain
  obtain ⟨⟨⟨⟨notEmul1, notEmul0⟩, notRelease⟩, notPart⟩, notEnd⟩ := isPlain
  have notFirst : (extended earlier && !decide (release ∈ earlier) &&
      byte == 0x12) = false := by
    by_cases seen : release ∈ earlier
    · simp [seen]
    · simpa [printScreenPart, firstPartCode, seen] using notPart
  have notSecond : (extended earlier && decide (release ∈ earlier) &&
      byte == 0x7C) = false := by
    by_cases seen : release ∈ earlier
    · simpa [printScreenPart, firstPartCode, seen] using notPart
    · simp [seen]
  rw [pauseEnd] at notEnd
  rw [handleData, if_pos room, Decoder.decode, if_neg notEmul1,
    if_neg notEmul0, if_neg notRelease]
  simp only [last]
  simp only [Decoder.store, ext0, ext1, released, notFirst, notSecond,
    notEnd, Bool.false_eq_true, if_false]

theorem follows_store_of_plain {byte : BitVec 8}
    (follows : Follows decoder earlier)
    (isPlain : plain earlier byte = true)
    (more : outstanding earlier ≠ 1) :
    Follows (decoder.store byte) (byte :: earlier) := by
  have counted := follows.expect_sub_one
  have positive := follows.outstanding_pos
  have plainParts := isPlain
  simp only [plain, Bool.and_eq_true, bne_iff_ne, ne_eq,
    Bool.not_eq_true'] at plainParts
  obtain ⟨⟨⟨⟨notEmul1, notEmul0⟩, notRelease⟩, notPart⟩, _⟩ := plainParts
  have rest : outstanding (byte :: earlier) = outstanding earlier - 1 := by
    simp [outstanding, notEmul1, isPlain]
  constructor
  · have kept : extended (byte :: earlier) = extended earlier := by
      rw [printScreenPart] at notPart
      cases isExtended : extended earlier <;>
        simp_all [extended]
    rw [kept]
    exact follows.ext0
  · simpa [Decoder.store, Ne.symm notRelease] using follows.released
  · simpa [Decoder.store, Ne.symm notEmul1] using follows.ext1
  · simp [Decoder.store, follows.scanCodePtr]
  · rw [rest]
    exact counted
  · omega
  · exact follows.isPause
  · simpa [printScreenSeen, notPart, Decoder.store] using follows.isSysrq

/-- A completed scan code is looked up unless it is a Print Screen. -/
theorem complete_isSome_iff {byte : BitVec 8}
    (follows : Follows decoder earlier) :
    ((decoder.store byte).complete lookupKeycode byte).isSome = true ↔
      CodeInTable earlier byte := by
  have isPause := follows.isPause
  have ext0 := follows.ext0
  have isSysrq := follows.isSysrq
  cases seen : printScreenSeen earlier with
  | true =>
      simp [CodeInTable, Decoder.complete, Decoder.store, isSysrq, seen]
  | false =>
      simp [CodeInTable, Decoder.complete, Decoder.store, lookupKeycode,
        isSysrq, seen, isPause, ext0, ← length_keycodeTable]

theorem follows_nil_of_complete {byte : BitVec 8} {next : Decoder}
    {events : List Kernull.Input.InputEvent}
    (follows : Follows decoder earlier)
    (completed :
      (decoder.store byte).complete lookupKeycode byte = some (next, events)) :
    Follows next [] := by
  have isPause := follows.isPause
  have isSysrq := follows.isSysrq
  have reached : AtRest next := by
    rw [Decoder.complete] at completed
    by_cases sysrq : (decoder.store byte).isSysrq = true
    · rw [if_pos sysrq] at completed
      obtain ⟨rfl, _⟩ := Prod.mk.inj (Option.some.inj completed)
      exact ⟨rfl, rfl, rfl, isPause, rfl, rfl, rfl⟩
    · rw [if_neg sysrq, if_neg (by simp [Decoder.store, isPause])]
        at completed
      obtain ⟨_, _, result⟩ := Option.map_eq_some_iff.mp completed
      obtain ⟨rfl, _⟩ := Prod.mk.inj result
      exact ⟨rfl, rfl, rfl, isPause, Bool.eq_false_iff.mpr sysrq, rfl, rfl⟩
  constructor <;>
    simp [reached.ext0, reached.released, reached.ext1, reached.expect,
      reached.scanCodePtr, reached.isPause, reached.isSysrq, extended,
      printScreenSeen, outstanding]

/-- Bytes that neither complete a scan code nor end a Pause sequence. -/
theorem handle_silent {byte : BitVec 8}
    (follows : Follows decoder earlier)
    (room : decoder.scanCodePtr < scanCodeBufSize)
    (notEnd : pauseEnd earlier byte = false)
    (notLast : ¬ (plain earlier byte = true ∧ outstanding earlier = 1)) :
    ∃ next, handleData decoder byte = some (next, []) ∧
      Follows next (byte :: earlier) := by
  by_cases isPlain : plain earlier byte = true
  · have more : outstanding earlier ≠ 1 := fun one => notLast ⟨isPlain, one⟩
    refine ⟨_, ?_, follows.follows_store_of_plain isPlain more⟩
    rw [follows.handle_plain room isPlain, if_neg more]
  · by_cases isEmul1 : byte = emul1
    · exact isEmul1 ▸ follows.handle_emul1 room
    by_cases isEmul0 : byte = emul0
    · exact isEmul0 ▸ follows.handle_emul0 room
    by_cases isRelease : byte = release
    · exact isRelease ▸ follows.handle_release room
    refine follows.handle_printScreenPart room ?_
    simpa [plain, isEmul1, isEmul0, isRelease, notEnd] using isPlain

end Follows

/-- From a state that follows the bytes, the condition is exact. -/
theorem staysInBounds_iff_safeFrom
    {decoder : Decoder} {earlier : List (BitVec 8)}
    (follows : Follows decoder earlier) (bytes : List (BitVec 8)) :
    StaysInBounds decoder bytes ↔ SafeFrom earlier bytes := by
  induction bytes generalizing decoder earlier with
  | nil => exact Iff.rfl
  | cons byte rest inductionHypothesis =>
      rw [SafeFrom, ← follows.scanCodePtr]
      by_cases room : decoder.scanCodePtr < scanCodeBufSize
      case neg =>
        simp only [room, false_and, iff_false]
        intro inBounds
        exact room inBounds.1.store
      simp only [room, true_and]
      split_ifs with ends last
      · -- nothing may follow the end of a Pause sequence
        obtain ⟨next, handled, drained⟩ := follows.handle_pauseEnd room ends
        rw [staysInBounds_cons_of_handled room follows.expect_ne_zero
          handled]
        cases rest with
        | nil => exact iff_of_true trivial rfl
        | cons _ _ =>
            exact iff_of_false
              (fun inBounds => inBounds.1.expect drained) (by simp)
      · -- the byte completes a scan code
        have handled := follows.handle_plain room last.1
        rw [if_pos last.2] at handled
        rw [← follows.complete_isSome_iff]
        cases completed : (decoder.store byte).complete lookupKeycode byte with
        | none =>
            simp only [Option.isSome_none, Bool.false_eq_true, false_and,
              iff_false]
            intro inBounds
            have defined := inBounds.1.defined
            rw [handled, completed] at defined
            exact absurd defined (by simp)
        | some result =>
            rw [staysInBounds_cons_of_handled room follows.expect_ne_zero
              (handled.trans completed)]
            simpa using inductionHypothesis
              (follows.follows_nil_of_complete completed)
      · obtain ⟨next, handled, followed⟩ :=
          follows.handle_silent room (Bool.eq_false_iff.mpr ends) last
        rw [staysInBounds_cons_of_handled room follows.expect_ne_zero
          handled]
        exact inductionHypothesis followed

/--
The decoder handles a stream in bounds exactly when the stream meets the
condition on its bytes.
-/
theorem decoder_stays_in_bounds_iff (bytes : List (BitVec 8)) :
    StaysInBounds initialDecoder bytes ↔ SafeFrom [] bytes :=
  staysInBounds_iff_safeFrom follows_initialDecoder bytes

/-- Nine prefix bytes store past the end of the buffer. -/
theorem nine_prefixes_leave_buffer :
    ¬ ∀ bytes, StaysInBounds initialDecoder bytes := by
  intro always
  have safe := (staysInBounds_iff_safeFrom follows_initialDecoder _).mp
    (always (List.replicate 9 emul0))
  revert safe
  decide

end Kernull.Ps2DecoderBounds
