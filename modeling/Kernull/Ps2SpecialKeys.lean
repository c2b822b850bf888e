import Kernull.Ps2Decoder

/-!
# Print Screen and Pause among ordinary keys

The special sequences of scan code set 2, inserted at a key boundary of a
stream of ordinary keys.  The Print Screen make sequence adds its own event
and nothing else.  The break sequence is announced as a press, because
`handle_data` returns the event of a Print Screen without its released flag.
The third byte of a Pause sequence completes a scan code of its own, so the
stream contains a press of Num Lock where the Pause should be.
-/

namespace Kernull.Ps2SpecialKeys

open Kernull.Input
open Kernull.Ps2Decoder
open Kernull.Library.Transducer

/-- The sequences `handle_data` looks for. -/
inductive SpecialKey where
  | printScreenMake
  | printScreenBreak
  | pause
  deriving DecidableEq

namespace SpecialKey

/-- The bytes the keyboard sends. -/
def bytes : SpecialKey → List (BitVec 8)
  | printScreenMake => [0xE0, 0x12, 0xE0, 0x7C]
  | printScreenBreak => [0xE0, 0xF0, 0x7C, 0xE0, 0xF0, 0x12]
  | pause => [0xE1, 0x14, 0x77, 0xE1, 0xF0, 0x14, 0xF0, 0x77]

/-- The event the sequence stands for. -/
def event : SpecialKey → InputEvent
  | printScreenMake => { flags := 0, code := keySysrq.setWidth 16 }
  | printScreenBreak =>
      { flags := inputFlagKeyReleased, code := keySysrq.setWidth 16 }
  | pause => { flags := 0, code := keyPause.setWidth 16 }

end SpecialKey

/--
The stream with the special sequence inserted between `front` and `back`
decodes to the events of the ordinary keys with exactly one more event, that
of the special sequence, in its place.
-/
def InsertsOneEvent (special : SpecialKey)
    (front back : List OrdinaryKey) : Prop :=
  ∃ final,
    feed handleData initialDecoder
        (front.flatMap OrdinaryKey.bytes ++ special.bytes ++
          back.flatMap OrdinaryKey.bytes) =
      some (final, front.map OrdinaryKey.event ++ [special.event] ++
        back.map OrdinaryKey.event)

/-! ## The sequences from a state at rest -/

/-- A decoder at rest differs from the initial one in its buffer alone. -/
theorem eq_initialDecoder_of_atRest
    {decoder : Decoder} (rests : AtRest decoder) :
    decoder = { initialDecoder with scanCodeBuf := decoder.scanCodeBuf } := by
  obtain ⟨ext0, released, ext1, buffer, pointer, expect, isPause, isSysrq⟩ :=
    decoder
  obtain ⟨rfl, rfl, rfl, rfl, rfl, rfl, rfl⟩ := rests
  rfl

/-- The make sequence: one event, and back to rest. -/
theorem feed_printScreenMake {decoder : Decoder} (rests : AtRest decoder) :
    ∃ next,
      feed handleData decoder SpecialKey.printScreenMake.bytes =
        some (next, [SpecialKey.printScreenMake.event]) ∧
      AtRest next := by
  rw [eq_initialDecoder_of_atRest rests]
  simp [feed_cons, handleData, Decoder.decode, Decoder.store,
    Decoder.complete, Decoder.reset, SpecialKey.bytes, SpecialKey.event,
    initialDecoder, scanCodeBufSize, emul0, emul1, release, atRest_iff]

/-- The break sequence is announced as the press it ends. -/
theorem feed_printScreenBreak {decoder : Decoder} (rests : AtRest decoder) :
    ∃ next,
      feed handleData decoder SpecialKey.printScreenBreak.bytes =
        some (next, [SpecialKey.printScreenMake.event]) ∧
      AtRest next := by
  rw [eq_initialDecoder_of_atRest rests]
  simp [feed_cons, handleData, Decoder.decode, Decoder.store,
    Decoder.complete, Decoder.reset, SpecialKey.bytes, SpecialKey.event,
    initialDecoder, scanCodeBufSize, emul0, emul1, release, atRest_iff]

/-- The first three bytes of a Pause sequence press Num Lock. -/
theorem feed_pauseFront {decoder : Decoder} (rests : AtRest decoder) :
    ∃ next,
      feed handleData decoder [0xE1, 0x14, 0x77] =
        some (next, [{ flags := 0, code := keyNumlock.setWidth 16 }]) ∧
      AtRest next := by
  -- `77` without a release completes the two codes expected after `E1`
  have lookup : lookupKeycode false 0x77#8 = some keyNumlock := rfl
  rw [eq_initialDecoder_of_atRest rests]
  simp [feed_cons, handleData, Decoder.decode, Decoder.store,
    Decoder.complete, Decoder.reset, initialDecoder, scanCodeBufSize, emul0,
    emul1, release, lookup, atRest_iff]

/-- The other bytes of a Pause sequence are announced as nothing. -/
theorem feed_pauseBack {decoder : Decoder} (rests : AtRest decoder) :
    ∃ next,
      feed handleData decoder [0xE1, 0xF0, 0x14, 0xF0, 0x77] =
        some (next, []) := by
  rw [eq_initialDecoder_of_atRest rests]
  simp [feed_cons, handleData, Decoder.decode, Decoder.store, initialDecoder,
    scanCodeBufSize, emul0, emul1, release]

/-- The Pause sequence is announced as a press of Num Lock. -/
theorem feed_pause {decoder : Decoder} (rests : AtRest decoder) :
    ∃ next,
      feed handleData decoder SpecialKey.pause.bytes =
        some (next, [{ flags := 0, code := keyNumlock.setWidth 16 }]) := by
  obtain ⟨middle, front, rests⟩ := feed_pauseFront rests
  obtain ⟨next, back⟩ := feed_pauseBack rests
  have split : SpecialKey.pause.bytes =
      [0xE1, 0x14, 0x77] ++ [0xE1, 0xF0, 0x14, 0xF0, 0x77] := rfl
  exact ⟨next, by rw [split, feed_append_of_feed front, back]; rfl⟩

/-! ## Insertion into a stream -/

/-- What a special sequence emits from rest stands in the stream's events. -/
theorem event_of_insertsOneEvent
    {special : SpecialKey} {front back : List OrdinaryKey}
    {emitted : InputEvent}
    (decoded : ∀ decoder, AtRest decoder →
      ∃ next, feed handleData decoder special.bytes =
        some (next, [emitted]))
    (inserts : InsertsOneEvent special front back) :
    emitted = special.event := by
  obtain ⟨final, fed⟩ := inserts
  obtain ⟨middle, fedFront, rests⟩ :=
    feed_ordinaryKeys atRest_initialDecoder front
  obtain ⟨next, fedSpecial⟩ := decoded middle rests
  rw [List.append_assoc, feed_append_of_feed fedFront,
    feed_append_of_feed fedSpecial, Option.map_map,
    Option.map_eq_some_iff] at fed
  obtain ⟨later, _, same⟩ := fed
  have events := (Prod.mk.inj same).2
  simp only [List.append_assoc, List.append_cancel_left_eq,
    List.cons_append, List.nil_append, List.cons.injEq] at events
  exact events.1

/--
Inserting a special sequence adds exactly its own event for the Print Screen
make sequence, and for no other.
-/
theorem inserts_one_event_iff_printScreenMake
    (special : SpecialKey) (front back : List OrdinaryKey) :
    InsertsOneEvent special front back ↔
      special = .printScreenMake := by
  constructor
  · intro inserts
    cases special with
    | printScreenMake => rfl
    | printScreenBreak =>
        have same := event_of_insertsOneEvent
          (fun _ rests => (feed_printScreenBreak rests).imp
            fun _ fed => fed.1) inserts
        exact absurd same (by decide)
    | pause =>
        have same := event_of_insertsOneEvent
          (fun _ rests => feed_pause rests) inserts
        exact absurd same (by decide)
  · rintro rfl
    obtain ⟨middle, fedFront, rests⟩ :=
      feed_ordinaryKeys atRest_initialDecoder front
    obtain ⟨next, fedSpecial, rests⟩ := feed_printScreenMake rests
    obtain ⟨final, fedBack, _⟩ := feed_ordinaryKeys rests back
    refine ⟨final, ?_⟩
    rw [feed_append_of_feed, fedBack, Option.map_some]
    rw [feed_append_of_feed fedFront, fedSpecial]
    rfl

/-- A lone Pause sequence is not announced as one. -/
theorem pause_alone_not_decoded :
    ¬ ∀ special front back, InsertsOneEvent special front back := by
  intro always
  obtain ⟨final, fed⟩ := always .pause [] []
  obtain ⟨next, decoded⟩ := feed_pause atRest_initialDecoder
  have same := (Prod.mk.inj (Option.some.inj (fed.symm.trans decoded))).2
  exact absurd same (by decide)

end Kernull.Ps2SpecialKeys
