import Kernull.InputCodes
import Kernull.Library.Transducer

/-!
# Decoding scan codes of set 2

`handle_data` of `kernel/ps2_keyboard.c`: the lookup tables, the static
variables of the decoder and what it does with one byte.  The result is
`none` when the store through `scan_code_ptr` leaves `scan_code_buf` or a
lookup leaves its table, since C gives such an access no meaning.

Ordinary keys are decoded one by one: from a state at rest the bytes of a key
produce that key's event and lead back to rest.
-/

namespace Kernull.Ps2Decoder

open Kernull.Input
open Kernull.Library.Transducer

/-! ## The tables -/

/-- `scan2_norm_to_keycode`. -/
def scan2NormToKeycode : List (BitVec 8) := [
  -- 0x00
  0, keyF9, 0, keyF5, keyF3, keyF1, keyF2, keyF12,
  -- 0x08
  0, keyF10, keyF8, keyF6, keyF4, keyTab, keyGrave, 0,
  -- 0x10
  0, keyLeftalt, keyLeftshift, 0, keyLeftctrl, keyQ, key1, 0,
  -- 0x18
  0, 0, keyZ, keyS, keyA, keyW, key2, 0,
  -- 0x20
  0, keyC, keyX, keyD, keyE, key4, key3, 0,
  -- 0x28
  0, keySpace, keyV, keyF, keyT, keyR, key5, 0,
  -- 0x30
  0, keyN, keyB, keyH, keyG, keyY, key6, 0,
  -- 0x38
  0, 0, keyM, keyJ, keyU, key7, key8, 0,
  -- 0x40
  0, keyComma, keyK, keyI, keyO, key0, key9, 0,
  -- 0x48
  0, keyDot, keySlash, keyL, keySemicolon, keyP, keyMinus, 0,
  -- 0x50
  0, 0, keyApostrophe, 0, keyLeftbrace, keyEqual, 0, 0,
  -- 0x58
  keyCapslock, keyRightshift, keyEnter, keyRightbrace, 0, keyBackslash, 0,
  0,
  -- 0x60
  0, 0, 0, 0, 0, 0, keyBackspace, 0,
  -- 0x68
  0, keyKp1, 0, 0, 0, keyKp7, 0, 0,
  -- 0x70
  keyKp0, keyKpDot, keyKp2, keyKp5, keyKp6, keyKp8, keyEsc, keyNumlock,
  -- 0x78
  keyF11, keyKpPlus, keyKp3, keyKpMinus, keyKpAsterisk, keyKp9,
  keyScrolllock, 0,
  -- 0x80
  0, 0, 0, keyF7]

/-- `scan2_ext_to_keycode`. -/
def scan2ExtToKeycode : List (BitVec 8) := [
  -- 0x00
  0, 0, 0, 0, 0, 0, 0, 0,
  -- 0x08
  0, 0, 0, 0, 0, 0, 0, 0,
  -- 0x10
  keyWww, keyRightalt, 0, 0, keyRightctrl, keyPrevioussong, 0, 0,
  -- 0x18
  keyBookmarks, 0, 0, 0, 0, 0, 0, keyLeftmeta,
  -- 0x20
  keyRefresh, keyVolumedown, 0, keyMute, 0, 0, 0, keyRightmeta,
  -- 0x28
  keyStop, 0, keyCalc, 0, 0, 0, 0, keyAllApplications,
  -- 0x30
  keyForward, 0, keyVolumeup, 0, keyPlay, 0, 0, keyPower,
  -- 0x38
  keyBack, 0, keyHomepage, keyStopcd, 0, 0, 0, keySleep,
  -- 0x40
  keyComputer, 0, 0, 0, 0, 0, 0, 0,
  -- 0x48
  keyEmail, 0, keyKpSlash, 0, 0, keyNextsong, 0, 0,
  -- 0x50
  keyMedia, 0, 0, 0, 0, 0, 0, 0,
  -- 0x58
  0, 0, keyKpEnter, 0, 0, 0, keyWakeup, 0,
  -- 0x60
  0, 0, 0, 0, 0, 0, 0, 0,
  -- 0x68
  0, keyEnd, 0, keyLeft, keyHome, 0, 0, 0,
  -- 0x70
  keyInsert, keyDelete, keyDown, 0, keyRight, keyUp, 0, 0,
  -- 0x78
  0, 0, keyPagedown, 0, 0, keyPagedown, 0, 0]

/-- `keycode_to_char`; the entries past the literal are zero. -/
def keycodeToChar : List Char :=
  ("001234567890-=\x00\tqwertyuiop[]\x00\x00asdfghjkl;'`\x00\\" ++
    "zxcvbnm,./\x00*\x00 ").toList

/-- The table a completed scan code is looked up in. -/
def keycodeTable (extended : Bool) : List (BitVec 8) :=
  if extended then scan2ExtToKeycode else scan2NormToKeycode

theorem length_keycodeTable (extended : Bool) :
    (keycodeTable extended).length = if extended then 0x80 else 0x84 := by
  cases extended <;> rfl

/-! ## The decoder -/

/-- `EMUL0`. -/
def emul0 : BitVec 8 := 0xe0

/-- `EMUL1`. -/
def emul1 : BitVec 8 := 0xe1

/-- `RELEASE`. -/
def release : BitVec 8 := 0xf0

/-- The size of `scan_code_buf`. -/
def scanCodeBufSize : Nat := 8

/--
The static variables of `handle_data`.  The flags are only ever set to zero
and one; `scanCodePtr` is an index into `scan_code_buf`.
-/
structure Decoder where
  ext0 : Bool
  released : Bool
  ext1 : Bool
  scanCodeBuf : Vector (BitVec 8) scanCodeBufSize
  scanCodePtr : Nat
  expect : BitVec 8
  isPause : Bool
  isSysrq : Bool

/-- The initialisers of the static variables. -/
def initialDecoder : Decoder where
  ext0 := false
  released := false
  ext1 := false
  scanCodeBuf := Vector.replicate scanCodeBufSize 0
  scanCodePtr := 0
  expect := 1
  isPause := false
  isSysrq := false

/-- `*scan_code_ptr = data; ++scan_code_ptr; --expect`. -/
def Decoder.store (decoder : Decoder) (data : BitVec 8) : Decoder :=
  { decoder with
    scanCodeBuf :=
      decoder.scanCodeBuf.setIfInBounds decoder.scanCodePtr data
    scanCodePtr := decoder.scanCodePtr + 1
    expect := decoder.expect - 1 }

/-- The resets after a completed scan code. -/
def Decoder.reset (decoder : Decoder) : Decoder :=
  { decoder with
    released := false
    ext0 := false
    ext1 := false
    scanCodePtr := 0
    expect := 1 }

/-- The entry of a table; a lookup past its end is undefined. -/
def lookupKeycode (extended : Bool) (data : BitVec 8) : Option (BitVec 8) :=
  (keycodeTable extended)[data.toNat]?

/--
The branch `expect == 0` of `handle_data`; `lookup` is what the tables
return.
-/
def Decoder.complete (decoder : Decoder)
    (lookup : Bool → BitVec 8 → Option (BitVec 8)) (data : BitVec 8) :
    Option (Decoder × List InputEvent) :=
  if decoder.isSysrq then
    some ({ decoder with isSysrq := false }.reset,
      [{ flags := 0, code := keySysrq.setWidth 16 }])
  else if decoder.isPause then
    some ({ decoder with isPause := false }.reset,
      [{ flags := 0, code := keyPause.setWidth 16 }])
  else
    (lookup decoder.ext0 data).map fun keycode =>
      (decoder.reset,
        [{ flags := if decoder.released then inputFlagKeyReleased else 0
           code := keycode.setWidth 16 }])

/-- What `handle_data` does once the byte is stored. -/
def Decoder.decode (stored : Decoder)
    (lookup : Bool → BitVec 8 → Option (BitVec 8)) (data : BitVec 8) :
    Option (Decoder × List InputEvent) :=
  if data = emul1 then
    some ({ stored with ext1 := true, expect := stored.expect + 2 }, [])
  else if data = emul0 then
    some ({ stored with ext0 := true, expect := stored.expect + 1 }, [])
  else if data = release then
    some ({ stored with released := true, expect := stored.expect + 1 }, [])
  else if stored.ext0 && !stored.released && data == 0x12 then
    some ({ stored with
      isSysrq := true, ext0 := false, expect := stored.expect + 1 }, [])
  else if stored.ext0 && stored.released && data == 0x7C then
    some ({ stored with
      isSysrq := true, ext0 := false, released := true
      expect := stored.expect + 1 }, [])
  else if stored.ext1 && stored.released && data == 0x77 then
    some ({ stored with isPause := true, expect := 0 }, [])
  else if stored.expect = 0 then
    stored.complete lookup data
  else
    some (stored, [])

/-- `handle_data`. -/
def handleData (decoder : Decoder) (data : BitVec 8) :
    Option (Decoder × List InputEvent) :=
  if decoder.scanCodePtr < scanCodeBufSize then
    (decoder.store data).decode lookupKeycode data
  else
    none

/-- Only the last byte of a scan code is looked up. -/
theorem Decoder.decode_cases (stored : Decoder) (data : BitVec 8) :
    (∃ result, ∀ lookup, stored.decode lookup data = some result) ∨
      ∀ lookup, stored.decode lookup data = stored.complete lookup data := by
  simp only [decode]
  split_ifs
  all_goals
    first
      | exact Or.inl ⟨_, fun _ => rfl⟩
      | exact Or.inr fun _ => rfl

/-- With a lookup that never fails, decoding does not either. -/
theorem Decoder.isSome_decode
    (stored : Decoder) {lookup : Bool → BitVec 8 → Option (BitVec 8)}
    (total : ∀ extended data, (lookup extended data).isSome)
    (data : BitVec 8) :
    (stored.decode lookup data).isSome := by
  rcases stored.decode_cases data with ⟨result, decoded⟩ | completes
  · rw [decoded]
    rfl
  · rw [completes, complete]
    by_cases sysrq : stored.isSysrq = true
    · rw [if_pos sysrq]
      rfl
    by_cases pause : stored.isPause = true
    · rw [if_neg sysrq, if_pos pause]
      rfl
    · rw [if_neg sysrq, if_neg pause, Option.isSome_map]
      exact total stored.ext0 data

/-- A lookup that finds more decodes what was decoded before. -/
theorem Decoder.decode_of_extends
    {stored : Decoder} {lookup wider : Bool → BitVec 8 → Option (BitVec 8)}
    (finds : ∀ extended data keycode, lookup extended data = some keycode →
      wider extended data = some keycode)
    {data : BitVec 8} {result : Decoder × List InputEvent}
    (decoded : stored.decode lookup data = some result) :
    stored.decode wider data = some result := by
  rcases stored.decode_cases data with ⟨always, same⟩ | completes
  · rw [same] at decoded ⊢
    exact decoded
  · rw [completes, complete] at decoded ⊢
    by_cases sysrq : stored.isSysrq = true
    · rw [if_pos sysrq] at decoded ⊢
      exact decoded
    by_cases pause : stored.isPause = true
    · rw [if_neg sysrq, if_pos pause] at decoded ⊢
      exact decoded
    · rw [if_neg sysrq, if_neg pause] at decoded ⊢
      obtain ⟨keycode, found, rfl⟩ := Option.map_eq_some_iff.mp decoded
      rw [finds _ _ _ found, Option.map_some]

/-- The character `handle_data` prints for an event, if any. -/
def printed (event : InputEvent) : Option Char :=
  if event.flags &&& inputFlagKeyReleased = 0 then
    let character := keycodeToChar.getD event.code.toNat '\x00'
    if character ≠ '\x00' then some character else none
  else
    none

/-! ## Ordinary keys -/

/-- All prefix and special flags clear and the buffer empty. -/
@[mk_iff]
structure AtRest (decoder : Decoder) : Prop where
  ext0 : decoder.ext0 = false
  released : decoder.released = false
  ext1 : decoder.ext1 = false
  isPause : decoder.isPause = false
  isSysrq : decoder.isSysrq = false
  expect : decoder.expect = 1
  scanCodePtr : decoder.scanCodePtr = 0

theorem atRest_initialDecoder : AtRest initialDecoder :=
  ⟨rfl, rfl, rfl, rfl, rfl, rfl, rfl⟩

/--
An ordinary key sequence: `[F0] c` with `c` in the normal table, or
`E0 [F0] c` with `c` in the extended table, other than the first parts
`E0 12` and `E0 F0 7C` of the Print Screen sequences.
-/
structure OrdinaryKey where
  extended : Bool
  released : Bool
  code : BitVec 8
  code_le : code.toNat ≤ if extended then 0x7F else 0x83
  not_printScreen : extended = true →
    code ≠ if released then 0x7C else 0x12

namespace OrdinaryKey

/-- The bytes of the sequence. -/
def bytes (key : OrdinaryKey) : List (BitVec 8) :=
  (if key.extended then [emul0] else []) ++
    (if key.released then [release] else []) ++ [key.code]

theorem code_lt (key : OrdinaryKey) :
    key.code.toNat < (keycodeTable key.extended).length := by
  have bounded := key.code_le
  rw [length_keycodeTable]
  split_ifs at bounded ⊢ <;> omega

/-- The entry of the key's own table. -/
def keycode (key : OrdinaryKey) : BitVec 8 :=
  (keycodeTable key.extended).get ⟨key.code.toNat, key.code_lt⟩

/-- The event of the key. -/
def event (key : OrdinaryKey) : InputEvent where
  flags := if key.released then inputFlagKeyReleased else 0
  code := key.keycode.setWidth 16

theorem lookup_code (key : OrdinaryKey) :
    lookupKeycode key.extended key.code = some key.keycode := by
  rw [lookupKeycode, List.getElem?_eq_getElem key.code_lt]
  rfl

/-- No prefix byte is an ordinary code. -/
theorem code_ne_of_large (key : OrdinaryKey) {byte : BitVec 8}
    (large : 0x84 ≤ byte.toNat) : key.code ≠ byte := by
  rintro rfl
  have bounded := key.code_le
  split_ifs at bounded <;> omega

theorem code_ne_emul1 (key : OrdinaryKey) : key.code ≠ emul1 :=
  key.code_ne_of_large (by decide)

theorem code_ne_emul0 (key : OrdinaryKey) : key.code ≠ emul0 :=
  key.code_ne_of_large (by decide)

theorem code_ne_release (key : OrdinaryKey) : key.code ≠ release :=
  key.code_ne_of_large (by decide)

end OrdinaryKey

/-- The prefix `E0`. -/
theorem handleData_emul0 {decoder : Decoder}
    (room : decoder.scanCodePtr < scanCodeBufSize) :
    handleData decoder emul0 =
      some ({ decoder.store emul0 with
        ext0 := true, expect := (decoder.store emul0).expect + 1 }, []) := by
  rw [handleData, if_pos room, Decoder.decode, if_neg (by decide), if_pos rfl]

/-- The prefix `F0`. -/
theorem handleData_release {decoder : Decoder}
    (room : decoder.scanCodePtr < scanCodeBufSize) :
    handleData decoder release =
      some ({ decoder.store release with
        released := true
        expect := (decoder.store release).expect + 1 }, []) := by
  rw [handleData, if_pos room, Decoder.decode, if_neg (by decide),
    if_neg (by decide), if_pos rfl]

/--
The state reached behind the prefixes of an ordinary key: nothing but the
prefix flags and the buffer has changed.
-/
structure Prefixed (byExt byRelease : Bool) (decoder : Decoder) :
    Prop where
  ext0 : decoder.ext0 = byExt
  released : decoder.released = byRelease
  ext1 : decoder.ext1 = false
  isPause : decoder.isPause = false
  isSysrq : decoder.isSysrq = false
  expect : decoder.expect = 1
  scanCodePtr : decoder.scanCodePtr = byExt.toNat + byRelease.toNat

namespace Prefixed

theorem of_atRest {decoder : Decoder} (rests : AtRest decoder) :
    Prefixed false false decoder :=
  ⟨rests.ext0, rests.released, rests.ext1, rests.isPause, rests.isSysrq,
    rests.expect, rests.scanCodePtr⟩

theorem room {extended released : Bool} {decoder : Decoder}
    (state : Prefixed extended released decoder) :
    decoder.scanCodePtr < scanCodeBufSize := by
  rw [state.scanCodePtr]
  cases extended <;> cases released <;> decide

theorem emul0 {decoder : Decoder} (state : Prefixed false false decoder) :
    ∃ next, handleData decoder emul0 = some (next, []) ∧
      Prefixed true false next := by
  refine ⟨_, handleData_emul0 state.room, ?_⟩
  constructor <;>
    simp [Decoder.store, state.released, state.ext1, state.isPause,
      state.isSysrq, state.expect, state.scanCodePtr]

theorem release {extended : Bool} {decoder : Decoder}
    (state : Prefixed extended false decoder) :
    ∃ next, handleData decoder release = some (next, []) ∧
      Prefixed extended true next := by
  refine ⟨_, handleData_release state.room, ?_⟩
  constructor <;>
    simp [Decoder.store, state.ext0, state.ext1, state.isPause,
      state.isSysrq, state.expect, state.scanCodePtr]

end Prefixed

/-- The prefixes of a key set its flags and emit nothing. -/
theorem feed_prefixes {decoder : Decoder} (rests : AtRest decoder)
    (extended released : Bool) :
    ∃ next,
      feed handleData decoder
        ((if extended then [emul0] else []) ++
          (if released then [release] else [])) = some (next, []) ∧
      Prefixed extended released next := by
  have start := Prefixed.of_atRest rests
  obtain ⟨afterExt, extStep, extState⟩ := start.emul0
  cases extended <;> cases released
  · exact ⟨decoder, rfl, start⟩
  · obtain ⟨next, step, state⟩ := start.release
    exact ⟨next, feed_cons_of_step step [], state⟩
  · exact ⟨afterExt, feed_cons_of_step extStep [], extState⟩
  · obtain ⟨next, step, state⟩ := extState.release
    refine ⟨next, ?_, state⟩
    simp [feed_cons, extStep, step]

/-- The code of a key completes it: one event, and back to rest. -/
theorem handleData_code {key : OrdinaryKey} {decoder : Decoder}
    (state : Prefixed key.extended key.released decoder) :
    ∃ next, handleData decoder key.code = some (next, [key.event]) ∧
      AtRest next := by
  have notFirst :
      (key.extended && !key.released && key.code == 0x12) = false := by
    have special := key.not_printScreen
    cases extended : key.extended <;> cases released : key.released <;>
      simp_all
  have notSecond :
      (key.extended && key.released && key.code == 0x7C) = false := by
    have special := key.not_printScreen
    cases extended : key.extended <;> cases released : key.released <;>
      simp_all
  refine ⟨(decoder.store key.code).reset, ?_, ?_⟩
  · rw [handleData, if_pos state.room, Decoder.decode,
      if_neg key.code_ne_emul1, if_neg key.code_ne_emul0,
      if_neg key.code_ne_release]
    simp only [Decoder.store, state.ext0, state.released, state.ext1,
      notFirst, notSecond, Bool.false_and, Bool.false_eq_true, if_false,
      state.expect, BitVec.sub_self, Decoder.complete,
      state.isSysrq, state.isPause, key.lookup_code, Option.map_some]
    rfl
  · exact ⟨rfl, rfl, rfl, state.isPause, state.isSysrq, rfl, rfl⟩

/-- From rest, an ordinary key is decoded to its event, and rest follows. -/
theorem feed_ordinaryKey {decoder : Decoder} (rests : AtRest decoder)
    (key : OrdinaryKey) :
    ∃ next, feed handleData decoder key.bytes = some (next, [key.event]) ∧
      AtRest next := by
  obtain ⟨prefixed, front, state⟩ :=
    feed_prefixes rests key.extended key.released
  obtain ⟨next, step, rested⟩ := handleData_code state
  refine ⟨next, ?_, rested⟩
  rw [OrdinaryKey.bytes, feed_append_of_feed front, feed_cons_of_step step]
  rfl

/-- Streams of ordinary keys, from any state at rest. -/
theorem feed_ordinaryKeys {decoder : Decoder} (rests : AtRest decoder)
    (keys : List OrdinaryKey) :
    ∃ next,
      feed handleData decoder (keys.flatMap OrdinaryKey.bytes) =
        some (next, keys.map OrdinaryKey.event) ∧
      AtRest next := by
  obtain ⟨next, fed, rested⟩ :=
    feed_frames (fun _ key rests => feed_ordinaryKey rests key) rests keys
  refine ⟨next, ?_, rested⟩
  rw [fed, List.map_eq_flatMap]

/--
Every finite concatenation of ordinary sequences is decoded to exactly one
event for each, in order, and leaves the decoder at rest.
-/
theorem ordinary_keys_decode_exactly (keys : List OrdinaryKey) :
    ∃ final,
      feed handleData initialDecoder (keys.flatMap OrdinaryKey.bytes) =
        some (final, keys.map OrdinaryKey.event) ∧
      AtRest final :=
  feed_ordinaryKeys atRest_initialDecoder keys

end Kernull.Ps2Decoder
