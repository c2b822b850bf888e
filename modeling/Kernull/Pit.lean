import Mathlib.Logic.Function.Iterate
import Mathlib.Tactic.Common
import Kernull.Library.PortIo

/-!
# The frequency of the timer

`pit_set_timer_freq` of `pit.c` on the first channel of the timer.  The channel
counts ticks, `PIT_SCALE` of them in a second, and requests an interrupt each
time the count has run down.  The divisor has sixteen bits there: it is cut when
the frequency is low, a count of one is not allowed, and a frequency above
`PIT_SCALE` makes the divisor zero, which stands for the longest period.
-/

namespace Kernull.Pit

open Kernull.Library.PortIo

/-! ## The function -/

/-- `PIT_A`. -/
def pitA : BitVec 64 := 0x40

/-- `PIT_CONTROL`. -/
def pitControl : BitVec 64 := 0x43

/-- `PIT_SET`. -/
def pitSet : BitVec 8 := 0x36

/-- `PIT_SCALE`. -/
def pitScale : BitVec 64 := 1193180

/-- `PIT_MASK`. -/
def pitMask : BitVec 64 := 0xFF

/-- `pit_set_timer_freq`; the division by zero does not return. -/
def pitSetTimerFreq {State : Type} (device : Device State)
    (hz : BitVec 64) : Driver State Unit :=
  if hz = 0 then
    givenUp
  else do
    let divisor := pitScale / hz
    outb device pitControl pitSet
    outb device pitA ((divisor &&& pitMask).setWidth 8)
    outb device pitA (((divisor >>> 8) &&& pitMask).setWidth 8)

/-! ## The first channel -/

/--
The control word of the channel, the low byte of a count while its high byte is
awaited, and the count.
-/
structure Channel where
  control : BitVec 8
  low : Option (BitVec 8)
  count : Option (BitVec 16)

namespace Channel

/-- The bytes that are written for a count: 1, 2, or 3 for both. -/
def access (control : BitVec 8) : BitVec 2 :=
  control.extractLsb' 4 2

/--
A control word.  Bits 6 and 7 tell the channel that it is for, and a command to
latch the count leaves the channel as it is.
-/
def writeControl (channel : Channel) (byte : BitVec 8) : Channel :=
  if byte.extractLsb' 6 2 = 0 ∧ access byte ≠ 0 then
    { control := byte, low := none, count := none }
  else
    channel

/-- A byte of a count. -/
def writeData (channel : Channel) (byte : BitVec 8) : Channel :=
  if access channel.control = 1 then
    { channel with count := some ((0 : BitVec 8) ++ byte) }
  else if access channel.control = 2 then
    { channel with count := some (byte ++ (0 : BitVec 8)) }
  else
    match channel.low with
    | none => { channel with low := some byte }
    | some low => { channel with low := none, count := some (byte ++ low) }

def write (port : BitVec 64) (byte : BitVec 8) (channel : Channel) :
    Channel :=
  if port = 0x43 then channel.writeControl byte
  else if port = 0x40 then channel.writeData byte
  else channel

/--
The ticks from one request to the next: zero stands for `65536`, and a count of
one is not allowed.
-/
def periodOf (count : Nat) : Option Nat :=
  if count = 1 then none
  else if count = 0 then some 65536
  else some count

/-- The period in the periodic modes. -/
def period (channel : Channel) : Option Nat :=
  if channel.control.getLsbD 2 = true ∧ channel.control.getLsbD 0 = false then
    channel.count.bind fun count => periodOf count.toNat
  else
    none

end Channel

/-- The timer, with any answers to reads. -/
def timer (read : BitVec 64 → Channel → BitVec 8 × Channel) :
    Device Channel where
  read := read
  write := Channel.write

/-! ## Ticks -/

/-- The ticks that remain until the next request, and the requests so far. -/
structure Count where
  remaining : Nat
  requests : Nat

def Count.tick (period : Nat) (count : Count) : Count :=
  if count.remaining = 1 then
    { remaining := period, requests := count.requests + 1 }
  else
    { count with remaining := count.remaining - 1 }

/-- The count some ticks after it was loaded. -/
def countAfter (period ticks : Nat) : Count :=
  (Count.tick period)^[ticks] { remaining := period, requests := 0 }

/-- What has been counted is in the requests and in the rest. -/
structure Counted (period ticks : Nat) (count : Count) : Prop where
  positive : 0 < count.remaining
  most : count.remaining ≤ period
  total : count.requests * period + period = ticks + count.remaining

theorem Counted.tick
    {period ticks : Nat} {count : Count}
    (counted : Counted period ticks count) :
    Counted period (ticks + 1) (count.tick period) := by
  have positive := counted.positive
  have most := counted.most
  have total := counted.total
  rw [Count.tick]
  split_ifs with last
  · refine ⟨Nat.lt_of_lt_of_le positive most, Nat.le_refl period, ?_⟩
    show (count.requests + 1) * period + period = _
    rw [Nat.add_mul, Nat.one_mul, total, last]
  · refine ⟨?_, ?_, ?_⟩
    · show 0 < count.remaining - 1
      omega
    · show count.remaining - 1 ≤ period
      omega
    · show count.requests * period + period = _
      rw [total]
      show _ = ticks + 1 + (count.remaining - 1)
      omega

theorem counted_countAfter
    {period : Nat} (positive : 0 < period) (ticks : Nat) :
    Counted period ticks (countAfter period ticks) := by
  induction ticks with
  | zero =>
      refine ⟨positive, Nat.le_refl period, ?_⟩
      show 0 * period + period = 0 + period
      rw [Nat.zero_mul]
  | succ ticks inductionHypothesis =>
      rw [countAfter, Function.iterate_succ_apply']
      exact inductionHypothesis.tick

/-- One request in each period. -/
theorem requests_countAfter
    {period : Nat} (positive : 0 < period) (ticks : Nat) :
    (countAfter period ticks).requests = ticks / period := by
  have counted := counted_countAfter positive ticks
  have least := counted.positive
  have most := counted.most
  have total := counted.total
  symm
  apply Nat.div_eq_of_lt_le
  · omega
  · rw [Nat.add_mul, Nat.one_mul]
    omega

/-! ## The frequency -/

section

open Channel

variable {divisor period hz : Nat}

/-- The period of a divisor of more than one is no longer than it. -/
theorem period_le
    (several : 1 < divisor) (runs : periodOf (divisor % 65536) = some period) :
    period ≤ divisor := by
  rw [periodOf] at runs
  split_ifs at runs with one zero
  · obtain rfl := Option.some.inj runs
    have divides : 65536 ∣ divisor := Nat.dvd_of_mod_eq_zero zero
    exact Nat.le_of_dvd (by omega) divides
  · obtain rfl := Option.some.inj runs
    exact Nat.mod_le divisor 65536

theorem period_pos (runs : periodOf divisor = some period) : 0 < period := by
  rw [periodOf] at runs
  split_ifs at runs with one zero
  · obtain rfl := Option.some.inj runs
    decide
  · obtain rfl := Option.some.inj runs
    exact Nat.pos_of_ne_zero zero

/-- The divisor is kept when it has sixteen bits and is more than one. -/
theorem periodOf_eq_iff (positive : 0 < hz) :
    periodOf (1193180 / hz % 65536) = some (1193180 / hz) ↔
      19 ≤ hz ∧ hz ≤ 596590 := by
  have least : hz * (1193180 / hz) ≤ 1193180 := Nat.mul_div_le 1193180 hz
  have most : 1193180 < hz * (1193180 / hz + 1) :=
    Nat.lt_mul_div_succ 1193180 positive
  generalize 1193180 / hz = divisor at least most
  constructor
  · intro kept
    rw [periodOf] at kept
    split_ifs at kept with one zero
    · have same : 65536 = divisor := Option.some.inj kept
      rw [← same] at least most
      omega
    · have same : divisor % 65536 = divisor := Option.some.inj kept
      have small : divisor + 1 ≤ 65536 := by omega
      have several : 2 ≤ divisor := by omega
      have above := Nat.mul_le_mul_left hz small
      have below := Nat.mul_le_mul_left hz several
      omega
  · rintro ⟨low, high⟩
    have small : divisor < 65536 := by
      by_contra large
      have above := Nat.mul_le_mul low (Nat.le_of_not_lt large)
      omega
    have several : 1 < divisor := by
      by_contra few
      have below := Nat.mul_le_mul high (by omega : divisor + 1 ≤ 2)
      omega
    rw [Nat.mod_eq_of_lt small, periodOf, if_neg (by omega),
      if_neg (by omega)]

/-- There are enough requests when the divisor is more than one. -/
theorem enough_requests_iff
    (positive : 0 < hz)
    (runs : periodOf (1193180 / hz % 65536) = some period) :
    hz ≤ 1193180 / period ↔ hz ≤ 596590 := by
  have least : hz * (1193180 / hz) ≤ 1193180 := Nat.mul_div_le 1193180 hz
  have most : 1193180 < hz * (1193180 / hz + 1) :=
    Nat.lt_mul_div_succ 1193180 positive
  rw [Nat.le_div_iff_mul_le (period_pos runs)]
  generalize 1193180 / hz = divisor at runs least most
  by_cases several : 1 < divisor
  · have below := Nat.mul_le_mul_left hz (several : 2 ≤ divisor)
    have kept := Nat.mul_le_mul_left hz (period_le several runs)
    exact iff_of_true (Nat.le_trans kept least) (by omega)
  · have above : 596590 < hz := by
      have below := Nat.mul_le_mul_left hz (by omega : divisor + 1 ≤ 2)
      omega
    have none_ : divisor ≠ 1 := by
      rintro rfl
      exact nomatch runs
    have zero : divisor = 0 := by omega
    have longest : period = 65536 := by
      rw [zero] at runs
      exact (Option.some.inj runs).symm
    rw [longest]
    constructor <;> omega

end

/-- The two bytes of the divisor. -/
theorem joined_bytes (divisor : BitVec 64) :
    ((divisor >>> 8 &&& pitMask).setWidth 8 ++
        (divisor &&& pitMask).setWidth 8 : BitVec 16) =
      divisor.setWidth 16 := by
  have ones : ∀ i, i < 8 → pitMask.getLsbD i = true := by
    decide
  apply BitVec.eq_of_getLsbD_eq
  intro i inside
  rw [BitVec.getLsbD_append]
  by_cases lower : i < 8
  · simp [lower, ones i lower, inside]
  · have upper : i - 8 < 8 := by omega
    have place : 8 + (i - 8) = i := by omega
    simp [lower, upper, ones _ upper, place, inside]

theorem write_pitControl (channel : Channel) :
    channel.write pitControl pitSet =
      { control := pitSet, low := none, count := none } := by
  rw [Channel.write, if_pos (by decide), Channel.writeControl,
    if_pos (by decide)]

/-- Counts are written low byte first behind the control word. -/
theorem write_pitA
    {channel : Channel} (set : channel.control = pitSet) (byte : BitVec 8) :
    channel.write pitA byte =
      match channel.low with
      | none => { channel with low := some byte }
      | some low =>
          { channel with low := none, count := some (byte ++ low) } := by
  rw [Channel.write, if_neg (by decide), if_pos (by decide),
    Channel.writeData, set, if_neg (by decide), if_neg (by decide)]

/-- The control word and two bytes leave a count. -/
theorem write_count (channel : Channel) (low high : BitVec 8) :
    ((channel.write pitControl pitSet).write pitA low).write pitA high =
      { control := pitSet, low := none, count := some (high ++ low) } := by
  rw [write_pitControl, write_pitA rfl, write_pitA rfl]

/-- What the function leaves in the timer. -/
theorem pitSetTimerFreq_eq
    (read : BitVec 64 → Channel → BitVec 8 × Channel) (bus : Bus Channel)
    {hz : BitVec 64} (nonzero : hz ≠ 0) :
    ∃ last, pitSetTimerFreq (timer read) hz bus = (some (), last) ∧
      last.state.period =
        Channel.periodOf (1193180 / hz.toNat % 65536) := by
  have scale : pitScale.toNat = 1193180 := rfl
  have count : ((pitScale / hz).setWidth 16).toNat =
      1193180 / hz.toNat % 65536 := by
    rw [BitVec.toNat_setWidth, BitVec.toNat_udiv, scale]
  have left := write_count bus.state ((pitScale / hz &&& pitMask).setWidth 8)
    (((pitScale / hz) >>> 8 &&& pitMask).setWidth 8)
  rw [joined_bytes] at left
  rw [pitSetTimerFreq, if_neg nonzero]
  refine ⟨_, rfl, ?_⟩
  have periodic : pitSet.getLsbD 2 = true ∧ pitSet.getLsbD 0 = false := by
    decide
  apply (congrArg Channel.period left).trans
  rw [Channel.period, if_pos periodic, ← count]
  rfl

/--
Whatever the state of the timer, `pit_set_timer_freq` ends.  The divisor of the
source is then the period exactly for the frequencies from 19 to `596590`, half
of `PIT_SCALE`.  With any period there is one request in each, and at least as
many in a second as asked for exactly up to this frequency.
-/
theorem timer_frequency_iff
    (read : BitVec 64 → Channel → BitVec 8 × Channel) (bus : Bus Channel)
    {hz : BitVec 64} (nonzero : hz ≠ 0) :
    ∃ last, pitSetTimerFreq (timer read) hz bus = (some (), last) ∧
      (last.state.period = some (pitScale.toNat / hz.toNat) ↔
        19 ≤ hz.toNat ∧ hz.toNat ≤ 596590) ∧
      ∀ period, last.state.period = some period →
        (∀ ticks, (countAfter period ticks).requests = ticks / period) ∧
        (hz.toNat ≤ (countAfter period pitScale.toNat).requests ↔
          hz.toNat ≤ 596590) := by
  have scale : pitScale.toNat = 1193180 := rfl
  have positive : 0 < hz.toNat := by
    apply Nat.pos_of_ne_zero
    intro zero
    exact nonzero (BitVec.eq_of_toNat_eq zero)
  rcases pitSetTimerFreq_eq read bus nonzero with ⟨last, runs, set⟩
  refine ⟨last, runs, ?_, ?_⟩
  · rw [set, scale]
    exact periodOf_eq_iff positive
  · intro period same
    rw [set] at same
    have counts := requests_countAfter (period_pos same)
    refine ⟨counts, ?_⟩
    rw [counts, scale]
    exact enough_requests_iff positive same

/-- `pit_init` asks for 100 interrupts in a second. -/
theorem timer_frequency_iff_hundred :
    ∃ last,
      pitSetTimerFreq (timer fun _ channel => (0, channel)) 100
          ⟨⟨0, none, none⟩, []⟩ = (some (), last) ∧
      last.state.period = some 11931 ∧
      (countAfter 11931 1193180).requests = 100 := by
  rcases timer_frequency_iff (fun _ channel => (0, channel))
      ⟨⟨0, none, none⟩, []⟩ (by decide : (100 : BitVec 64) ≠ 0) with
    ⟨last, runs, kept, counted⟩
  have period : last.state.period = some 11931 := kept.mpr (by decide)
  exact ⟨last, runs, period, (counted _ period).1 1193180⟩

end Kernull.Pit
