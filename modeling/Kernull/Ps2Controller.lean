import Mathlib.Data.Nat.Find
import Kernull.MmConstants

/-!
# Waiting for the PS/2 controller

`wait_input_buf` and `wait_output_buf` of `kernel/ps2_8042.c` over the stream
of status bytes that the controller returns.  The time-out is told from the
counter, which is decremented in the test: it is zero when the buffer is ready
at the last read, and has wrapped when it is not.
-/

namespace Kernull.Ps2Controller

open Kernull.Mm

/-- `bits.output_full` of a `controller_status`. -/
def outputFull (status : BitVec 8) : Bool :=
  status.getLsbD 0

/-- `bits.input_full` of a `controller_status`. -/
def inputFull (status : BitVec 8) : Bool :=
  status.getLsbD 1

/-- The values that `inb(STATUS_REG)` returns, one after the other. -/
abbrev StatusStream := Nat → BitVec 8

/-- What a loop leaves: the counter, the last status and the reads made. -/
structure Polled where
  timeout : Nat
  s : BitVec 8
  reads : Nat

/-- `while (waiting && timeout-- > 0) s.full = inb(STATUS_REG);` -/
def pollLoop (waiting : BitVec 8 → Bool) (status : StatusStream) :
    Nat → BitVec 8 → Nat → Polled
  | 0, s, reads =>
      if waiting s then ⟨sub64 0 1, s, reads⟩ else ⟨0, s, reads⟩
  | timeout + 1, s, reads =>
      if waiting s then
        pollLoop waiting status timeout (status reads) (reads + 1)
      else
        ⟨timeout + 1, s, reads⟩

/-- What a wait returns, with the last status and the reads made. -/
structure Waited where
  result : BitVec 8
  s : BitVec 8
  reads : Nat

/-- The common body of the two functions. -/
def wait (waiting : BitVec 8 → Bool) (status : StatusStream) : Waited :=
  let timeout := 64
  let s := status 0
  let polled := pollLoop waiting status timeout s 1
  if polled.timeout = 0 then
    ⟨1, polled.s, polled.reads⟩
  else
    ⟨0, polled.s, polled.reads⟩

/-- `wait_input_buf`. -/
def waitInputBuf (status : StatusStream) : Waited :=
  wait inputFull status

/-- `wait_output_buf`. -/
def waitOutputBuf (status : StatusStream) : Waited :=
  wait (fun s => !outputFull s) status

/--
The result is 1 when the buffer is still waited for at the last status and 0
when it is not.
-/
structure ReportsTruly (waiting : BitVec 8 → Bool) (waited : Waited) :
    Prop where
  expired : waited.result = 1 ↔ waiting waited.s = true
  ready : waited.result = 0 ↔ waiting waited.s = false

section

variable {waiting : BitVec 8 → Bool} {status : StatusStream}

/-- A status that ends the waiting stops the loop there. -/
theorem pollLoop_ready
    {timeout read delay : Nat} (inTime : delay ≤ timeout)
    (before : ∀ i, i < delay → waiting (status (read + i)) = true)
    (ready : waiting (status (read + delay)) = false) :
    pollLoop waiting status timeout (status read) (read + 1) =
      ⟨timeout - delay, status (read + delay), read + delay + 1⟩ := by
  induction timeout generalizing read delay with
  | zero =>
      obtain rfl := Nat.eq_zero_of_le_zero inTime
      have stops : ¬ waiting (status read) = true :=
        Bool.eq_false_iff.mp ready
      rw [pollLoop, if_neg stops]
      rfl
  | succ timeout inductionHypothesis =>
      rw [pollLoop]
      cases delay with
      | zero =>
          have stops : ¬ waiting (status read) = true :=
            Bool.eq_false_iff.mp ready
          rw [if_neg stops]
          rfl
      | succ delay =>
          have goesOn : waiting (status read) = true :=
            before 0 (Nat.succ_pos delay)
          have shift : read + (delay + 1) = read + 1 + delay := by omega
          have laterBefore : ∀ i, i < delay →
              waiting (status (read + 1 + i)) = true := by
            intro i bound
            have shifted := before (i + 1) (Nat.succ_lt_succ bound)
            rwa [show read + (i + 1) = read + 1 + i by omega] at shifted
          rw [shift] at ready
          rw [if_pos goesOn,
            inductionHypothesis (Nat.le_of_succ_le_succ inTime)
              laterBefore ready,
            shift, Nat.add_sub_add_right]

/-- Without such a status the counter wraps. -/
theorem pollLoop_expired
    {timeout read : Nat}
    (never : ∀ i, i ≤ timeout → waiting (status (read + i)) = true) :
    pollLoop waiting status timeout (status read) (read + 1) =
      ⟨2 ^ 64 - 1, status (read + timeout), read + timeout + 1⟩ := by
  induction timeout generalizing read with
  | zero =>
      have goesOn : waiting (status read) = true := never 0 (Nat.le_refl 0)
      rw [pollLoop, if_pos goesOn]
      rfl
  | succ timeout inductionHypothesis =>
      have goesOn : waiting (status read) = true := never 0 (Nat.zero_le _)
      have later : ∀ i, i ≤ timeout →
          waiting (status (read + 1 + i)) = true := by
        intro i bound
        have shifted := never (i + 1) (Nat.succ_le_succ bound)
        rwa [show read + (i + 1) = read + 1 + i by omega] at shifted
      rw [pollLoop, if_pos goesOn, inductionHypothesis later,
        show read + (timeout + 1) = read + 1 + timeout by omega]

/-- A wait that ends with the buffer ready has counted down so far. -/
theorem wait_ready
    {delay : Nat} (inTime : delay ≤ 64)
    (before : ∀ i, i < delay → waiting (status i) = true)
    (ready : waiting (status delay) = false) :
    wait waiting status =
      ⟨if delay = 64 then 1 else 0, status delay, delay + 1⟩ := by
  have polled :
      pollLoop waiting status 64 (status 0) (0 + 1) =
        ⟨64 - delay, status (0 + delay), 0 + delay + 1⟩ := by
    apply pollLoop_ready inTime
    · intro i bound
      rw [Nat.zero_add]
      exact before i bound
    · rw [Nat.zero_add]
      exact ready
  rw [Nat.zero_add, Nat.zero_add] at polled
  simp only [wait, polled]
  by_cases last : delay = 64
  · subst last
    rfl
  · rw [if_neg last, if_neg (by omega)]

/-- A wait that expires returns 0. -/
theorem wait_expired
    (never : ∀ i, i ≤ 64 → waiting (status i) = true) :
    wait waiting status = ⟨0, status 64, 65⟩ := by
  have polled :
      pollLoop waiting status 64 (status 0) (0 + 1) =
        ⟨2 ^ 64 - 1, status (0 + 64), 0 + 64 + 1⟩ := by
    apply pollLoop_expired
    intro i bound
    rw [Nat.zero_add]
    exact never i bound
  simp only [wait, polled]
  rfl

/-- The least status that ends the waiting, if there is one in time. -/
theorem ready_or_expired (waiting : BitVec 8 → Bool)
    (status : StatusStream) :
    (∃ delay, delay ≤ 64 ∧
        (∀ i, i < delay → waiting (status i) = true) ∧
        waiting (status delay) = false) ∨
      ∀ i, i ≤ 64 → waiting (status i) = true := by
  by_cases some : ∃ delay, delay ≤ 64 ∧ waiting (status delay) = false
  · left
    refine ⟨Nat.find some, (Nat.find_spec some).1, ?_,
      (Nat.find_spec some).2⟩
    intro i before
    have notReady := Nat.find_min some before
    have inTime := (Nat.find_spec some).1
    cases here : waiting (status i) with
    | true => rfl
    | false => exact absurd ⟨by omega, here⟩ notReady
  · right
    intro i bound
    cases here : waiting (status i) with
    | true => rfl
    | false => exact absurd ⟨i, bound, here⟩ some

/-- A wait is true exactly when it is over before the last read. -/
theorem wait_reportsTruly_iff (waiting : BitVec 8 → Bool)
    (status : StatusStream) :
    (wait waiting status).reads ≤ 65 ∧
      (ReportsTruly waiting (wait waiting status) ↔
        ∃ k, k < 64 ∧ waiting (status k) = false) := by
  rcases ready_or_expired waiting status with
    ⟨delay, inTime, before, ready⟩ | never
  · rw [wait_ready inTime before ready]
    refine ⟨Nat.succ_le_succ inTime, ?_⟩
    by_cases last : delay = 64
    · subst last
      rw [if_pos rfl]
      apply iff_of_false
      · intro reports
        have still := reports.expired.mp rfl
        rw [ready] at still
        exact nomatch still
      · rintro ⟨k, earlier, here⟩
        rw [before k earlier] at here
        exact nomatch here
    · rw [if_neg last]
      apply iff_of_true
      · constructor
        · apply iff_of_false
          · exact fun same : (0 : BitVec 8) = 1 => nomatch same
          · exact Bool.eq_false_iff.mp ready
        · exact iff_of_true rfl ready
      · exact ⟨delay, by omega, ready⟩
  · rw [wait_expired never]
    refine ⟨Nat.le_refl 65, ?_⟩
    apply iff_of_false
    · intro reports
      have ended := reports.ready.mp rfl
      rw [never 64 (Nat.le_refl 64)] at ended
      exact nomatch ended
    · rintro ⟨k, earlier, here⟩
      rw [never k (Nat.le_of_lt earlier)] at here
      exact nomatch here

end

/--
For every stream of status bytes both functions stop after at most 65 reads,
and each reports truly exactly when one of the first 64 status bytes shows the
buffer ready.
-/
theorem waits_report_truly_iff (status : StatusStream) :
    ((waitInputBuf status).reads ≤ 65 ∧
      (ReportsTruly inputFull (waitInputBuf status) ↔
        ∃ k, k < 64 ∧ inputFull (status k) = false)) ∧
    (waitOutputBuf status).reads ≤ 65 ∧
      (ReportsTruly (fun s => !outputFull s) (waitOutputBuf status) ↔
        ∃ k, k < 64 ∧ (!outputFull (status k)) = false) := by
  constructor
  · exact wait_reportsTruly_iff inputFull status
  · exact wait_reportsTruly_iff (fun s => !outputFull s) status

/-- A controller that never becomes ready is not reported. -/
theorem time_out_not_reported :
    ¬ ∀ status : StatusStream,
      ReportsTruly inputFull (waitInputBuf status) := by
  intro always
  have reports := always fun _ => 0x02
  have never : waitInputBuf (fun _ => 0x02) = ⟨0, 0x02, 65⟩ :=
    wait_expired fun _ _ => by decide
  rw [never] at reports
  exact nomatch reports.ready.mp rfl

end Kernull.Ps2Controller
