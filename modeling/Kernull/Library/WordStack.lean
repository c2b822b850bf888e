import Kernull.Library.ByteMemory

/-!
# A stack of words

A machine with registers of 64 bits and a stack that grows downwards in
byte-addressed memory.  Words that are pushed stand in a row, the last one
first; popping registers from a row of words fills them one after the other.
A save and a restore in the opposite order are thus inverse to each other as
far as the row is left alone, and a row that has been changed in between is
what the registers hold afterwards.
-/

namespace Kernull.Library.WordStack

open Kernull.Library.ByteMemory

/-! ## Words in memory -/

/-- The word at an address. -/
def wordAt (memory : Memory) (address : Nat) : BitVec 64 :=
  BitVec.ofNat 64 (readBytes memory address 8)

/-- Store a word. -/
def storeWord (memory : Memory) (address : Nat) (word : BitVec 64) :
    Memory :=
  writeBytes memory address 8 word.toNat

theorem wordAt_storeWord_same
    (memory : Memory) (address : Nat) (word : BitVec 64) :
    wordAt (storeWord memory address word) address = word := by
  rw [wordAt, storeWord, readBytes_writeBytes_same]
  apply BitVec.eq_of_toNat_eq
  have small := word.isLt
  rw [BitVec.toNat_ofNat]
  omega

theorem storeWord_outside
    (memory : Memory) {address : Nat} (word : BitVec 64) {other : Nat}
    (outside : other < address ∨ address + 8 ≤ other) :
    storeWord memory address word other = memory other :=
  writeBytes_outside memory word.toNat outside

theorem wordAt_congr
    {left right : Memory} {address : Nat}
    (agree : ∀ offset, offset < 8 →
      left (address + offset) = right (address + offset)) :
    wordAt left address = wordAt right address :=
  congrArg (BitVec.ofNat 64) (readBytes_congr agree)

/-- The words of a list stand in a row. -/
def WordsAt (memory : Memory) : Nat → List (BitVec 64) → Prop
  | _, [] => True
  | address, word :: rest =>
      wordAt memory address = word ∧ WordsAt memory (address + 8) rest

@[simp]
theorem wordsAt_nil (memory : Memory) (address : Nat) :
    WordsAt memory address [] :=
  trivial

@[simp]
theorem wordsAt_cons
    {memory : Memory} {address : Nat} {word : BitVec 64}
    {rest : List (BitVec 64)} :
    WordsAt memory address (word :: rest) ↔
      wordAt memory address = word ∧ WordsAt memory (address + 8) rest :=
  Iff.rfl

theorem wordsAt_append
    {memory : Memory} {address : Nat} {front back : List (BitVec 64)} :
    WordsAt memory address (front ++ back) ↔
      WordsAt memory address front ∧
        WordsAt memory (address + 8 * front.length) back := by
  induction front generalizing address with
  | nil => simp
  | cons word front inductionHypothesis =>
      have behind : address + 8 + 8 * front.length =
          address + 8 * (front.length + 1) := by omega
      rw [List.cons_append, wordsAt_cons, inductionHypothesis, wordsAt_cons,
        List.length_cons, behind, and_assoc]

/-- A row of words depends only on the bytes of its range. -/
theorem WordsAt.congr
    {left right : Memory} {address : Nat} {words : List (BitVec 64)}
    (stand : WordsAt left address words)
    (agree : ∀ a, address ≤ a → a < address + 8 * words.length →
      right a = left a) :
    WordsAt right address words := by
  induction words generalizing address with
  | nil => exact wordsAt_nil right address
  | cons word words inductionHypothesis =>
      rw [List.length_cons] at agree
      constructor
      · rw [← stand.1]
        apply wordAt_congr
        intro offset small
        exact agree (address + offset) (by omega) (by omega)
      · apply inductionHypothesis stand.2
        intro a above below
        exact agree a (by omega) (by omega)

/-! ## The machine -/

/-- Registers, the stack pointer and memory. -/
structure Machine (Register : Type) where
  registers : Register → BitVec 64
  rsp : BitVec 64
  memory : Memory

variable {Register : Type}

namespace Machine

/-- Put a word on the stack. -/
def pushWord (machine : Machine Register) (word : BitVec 64) :
    Machine Register :=
  { machine with
    rsp := machine.rsp - 8
    memory := storeWord machine.memory (machine.rsp - 8).toNat word }

/-- Put a register on the stack. -/
def push (machine : Machine Register) (register : Register) :
    Machine Register :=
  machine.pushWord (machine.registers register)

/-- The word on top of the stack. -/
def top (machine : Machine Register) : BitVec 64 :=
  wordAt machine.memory machine.rsp.toNat

/-- Forget a number of bytes of the stack. -/
def drop (machine : Machine Register) (count : BitVec 64) :
    Machine Register :=
  { machine with rsp := machine.rsp + count }

/-- Take a register from the stack. -/
def pop [DecidableEq Register] (machine : Machine Register)
    (register : Register) : Machine Register :=
  { machine.drop 8 with
    registers := Function.update machine.registers register machine.top }

/-! ## Pushing -/

/-- What pushing a list of words leaves, the last of them on top. -/
structure Pushed (before after : Machine Register)
    (words : List (BitVec 64)) : Prop where
  registers : after.registers = before.registers
  rsp : after.rsp.toNat + 8 * words.length = before.rsp.toNat
  words : WordsAt after.memory after.rsp.toNat words.reverse
  rest : ∀ a, a < after.rsp.toNat ∨ before.rsp.toNat ≤ a →
    after.memory a = before.memory a

theorem Pushed.nothing (machine : Machine Register) :
    Pushed machine machine [] where
  registers := rfl
  rsp := rfl
  words := wordsAt_nil _ _
  rest _ _ := rfl

/-- One more word. -/
theorem Pushed.pushWord
    {before after : Machine Register} {words : List (BitVec 64)}
    (pushed : Pushed before after words) (word : BitVec 64)
    (room : 8 ≤ after.rsp.toNat) :
    Pushed before (after.pushWord word) (words ++ [word]) := by
  have pointer : (after.rsp - 8).toNat + 8 = after.rsp.toNat := by
    rw [BitVec.toNat_sub_of_le (by simpa [BitVec.le_def] using room)]
    exact Nat.sub_add_cancel room
  have counted := pushed.rsp
  constructor
  · exact pushed.registers
  · simp only [Machine.pushWord, List.length_append, List.length_singleton]
    omega
  · rw [List.reverse_append, List.reverse_singleton, List.singleton_append]
    constructor
    · exact wordAt_storeWord_same _ _ _
    · show WordsAt _ ((after.rsp - 8).toNat + 8) _
      rw [pointer]
      apply pushed.words.congr
      intro a above _
      exact storeWord_outside _ _ (Or.inr (by omega))
  · intro a outside
    simp only [Machine.pushWord] at outside ⊢
    rw [storeWord_outside _ _ (by omega)]
    exact pushed.rest a (by omega)

/-- Pushing behind pushing. -/
theorem Pushed.trans
    {before middle after : Machine Register}
    {front back : List (BitVec 64)}
    (first : Pushed before middle front) (then_ : Pushed middle after back) :
    Pushed before after (front ++ back) := by
  have firstCounted := first.rsp
  have thenCounted := then_.rsp
  constructor
  · exact then_.registers.trans first.registers
  · rw [List.length_append]
    omega
  · rw [List.reverse_append, wordsAt_append, List.length_reverse]
    constructor
    · exact then_.words
    · rw [thenCounted]
      apply first.words.congr
      intro a above _
      exact then_.rest a (Or.inr above)
  · intro a outside
    rw [then_.rest a (by omega)]
    exact first.rest a (by omega)

/-- Pushing words one after the other. -/
theorem pushed_foldl_pushWord
    (machine : Machine Register) (words : List (BitVec 64))
    (room : 8 * words.length ≤ machine.rsp.toNat) :
    Pushed machine (words.foldl pushWord machine) words := by
  induction words generalizing machine with
  | nil => exact Pushed.nothing machine
  | cons word words inductionHypothesis =>
      rw [List.length_cons] at room
      have first : Pushed machine (machine.pushWord word) ([] ++ [word]) :=
        (Pushed.nothing machine).pushWord word (by omega)
      have counted := first.rsp
      simp only [List.nil_append, List.length_singleton] at counted
      have others := inductionHypothesis (machine.pushWord word) (by omega)
      exact first.trans others

/-- Pushing registers is pushing what is in them. -/
theorem foldl_push_eq
    (machine : Machine Register) (list : List Register) :
    list.foldl push machine =
      (list.map machine.registers).foldl pushWord machine := by
  induction list generalizing machine with
  | nil => rfl
  | cons register list inductionHypothesis =>
      rw [List.foldl_cons, inductionHypothesis]
      rfl

/-! ## Popping -/

variable [DecidableEq Register]

/--
Popping registers from a row that holds a word for each of them fills each
with its word.
-/
theorem foldl_pop_eq
    (saved : Register → BitVec 64) (machine : Machine Register)
    (list : List Register)
    (stand : WordsAt machine.memory machine.rsp.toNat (list.map saved))
    (room : machine.rsp.toNat + 8 * list.length < 2 ^ 64) :
    list.foldl pop machine =
      { machine with
        registers := fun register =>
          if register ∈ list then saved register
          else machine.registers register
        rsp := machine.rsp + BitVec.ofNat 64 (8 * list.length) } := by
  induction list generalizing machine with
  | nil => simp
  | cons register list inductionHypothesis =>
      rw [List.length_cons] at room
      have pointer : (machine.rsp + 8).toNat = machine.rsp.toNat + 8 := by
        rw [BitVec.toNat_add]
        exact Nat.mod_eq_of_lt (show machine.rsp.toNat + 8 < 2 ^ 64 by omega)
      have word : machine.top = saved register := stand.1
      have others := inductionHypothesis (machine.pop register)
        (by
          show WordsAt machine.memory (machine.rsp + 8).toNat _
          rw [pointer]
          exact stand.2)
        (by
          show (machine.rsp + 8).toNat + _ < _
          omega)
      have further : machine.rsp + 8 + BitVec.ofNat 64 (8 * list.length) =
          machine.rsp + BitVec.ofNat 64 (8 * (list.length + 1)) := by
        rw [Nat.mul_succ, BitVec.ofNat_add, BitVec.add_assoc,
          BitVec.add_comm 8]
        rfl
      rw [List.foldl_cons, others]
      simp only [pop, drop, word, List.mem_cons, List.length_cons, further,
        Machine.mk.injEq, and_true]
      funext other
      by_cases here : other = register
      · simp [here]
      · simp [here, Function.update_of_ne]

end Machine

end Kernull.Library.WordStack
