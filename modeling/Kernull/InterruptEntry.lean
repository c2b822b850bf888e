import Kernull.IdtGates
import Kernull.Library.WordStack

/-!
# Entering and leaving an interrupt

The wrappers of `arch/x86_64/irq.asm`, the `struct regs` of
`include/arch/x86_64/regs.h` that they build on the stack, and what the
processor does before the first and with the last instruction of a wrapper.
The C function behind a wrapper finds the interrupted state in the structure
and the processor goes on with what the function leaves there.
-/

namespace Kernull.InterruptEntry

open Kernull.IdtGates
open Kernull.Library.ByteMemory
open Kernull.Library.WordStack

/-! ## The processor -/

/-- The general registers other than `rsp`. -/
inductive Register where
  | rax | rbx | rcx | rdx | rsi | rdi | rbp
  | r8 | r9 | r10 | r11 | r12 | r13 | r14 | r15
  deriving DecidableEq

/-- The processor, memory, and the rest of the world. -/
structure Cpu (World : Type) extends Machine Register where
  rip : BitVec 64
  cs : BitVec 16
  rflags : BitVec 64
  ss : BitVec 16
  gsBase : BitVec 64
  kernelGsBase : BitVec 64
  world : World

variable {World : Type}

namespace Cpu

/-- An operation on the registers and the stack. -/
def onStack (cpu : Cpu World)
    (operation : Machine Register → Machine Register) : Cpu World :=
  { cpu with toMachine := operation cpu.toMachine }

/-- The interrupt flag of `rflags`. -/
def interruptsEnabled (cpu : Cpu World) : Bool :=
  cpu.rflags.getLsbD 9

end Cpu

/-- Bits of `rflags`. -/
def interruptFlag : BitVec 64 := 0x200

/-- The direction flag. -/
def directionFlag : BitVec 64 := 0x400

/-- The flags cleared on every entry: TF, NT, RF and VM. -/
def entryFlags : BitVec 64 := 0x34100

/-- The stack pointer that an interrupt starts from. -/
def alignedRsp (rsp : BitVec 64) : BitVec 64 :=
  rsp &&& ~~~0xF#64

/-- The words the processor pushes on an interrupt, in this order. -/
def interruptFrame (cpu : Cpu World) (error : Option (BitVec 64)) :
    List (BitVec 64) :=
  [cpu.ss.setWidth 64, cpu.rsp, cpu.rflags, cpu.cs.setWidth 64, cpu.rip] ++
    error.toList

/--
The processor enters an interrupt of the kernel through a gate without an
interrupt stack; an interrupt gate clears the interrupt flag.
-/
def deliver (gate : Gate) (error : Option (BitVec 64)) (cpu : Cpu World) :
    Cpu World :=
  { cpu.onStack fun stack =>
      (interruptFrame cpu error).foldl Machine.pushWord
        { stack with rsp := alignedRsp stack.rsp } with
    rip := gate.offset
    cs := gate.selector
    rflags :=
      if gate.gateType = 0xE then
        cpu.rflags &&& ~~~entryFlags &&& ~~~interruptFlag
      else
        cpu.rflags &&& ~~~entryFlags }

/-! ## The wrappers -/

/-- The C functions that the wrappers call. -/
inductive CFunction where
  | isrHandler
  | irqHandler
  deriving DecidableEq

/-- The instructions of the wrappers. -/
inductive Instruction where
  | cli
  | pushByte (value : BitVec 8)
  | swapgs
  | push (register : Register)
  | pop (register : Register)
  | cld
  | movRdiRsp
  | call (function : CFunction)
  | movRspRax
  | addRsp (count : BitVec 64)
  | iretq
  deriving DecidableEq

/--
One instruction.  `callee` is what a C function does from its call to its
return.  `iretq` takes the words as they are: whether the processor accepts the
address and the selectors in them is not decided here.
-/
def exec (callee : CFunction → Cpu World → Cpu World) (cpu : Cpu World) :
    Instruction → Cpu World
  | .cli => { cpu with rflags := cpu.rflags &&& ~~~interruptFlag }
  | .pushByte value =>
      cpu.onStack fun stack => stack.pushWord (value.signExtend 64)
  | .swapgs =>
      { cpu with gsBase := cpu.kernelGsBase, kernelGsBase := cpu.gsBase }
  | .push register => cpu.onStack fun stack => stack.push register
  | .pop register => cpu.onStack fun stack => stack.pop register
  | .cld => { cpu with rflags := cpu.rflags &&& ~~~directionFlag }
  | .movRdiRsp =>
      cpu.onStack fun stack =>
        { stack with
          registers := Function.update stack.registers .rdi stack.rsp }
  | .call function => callee function cpu
  | .movRspRax =>
      cpu.onStack fun stack => { stack with rsp := stack.registers .rax }
  | .addRsp count => cpu.onStack fun stack => stack.drop count
  | .iretq =>
      let word (i : Nat) := wordAt cpu.memory (cpu.rsp.toNat + 8 * i)
      { cpu.onStack fun stack => { stack with rsp := word 3 } with
        rip := word 0
        cs := (word 1).setWidth 16
        rflags := word 2
        ss := (word 4).setWidth 16 }

/-- A sequence of instructions. -/
def execAll (callee : CFunction → Cpu World → Cpu World)
    (cpu : Cpu World) (code : List Instruction) : Cpu World :=
  code.foldl (exec callee) cpu

/-- The registers that are saved, in the order in which they are pushed. -/
def savedRegisters : List Register :=
  [.rax, .rbx, .rcx, .rdx, .rsi, .rdi, .rbp,
    .r8, .r9, .r10, .r11, .r12, .r13, .r14, .r15]

/-- The registers that are restored, in the order in which they are popped. -/
def restoredRegisters : List Register :=
  [.r15, .r14, .r13, .r12, .r11, .r10, .r9, .r8,
    .rbp, .rdi, .rsi, .rdx, .rcx, .rbx, .rax]

/-- `isr_common` and `irq_common`, up to the call. -/
def saveCode : List Instruction :=
  [.swapgs] ++ savedRegisters.map .push ++ [.cld, .movRdiRsp]

/-- `isr_common` and `irq_common`, from the call on. -/
def restoreCode : List Instruction :=
  [.movRspRax] ++ restoredRegisters.map .pop ++
    [.swapgs, .addRsp 16, .iretq]

/-- `isr_common` and `irq_common`. -/
def common (function : CFunction) : List Instruction :=
  saveCode ++ [.call function] ++ restoreCode

/-- `ISR_NOERR`. -/
def isrNoerr (number : BitVec 8) : List Instruction :=
  [.cli, .pushByte 0, .pushByte number] ++ common .isrHandler

/-- `ISR_ERR`: the error code is pushed already. -/
def isrErr (number : BitVec 8) : List Instruction :=
  [.cli, .pushByte number] ++ common .isrHandler

/-- `IRQ`. -/
def irq (number : BitVec 8) : List Instruction :=
  [.cli, .pushByte 0, .pushByte number] ++ common .irqHandler

/-- The wrappers `isr0` to `isr31` and `irq0` to `irq15`. -/
def wrappers : List (List Instruction) :=
  [isrNoerr 0, isrNoerr 1, isrNoerr 2, isrNoerr 3,
    isrNoerr 4, isrNoerr 5, isrNoerr 6, isrNoerr 7,
    isrErr 8, isrNoerr 9, isrErr 10, isrErr 11,
    isrErr 12, isrErr 13, isrErr 14, isrNoerr 15,
    isrNoerr 16, isrErr 17, isrNoerr 18, isrNoerr 19,
    isrNoerr 20, isrErr 21, isrNoerr 22, isrNoerr 23,
    isrNoerr 24, isrNoerr 25, isrNoerr 26, isrNoerr 27,
    isrNoerr 28, isrNoerr 29, isrNoerr 30, isrNoerr 31,
    irq 32, irq 33, irq 34, irq 35, irq 36, irq 37, irq 38, irq 39,
    irq 40, irq 41, irq 42, irq 43, irq 44, irq 45, irq 46, irq 47]

/-- The vectors whose wrapper takes an error code from the stack. -/
def errVectors : List Nat := [8, 10, 11, 12, 13, 14, 17, 21]

/--
The vectors for which the processor pushes an error code that the wrapper does
not take: `isr29` and `isr30` are `ISR_NOERR`.
-/
def displacedVectors : List Nat := [29, 30]

theorem displacedVectors_numbers
    {vector : Nat} (displaced : vector ∈ displacedVectors) :
    vector < 48 ∧ vector ∉ errVectors := by
  revert vector
  decide

/-- The vectors for which the processor pushes an error code. -/
def processorErrorVectors : List Nat := errVectors ++ displacedVectors

/-- The function that the wrapper of a vector calls. -/
def functionOf (vector : Nat) : CFunction :=
  if vector < 32 then .isrHandler else .irqHandler

/-! ## The structure on the stack -/

/-- `struct regs`. -/
structure Regs where
  r15 : BitVec 64
  r14 : BitVec 64
  r13 : BitVec 64
  r12 : BitVec 64
  r11 : BitVec 64
  r10 : BitVec 64
  r9 : BitVec 64
  r8 : BitVec 64
  rbp : BitVec 64
  rdi : BitVec 64
  rsi : BitVec 64
  rdx : BitVec 64
  rcx : BitVec 64
  rbx : BitVec 64
  rax : BitVec 64
  intNo : BitVec 64
  errCode : BitVec 64
  rip : BitVec 64
  cs : BitVec 64
  rflags : BitVec 64
  rsp : BitVec 64
  ss : BitVec 64
  deriving DecidableEq

namespace Regs

/-- The fields that hold general registers. -/
def general (regs : Regs) : Register → BitVec 64
  | .rax => regs.rax
  | .rbx => regs.rbx
  | .rcx => regs.rcx
  | .rdx => regs.rdx
  | .rsi => regs.rsi
  | .rdi => regs.rdi
  | .rbp => regs.rbp
  | .r8 => regs.r8
  | .r9 => regs.r9
  | .r10 => regs.r10
  | .r11 => regs.r11
  | .r12 => regs.r12
  | .r13 => regs.r13
  | .r14 => regs.r14
  | .r15 => regs.r15

/-- The fields behind them. -/
def special (regs : Regs) : List (BitVec 64) :=
  [regs.intNo, regs.errCode, regs.rip, regs.cs, regs.rflags, regs.rsp,
    regs.ss]

/-- `sizeof(struct regs)`. -/
def size : Nat := 176

end Regs

/-- The structure at an address, field by field as C lays it out. -/
def regsAt (memory : Memory) (address : Nat) : Regs where
  r15 := wordAt memory address
  r14 := wordAt memory (address + 8)
  r13 := wordAt memory (address + 16)
  r12 := wordAt memory (address + 24)
  r11 := wordAt memory (address + 32)
  r10 := wordAt memory (address + 40)
  r9 := wordAt memory (address + 48)
  r8 := wordAt memory (address + 56)
  rbp := wordAt memory (address + 64)
  rdi := wordAt memory (address + 72)
  rsi := wordAt memory (address + 80)
  rdx := wordAt memory (address + 88)
  rcx := wordAt memory (address + 96)
  rbx := wordAt memory (address + 104)
  rax := wordAt memory (address + 112)
  intNo := wordAt memory (address + 120)
  errCode := wordAt memory (address + 128)
  rip := wordAt memory (address + 136)
  cs := wordAt memory (address + 144)
  rflags := wordAt memory (address + 152)
  rsp := wordAt memory (address + 160)
  ss := wordAt memory (address + 168)

/-- The fields are words in a row, in the order in which they are popped. -/
theorem wordsAt_regsAt (memory : Memory) (address : Nat) :
    WordsAt memory address
      (restoredRegisters.map (regsAt memory address).general ++
        (regsAt memory address).special) := by
  simp [restoredRegisters, Regs.general, Regs.special, regsAt, Nat.add_assoc]

/-- Words in a row are the fields. -/
theorem regsAt_of_wordsAt
    {memory : Memory} {address : Nat} {regs : Regs}
    (stand : WordsAt memory address
      (restoredRegisters.map regs.general ++ regs.special)) :
    regsAt memory address = regs := by
  simp only [restoredRegisters, List.map_cons, List.map_nil, List.cons_append,
    List.nil_append, Regs.special, wordsAt_cons, Nat.add_assoc,
    Nat.reduceAdd, Regs.general] at stand
  cases regs
  simp_all [regsAt]

/-! ## Sequences of pushes and pops -/

section

variable (callee : CFunction → Cpu World → Cpu World)

theorem execAll_append (cpu : Cpu World) (front back : List Instruction) :
    execAll callee cpu (front ++ back) =
      execAll callee (execAll callee cpu front) back :=
  List.foldl_append

theorem execAll_cons (cpu : Cpu World) (first : Instruction)
    (rest : List Instruction) :
    execAll callee cpu (first :: rest) =
      execAll callee (exec callee cpu first) rest :=
  rfl

theorem execAll_pushByte (cpu : Cpu World) (bytes : List (BitVec 8)) :
    execAll callee cpu (bytes.map .pushByte) =
      cpu.onStack fun stack =>
        (bytes.map (BitVec.signExtend 64)).foldl Machine.pushWord stack := by
  induction bytes generalizing cpu with
  | nil => rfl
  | cons byte bytes inductionHypothesis =>
      rw [List.map_cons, execAll_cons, inductionHypothesis]
      rfl

theorem execAll_push (cpu : Cpu World) (list : List Register) :
    execAll callee cpu (list.map .push) =
      cpu.onStack fun stack => list.foldl Machine.push stack := by
  induction list generalizing cpu with
  | nil => rfl
  | cons register list inductionHypothesis =>
      rw [List.map_cons, execAll_cons, inductionHypothesis]
      rfl

theorem execAll_pop (cpu : Cpu World) (list : List Register) :
    execAll callee cpu (list.map .pop) =
      cpu.onStack fun stack => list.foldl Machine.pop stack := by
  induction list generalizing cpu with
  | nil => rfl
  | cons register list inductionHypothesis =>
      rw [List.map_cons, execAll_cons, inductionHypothesis]
      rfl

end

/-! ## Entering -/

/-- The bytes that the wrapper of a vector pushes. -/
def stubBytes (vector : Nat) : List (BitVec 8) :=
  if vector ∈ errVectors then [BitVec.ofNat 8 vector]
  else [0, BitVec.ofNat 8 vector]

/-- The wrappers differ in the bytes they push and the function they call. -/
theorem wrappers_eq :
    wrappers = (List.range 48).map fun vector =>
      [.cli] ++ (stubBytes vector).map .pushByte ++
        common (functionOf vector) := by
  rfl

theorem wrappers_lookup {vector : Nat} (handled : vector < 48) :
    wrappers[vector]? =
      some ([.cli] ++ (stubBytes vector).map .pushByte ++
        common (functionOf vector)) := by
  rw [wrappers_eq, List.getElem?_map, List.getElem?_range handled]
  rfl

/-- Where the structure of an interrupt lies on the stack. -/
def frameAddress (rsp : BitVec 64) : Nat :=
  (alignedRsp rsp).toNat - Regs.size

/-- The interrupted state as a structure. -/
def interruptedRegs (cpu : Cpu World) (vector : Nat)
    (errCode : BitVec 64) : Regs where
  r15 := cpu.registers .r15
  r14 := cpu.registers .r14
  r13 := cpu.registers .r13
  r12 := cpu.registers .r12
  r11 := cpu.registers .r11
  r10 := cpu.registers .r10
  r9 := cpu.registers .r9
  r8 := cpu.registers .r8
  rbp := cpu.registers .rbp
  rdi := cpu.registers .rdi
  rsi := cpu.registers .rsi
  rdx := cpu.registers .rdx
  rcx := cpu.registers .rcx
  rbx := cpu.registers .rbx
  rax := cpu.registers .rax
  intNo := BitVec.ofNat 64 vector
  errCode := errCode
  rip := cpu.rip
  cs := cpu.cs.setWidth 64
  rflags := cpu.rflags
  rsp := cpu.rsp
  ss := cpu.ss.setWidth 64

/--
The structure that is on the stack when an error code is pushed and the wrapper
does not take it: the fields from `rip` on hold the word below their own, and
`ss` is left above the structure.
-/
def displacedRegs (cpu : Cpu World) (vector : Nat)
    (code : BitVec 64) : Regs :=
  { interruptedRegs cpu vector 0 with
    rip := code
    cs := cpu.rip
    rflags := cpu.cs.setWidth 64
    rsp := cpu.rflags
    ss := cpu.rsp }

theorem alignedRsp_toNat (rsp : BitVec 64) :
    (alignedRsp rsp).toNat = rsp.toNat / 16 * 16 := by
  have small := rsp.isLt
  have ones : 0xF#64 = (BitVec.allOnes 4).setWidth 64 := by decide
  have cleared : rsp &&& ~~~0xF#64 = rsp >>> 4 <<< 4 := by
    rw [ones]
    ext i inside
    simp only [BitVec.getElem_and, BitVec.getElem_not, BitVec.getElem_setWidth,
      BitVec.getLsbD_allOnes, BitVec.getElem_shiftLeft]
    by_cases low : i < 4
    · simp [low]
    · have back : 4 + (i - 4) = i := by omega
      simp [low, back, BitVec.getLsbD_eq_getElem inside]
  rw [alignedRsp, cleared, BitVec.toNat_shiftLeft, BitVec.toNat_ushiftRight,
    Nat.shiftLeft_eq, Nat.shiftRight_eq_div_pow]
  omega

/-- What the C function of a wrapper is called with. -/
structure Called (before called : Cpu World) (address : Nat)
    (regs : Regs) : Prop where
  rdi : called.registers .rdi = called.rsp
  rsp : called.rsp.toNat = address
  regs : regsAt called.memory address = regs
  rest : ∀ a, a < address ∨ (alignedRsp before.rsp).toNat ≤ a →
    called.memory a = before.memory a
  disabled : called.interruptsEnabled = false
  forwards : called.rflags &&& directionFlag = 0
  gsBase : called.gsBase = before.kernelGsBase
  kernelGsBase : called.kernelGsBase = before.gsBase
  world : called.world = before.world

/-- All words that are on the stack when the C function is called. -/
def savedWords (cpu : Cpu World) (vector : Nat)
    (error : Option (BitVec 64)) : List (BitVec 64) :=
  interruptFrame cpu error ++
    (stubBytes vector).map (BitVec.signExtend 64) ++
    savedRegisters.map cpu.registers

/-- The numbers of the vectors are not negative as signed bytes. -/
theorem signExtend_vector {vector : Nat} (handled : vector < 48) :
    (BitVec.ofNat 8 vector).signExtend 64 = BitVec.ofNat 64 vector := by
  have positive : (BitVec.ofNat 8 vector).msb = false := by
    rw [BitVec.msb_eq_decide, BitVec.toNat_ofNat]
    apply decide_eq_false
    omega
  rw [BitVec.signExtend_eq_setWidth_of_msb_false positive]
  apply BitVec.eq_of_toNat_eq
  rw [BitVec.toNat_setWidth, BitVec.toNat_ofNat, BitVec.toNat_ofNat]
  omega

/--
From the top of the stack down, the words are a structure and what is above it.
-/
def Stacked (cpu : Cpu World) (vector : Nat) (error : Option (BitVec 64))
    (regs : Regs) (beyond : List (BitVec 64)) : Prop :=
  (savedWords cpu vector error).reverse =
    restoredRegisters.map regs.general ++ regs.special ++ beyond

/-- With the error code it is made for, a wrapper completes the structure. -/
theorem stacked_interruptedRegs
    (cpu : Cpu World) {vector : Nat} {error : Option (BitVec 64)}
    (handled : vector < 48)
    (errors : error.isSome = true ↔ vector ∈ errVectors) :
    Stacked cpu vector error
      (interruptedRegs cpu vector (error.getD 0)) [] := by
  have number := signExtend_vector handled
  cases error with
  | none =>
      have taken : vector ∉ errVectors :=
        fun member => Bool.noConfusion (errors.mpr member)
      simp only [Stacked, savedWords, stubBytes, if_neg taken, List.map_cons,
        number]
      rfl
  | some code =>
      have taken : vector ∈ errVectors := errors.mp rfl
      simp only [Stacked, savedWords, stubBytes, if_pos taken, List.map_cons,
        number]
      rfl

/-- With an error code it does not take, a wrapper pushes one word too many. -/
theorem stacked_displacedRegs
    (cpu : Cpu World) {vector : Nat} (handled : vector < 48)
    (unexpected : vector ∉ errVectors) (code : BitVec 64) :
    Stacked cpu vector (some code) (displacedRegs cpu vector code)
      [cpu.ss.setWidth 64] := by
  have number := signExtend_vector handled
  simp only [Stacked, savedWords, stubBytes, if_neg unexpected,
    List.map_cons, number]
  rfl

theorem Stacked.length
    {cpu : Cpu World} {vector : Nat} {error : Option (BitVec 64)}
    {regs : Regs} {beyond : List (BitVec 64)}
    (stacked : Stacked cpu vector error regs beyond) :
    8 * (savedWords cpu vector error).length =
      Regs.size + 8 * beyond.length := by
  rw [← List.length_reverse, stacked, List.length_append]
  show 8 * (22 + beyond.length) = 176 + 8 * beyond.length
  omega

section

variable
  (callee : CFunction → Cpu World → Cpu World) (gate : Gate)
  (error : Option (BitVec 64)) (cpu : Cpu World) (vector : Nat)

/-- The stack as the words of an interrupt are pushed on it. -/
def savedStack : Machine Register :=
  (savedWords cpu vector error).foldl Machine.pushWord
    { cpu.toMachine with rsp := alignedRsp cpu.rsp }

/-- The processor behind the pushes of a wrapper. -/
theorem execAll_stub :
    execAll callee (deliver gate error cpu)
        ([.cli] ++ (stubBytes vector).map .pushByte) =
      { deliver gate error cpu with
        toMachine :=
          (interruptFrame cpu error ++
              (stubBytes vector).map (BitVec.signExtend 64)).foldl
            Machine.pushWord { cpu.toMachine with rsp := alignedRsp cpu.rsp }
        rflags := (deliver gate error cpu).rflags &&& ~~~interruptFlag } := by
  rw [execAll_append, execAll_pushByte, List.foldl_append]
  rfl

theorem execAll_swapgs :
    execAll callee cpu [.swapgs] =
      { cpu with gsBase := cpu.kernelGsBase, kernelGsBase := cpu.gsBase } :=
  rfl

theorem execAll_cld_movRdiRsp :
    execAll callee cpu [.cld, .movRdiRsp] =
      { cpu with
        toMachine :=
          { cpu.toMachine with
            registers := Function.update cpu.registers .rdi cpu.rsp }
        rflags := cpu.rflags &&& ~~~directionFlag } :=
  rfl

/-- The code that saves the registers. -/
theorem execAll_saveCode :
    execAll callee cpu saveCode =
      { cpu with
        toMachine :=
          { savedRegisters.foldl Machine.push cpu.toMachine with
            registers :=
              Function.update
                (savedRegisters.foldl Machine.push cpu.toMachine).registers
                .rdi (savedRegisters.foldl Machine.push cpu.toMachine).rsp }
        rflags := cpu.rflags &&& ~~~directionFlag
        gsBase := cpu.kernelGsBase
        kernelGsBase := cpu.gsBase } := by
  rw [saveCode, execAll_append, execAll_append, execAll_swapgs, execAll_push,
    execAll_cld_movRdiRsp]
  simp only [Cpu.onStack]

/-- The processor when the C function is called. -/
def atCall : Cpu World where
  toMachine :=
    { savedStack error cpu vector with
      registers :=
        Function.update cpu.registers .rdi
          (savedStack error cpu vector).rsp }
  rip := gate.offset
  cs := gate.selector
  rflags :=
    (deliver gate error cpu).rflags &&& ~~~interruptFlag &&& ~~~directionFlag
  ss := cpu.ss
  gsBase := cpu.kernelGsBase
  kernelGsBase := cpu.gsBase
  world := cpu.world

theorem execAll_atCall
    (room : 8 * (savedWords cpu vector error).length ≤
      (alignedRsp cpu.rsp).toNat) :
    execAll callee (deliver gate error cpu)
        ([.cli] ++ (stubBytes vector).map .pushByte ++ saveCode) =
      atCall gate error cpu vector := by
  have front : 8 * (interruptFrame cpu error ++
      (stubBytes vector).map (BitVec.signExtend 64)).length ≤
        (alignedRsp cpu.rsp).toNat := by
    rw [savedWords, List.length_append] at room
    omega
  have keptFront := (Machine.pushed_foldl_pushWord
    { cpu.toMachine with rsp := alignedRsp cpu.rsp } _ front).registers
  have kept : (savedStack error cpu vector).registers = cpu.registers :=
    (Machine.pushed_foldl_pushWord _ _ room).registers
  have stack : savedRegisters.foldl Machine.push
      ((interruptFrame cpu error ++
          (stubBytes vector).map (BitVec.signExtend 64)).foldl
        Machine.pushWord { cpu.toMachine with rsp := alignedRsp cpu.rsp }) =
      savedStack error cpu vector := by
    rw [Machine.foldl_push_eq, keptFront, savedStack, savedWords,
      ← List.foldl_append]
  rw [execAll_append, execAll_stub, execAll_saveCode]
  dsimp only
  rw [stack, kept]
  rfl

/-- The C function of a wrapper is called with the structure on the stack. -/
theorem called_atCall
    {regs : Regs} {beyond : List (BitVec 64)} {address : Nat}
    (stacked : Stacked cpu vector error regs beyond)
    (top : address + (Regs.size + 8 * beyond.length) =
      (alignedRsp cpu.rsp).toNat) :
    Called cpu (atCall gate error cpu vector) address regs := by
  have length := stacked.length
  have pushed := Machine.pushed_foldl_pushWord
    { cpu.toMachine with rsp := alignedRsp cpu.rsp }
    (savedWords cpu vector error)
    (show _ ≤ (alignedRsp cpu.rsp).toNat by omega)
  have counted : (savedStack error cpu vector).rsp.toNat +
      8 * (savedWords cpu vector error).length =
        (alignedRsp cpu.rsp).toNat := pushed.rsp
  have found : (savedStack error cpu vector).rsp.toNat = address := by
    omega
  constructor
  · show Function.update cpu.registers .rdi
      (savedStack error cpu vector).rsp .rdi = _
    rw [Function.update_self]
    rfl
  · exact found
  · apply regsAt_of_wordsAt
    have stand := pushed.words
    rw [stacked, wordsAt_append] at stand
    rw [← found]
    exact stand.1
  · intro a outside
    rw [← found] at outside
    exact pushed.rest a outside
  · simp [atCall, Cpu.interruptsEnabled, interruptFlag, directionFlag]
  · show _ &&& ~~~directionFlag &&& directionFlag = 0
    rw [BitVec.and_assoc]
    simp
  · rfl
  · rfl
  · rfl

end

/-! ## Leaving -/

/--
The processor goes on with the state in a structure; memory and the world are
as the C function left them.
-/
def resume (cpu : Cpu World) (regs : Regs) : Cpu World where
  registers := regs.general
  rsp := regs.rsp
  memory := cpu.memory
  rip := regs.rip
  cs := regs.cs.setWidth 16
  rflags := regs.rflags
  ss := regs.ss.setWidth 16
  gsBase := cpu.kernelGsBase
  kernelGsBase := cpu.gsBase
  world := cpu.world

/-- Every general register is restored. -/
theorem mem_restoredRegisters (register : Register) :
    register ∈ restoredRegisters := by
  cases register <;> decide

/-- The last three instructions, with five words on the stack. -/
theorem execAll_iretq
    (callee : CFunction → Cpu World → Cpu World) (cpu : Cpu World)
    (regs : Regs) (stand : WordsAt cpu.memory cpu.rsp.toNat regs.special)
    (room : cpu.rsp.toNat + 16 < 2 ^ 64) :
    execAll callee cpu [.swapgs, .addRsp 16, .iretq] =
      { cpu with
        rsp := regs.rsp
        rip := regs.rip
        cs := regs.cs.setWidth 16
        rflags := regs.rflags
        ss := regs.ss.setWidth 16
        gsBase := cpu.kernelGsBase
        kernelGsBase := cpu.gsBase } := by
  have pointer : (cpu.rsp + 16).toNat = cpu.rsp.toNat + 16 := by
    rw [BitVec.toNat_add]
    exact Nat.mod_eq_of_lt (show cpu.rsp.toNat + 16 < 2 ^ 64 by omega)
  simp only [Regs.special, wordsAt_cons, Nat.add_assoc, Nat.reduceAdd]
    at stand
  simp only [execAll, List.foldl_cons, List.foldl_nil, exec, Cpu.onStack,
    Machine.drop, pointer, Nat.add_assoc, Nat.reduceAdd, Nat.reduceMul, stand]

/-- What a C function behind a wrapper does apart from its own work. -/
structure ReturnsRegs (callee : Cpu World → Cpu World) : Prop where
  rax : ∀ cpu, (callee cpu).registers .rax = cpu.registers .rdi
  gsBase : ∀ cpu, (callee cpu).gsBase = cpu.gsBase
  kernelGsBase : ∀ cpu, (callee cpu).kernelGsBase = cpu.kernelGsBase

/-- The code behind the call goes on with the structure that `rax` points to. -/
theorem execAll_restoreCode
    (callee : CFunction → Cpu World → Cpu World) (cpu : Cpu World)
    {address : Nat} (points : (cpu.registers .rax).toNat = address)
    (room : address + Regs.size < 2 ^ 64) :
    execAll callee cpu restoreCode =
      resume cpu (regsAt cpu.memory address) := by
  have stand := wordsAt_regsAt cpu.memory address
  rw [wordsAt_append] at stand
  simp only [Regs.size] at room
  have moved : execAll callee cpu [.movRspRax] =
      { cpu with rsp := cpu.registers .rax } := rfl
  have popped := Machine.foldl_pop_eq
    (regsAt cpu.memory address).general
    { cpu.toMachine with rsp := cpu.registers .rax } restoredRegisters
    (by
      show WordsAt cpu.memory (cpu.registers .rax).toNat _
      rw [points]
      exact stand.1)
    (by
      show (cpu.registers .rax).toNat + 8 * 15 < 2 ^ 64
      omega)
  simp only [mem_restoredRegisters, if_true] at popped
  have pointer : (cpu.registers .rax + BitVec.ofNat 64
      (8 * restoredRegisters.length)).toNat = address + 120 := by
    rw [BitVec.toNat_add, points]
    show (address + 120) % 2 ^ 64 = _
    omega
  rw [restoreCode, execAll_append, execAll_append, moved, execAll_pop]
  simp only [Cpu.onStack, popped]
  rw [execAll_iretq callee _ (regsAt cpu.memory address)]
  · rfl
  · show WordsAt cpu.memory (cpu.registers .rax + BitVec.ofNat 64
      (8 * restoredRegisters.length)).toNat _
    rw [pointer]
    exact stand.2
  · show (cpu.registers .rax + BitVec.ofNat 64
      (8 * restoredRegisters.length)).toNat + 16 < 2 ^ 64
    omega

/-! ## A whole interrupt -/

/-- An interrupt with a wrapper, as the processor delivers it. -/
structure Delivered (vector : Nat) (error : Option (BitVec 64)) : Prop where
  handled : vector < 48
  pushed : error.isSome = true ↔ vector ∈ processorErrorVectors

/-- An interrupt that the wrapper of its vector is made for. -/
structure Matching (vector : Nat) (error : Option (BitVec 64)) : Prop
    extends Delivered vector error where
  expected : vector ∉ displacedVectors

theorem Matching.errors
    {vector : Nat} {error : Option (BitVec 64)}
    (matching : Matching vector error) :
    error.isSome = true ↔ vector ∈ errVectors := by
  rw [matching.pushed, processorErrorVectors, List.mem_append]
  simp only [matching.expected, or_false]

/-- The processor after an interrupt, from what the C function has left. -/
def afterInterrupt (before returned : Cpu World) (address : Nat) : Cpu World :=
  { resume returned (regsAt returned.memory address) with
    gsBase := before.gsBase
    kernelGsBase := before.kernelGsBase }

/-- A wrapper calls its function and goes on with what is in the structure. -/
theorem execAll_wrapper_of_stacked
    (callee : CFunction → Cpu World → Cpu World)
    (returns : ∀ function, ReturnsRegs (callee function))
    (gate : Gate) (cpu : Cpu World) {vector : Nat}
    {error : Option (BitVec 64)} {regs : Regs} {beyond : List (BitVec 64)}
    {address : Nat} (stacked : Stacked cpu vector error regs beyond)
    (top : address + (Regs.size + 8 * beyond.length) =
      (alignedRsp cpu.rsp).toNat) :
    execAll callee (deliver gate error cpu)
        ([.cli] ++ (stubBytes vector).map .pushByte ++
          common (functionOf vector)) =
      afterInterrupt cpu
        (callee (functionOf vector) (atCall gate error cpu vector))
        address := by
  have called := called_atCall gate error cpu vector stacked top
  have length := stacked.length
  have below := alignedRsp_toNat cpu.rsp
  have small := cpu.rsp.isLt
  have entered := execAll_atCall callee gate error cpu vector (by omega)
  have returned := returns (functionOf vector)
  have points : ((callee (functionOf vector)
      (atCall gate error cpu vector)).registers .rax).toNat = address := by
    rw [returned.rax, called.rdi, called.rsp]
  rw [common, ← List.append_assoc, ← List.append_assoc, execAll_append,
    execAll_append, entered]
  show execAll callee (callee (functionOf vector)
    (atCall gate error cpu vector)) restoreCode = _
  have inside : address + Regs.size < 2 ^ 64 := by
    omega
  rw [execAll_restoreCode callee _ points inside]
  simp only [afterInterrupt, resume, returned.gsBase, returned.kernelGsBase,
    called.gsBase, called.kernelGsBase]

/-- The room that an interrupt needs is there. -/
theorem frameAddress_top {rsp : BitVec 64} (room : Regs.size + 16 ≤ rsp.toNat) :
    frameAddress rsp + Regs.size = (alignedRsp rsp).toNat ∧
      frameAddress rsp % 16 = 0 ∧ 16 ≤ frameAddress rsp := by
  have aligned := alignedRsp_toNat rsp
  simp only [frameAddress, Regs.size] at room ⊢
  omega

/-- An interrupt that its wrapper is made for. -/
theorem execAll_wrapper_eq
    (callee : CFunction → Cpu World → Cpu World)
    (returns : ∀ function, ReturnsRegs (callee function))
    (gate : Gate) (cpu : Cpu World) {vector : Nat}
    {error : Option (BitVec 64)} (matching : Matching vector error)
    (room : Regs.size + 16 ≤ cpu.rsp.toNat) :
    Called cpu (atCall gate error cpu vector) (frameAddress cpu.rsp)
        (interruptedRegs cpu vector (error.getD 0)) ∧
      execAll callee (deliver gate error cpu)
          ([.cli] ++ (stubBytes vector).map .pushByte ++
            common (functionOf vector)) =
        afterInterrupt cpu
          (callee (functionOf vector) (atCall gate error cpu vector))
          (frameAddress cpu.rsp) := by
  have stacked := stacked_interruptedRegs cpu matching.handled matching.errors
  have top := (frameAddress_top room).1
  exact ⟨called_atCall gate error cpu vector stacked top,
    execAll_wrapper_of_stacked callee returns gate cpu stacked top⟩

/-- An interrupt with an error code that its wrapper does not take. -/
theorem execAll_wrapper_displaced
    (callee : CFunction → Cpu World → Cpu World)
    (returns : ∀ function, ReturnsRegs (callee function))
    (gate : Gate) (cpu : Cpu World) {vector : Nat} (code : BitVec 64)
    (displaced : vector ∈ displacedVectors)
    (room : Regs.size + 16 ≤ cpu.rsp.toNat) :
    Called cpu (atCall gate (some code) cpu vector)
        (frameAddress cpu.rsp - 8) (displacedRegs cpu vector code) ∧
      execAll callee (deliver gate (some code) cpu)
          ([.cli] ++ (stubBytes vector).map .pushByte ++
            common (functionOf vector)) =
        afterInterrupt cpu
          (callee (functionOf vector) (atCall gate (some code) cpu vector))
          (frameAddress cpu.rsp - 8) := by
  obtain ⟨handled, unexpected⟩ := displacedVectors_numbers displaced
  have stacked := stacked_displacedRegs cpu handled unexpected code
  obtain ⟨top, _, positive⟩ := frameAddress_top room
  have below : frameAddress cpu.rsp - 8 +
      (Regs.size + 8 * [cpu.ss.setWidth 64].length) =
        (alignedRsp cpu.rsp).toNat := by
    rw [List.length_singleton]
    omega
  exact ⟨called_atCall gate (some code) cpu vector stacked below,
    execAll_wrapper_of_stacked callee returns gate cpu stacked below⟩

/-- A C function that does nothing but return its argument. -/
def returnArgument (cpu : Cpu World) : Cpu World :=
  cpu.onStack fun stack =>
    { stack with
      registers :=
        Function.update stack.registers .rax (stack.registers .rdi) }

theorem returnsRegs_returnArgument :
    ReturnsRegs (returnArgument : Cpu World → Cpu World) where
  rax cpu := by
    show Function.update cpu.registers .rax (cpu.registers .rdi) .rax = _
    rw [Function.update_self]
  gsBase _ := rfl
  kernelGsBase _ := rfl

/-- A processor with a stack below 0x8000 and zeros elsewhere. -/
def quietCpu : Cpu Unit where
  registers := fun _ => 0
  rsp := 0x8000
  memory := fun _ => 0
  rip := 0x100000
  cs := 0x08
  rflags := 0x202
  ss := 0x10
  gsBase := 0
  kernelGsBase := 0
  world := ()

/-- Going on with the interrupted state, nothing but memory has changed. -/
theorem resume_interruptedRegs
    (cpu returned : Cpu World) (vector : Nat) (errCode : BitVec 64) :
    resume returned (interruptedRegs cpu vector errCode) =
      { cpu with
        memory := returned.memory
        gsBase := returned.kernelGsBase
        kernelGsBase := returned.gsBase
        world := returned.world } := by
  have registers : (interruptedRegs cpu vector errCode).general =
      cpu.registers := by
    funext register
    cases register <;> rfl
  have cs : (cpu.cs.setWidth 64).setWidth 16 = cpu.cs := by
    rw [BitVec.setWidth_setWidth_of_le _ (by decide), BitVec.setWidth_eq]
  have ss : (cpu.ss.setWidth 64).setWidth 16 = cpu.ss := by
    rw [BitVec.setWidth_setWidth_of_le _ (by decide), BitVec.setWidth_eq]
  simp only [resume, registers]
  simp only [interruptedRegs, cs, ss]

/--
A C function that leaves the structure as it was is not noticed by the
interrupted code, apart from what it does to memory and the world.
-/
theorem afterInterrupt_of_kept
    {cpu returned : Cpu World} {vector : Nat} {errCode : BitVec 64}
    {address : Nat} (kept : regsAt returned.memory address =
      interruptedRegs cpu vector errCode) :
    afterInterrupt cpu returned address =
      { cpu with memory := returned.memory, world := returned.world } := by
  rw [afterInterrupt, kept, resume_interruptedRegs]

/-- The state to return to that the error code and the words behind it give. -/
def displacedReturn (cpu : Cpu World) (code : BitVec 64) : Cpu World :=
  { cpu with
    rip := code
    cs := cpu.rip.setWidth 16
    rflags := cpu.cs.setWidth 64
    rsp := cpu.rflags
    ss := cpu.rsp.setWidth 16 }

/--
Where the wrapper does not take the error code, a C function that leaves the
structure as it was makes `iretq` return to the error code.
-/
theorem afterInterrupt_of_displaced
    {cpu returned : Cpu World} {vector : Nat} {code : BitVec 64}
    {address : Nat} (kept : regsAt returned.memory address =
      displacedRegs cpu vector code) :
    afterInterrupt cpu returned address =
      { displacedReturn cpu code with
        memory := returned.memory
        world := returned.world } := by
  have registers : (displacedRegs cpu vector code).general =
      cpu.registers := by
    funext register
    cases register <;> rfl
  simp only [afterInterrupt, kept, resume, registers]
  rfl

end Kernull.InterruptEntry
