import Kernull.BootPageTables
import Kernull.BootVga

/-!
# The processor of the boot code and its stack

The registers that `arch/x86_64/boot/boot.asm` works with, and memory, which
holds its stack as well: `push` and `call` store below `stack_top`.  The first
four words stay there as the arguments of `kmain`; two more words at most are
on the stack at a time.
-/

namespace Kernull.BootStack

open Kernull.BootPageTables (processorWalk)
open Kernull.BootVga (CursorPos)
open Kernull.Library.ByteMemory
open Kernull.Library.Registers
open Kernull.Library.StoreTrace

/-! ## The processor -/

/-- What `cpuid` returns for a leaf. -/
structure CpuidResult where
  eax : BitVec 32
  ebx : BitVec 32
  ecx : BitVec 32
  edx : BitVec 32

/-- Whether the ID bit of `eflags` can be changed, and the leaves of `cpuid`. -/
structure Processor where
  idChanges : Bool
  cpuid : BitVec 32 → CpuidResult

/--
Registers, memory, and the variables of `vga.asm`.  That arithmetic sets flags
in `eflags` is left out, and so are the segments.
-/
structure Cpu where
  eax : BitVec 32
  ebx : BitVec 32
  ecx : BitVec 32
  edx : BitVec 32
  esi : BitVec 32
  edi : BitVec 32
  esp : BitVec 32
  eflags : BitVec 32
  cr0 : BitVec 32
  cr3 : BitVec 32
  cr4 : BitVec 32
  efer : BitVec 64
  memory : Memory
  color : BitVec 8
  cursorPos : CursorPos

/-- The calls of the boot code. -/
inductive CallSite where
  | multibootCheck
  | cpuidCheck
  | longSupportedCheck
  | noMultiboot
  | noCpuid
  | noLongSupported
  | setupPageTables
  | enablePaging
  | kmain

/--
The addresses of the strings, of `initial_page_tables` and of `stack_top`, and
those behind the calls.
-/
structure Image where
  errPrefix : BitVec 32
  noMultibootErr : BitVec 32
  noCpuidErr : BitVec 32
  noLongSupportedErr : BitVec 32
  initialPageTables : BitVec 32
  stackTop : BitVec 32
  behind : CallSite → BitVec 32

/-- The bytes of the stack that the boot code uses: six words. -/
def Image.Stack (image : Image) (place : Nat) : Prop :=
  image.stackTop.toNat ≤ place + 24 ∧ place < image.stackTop.toNat

/-- The ID bit of `eflags`. -/
def idBit : BitVec 32 := 1#32 <<< 21

namespace Cpu

/-- `push`. -/
def push (cpu : Cpu) (word : BitVec 32) : Cpu :=
  { cpu with
    esp := cpu.esp - 4
    memory := writeBytes cpu.memory (cpu.esp - 4).toNat 4 word.toNat }

/-- The word on top of the stack. -/
def top (cpu : Cpu) : BitVec 32 :=
  BitVec.ofNat 32 (readBytes cpu.memory cpu.esp.toNat 4)

/-- The stack behind its top. -/
def dropTop (cpu : Cpu) : Cpu :=
  { cpu with esp := cpu.esp + 4 }

/-- `call`, up to the first instruction behind it. -/
def call (cpu : Cpu) (image : Image) (site : CallSite) : Cpu :=
  cpu.push (image.behind site)

/-- `ret` drops the word that its `call` has pushed. -/
def ret (cpu : Cpu) : Cpu :=
  cpu.dropTop

/-- `popfd`. -/
def popfd (processor : Processor) (cpu : Cpu) : Cpu :=
  { cpu.dropTop with
    eflags :=
      if processor.idChanges then cpu.top
      else (cpu.top &&& ~~~idBit) ||| (cpu.eflags &&& idBit) }

/-- `cpuid`. -/
def cpuid (processor : Processor) (cpu : Cpu) : Cpu :=
  let result := processor.cpuid cpu.eax
  { cpu with
    eax := result.eax
    ebx := result.ebx
    ecx := result.ecx
    edx := result.edx }

/--
`mov cr0, value`: long mode becomes active (LMA) when paging is switched on and
long mode is enabled (LME).
-/
def loadCr0 (cpu : Cpu) (value : BitVec 32) : Cpu :=
  { cpu with
    cr0 := value
    efer :=
      if value.getLsbD 31 && !cpu.cr0.getLsbD 31 && cpu.efer.getLsbD 8 then
        cpu.efer ||| 1#64 <<< 10
      else
        cpu.efer }

/-- `pop` in long mode, through the page tables; `none` is a page fault. -/
def popLong (cpu : Cpu) : Option (BitVec 64 × Cpu) := do
  let place ← processorWalk cpu.memory cpu.cr3.toNat cpu.esp.toNat
  some (BitVec.ofNat 64 (readBytes cpu.memory place 8),
    { cpu with esp := cpu.esp + 8 })

/-- `push` in long mode, through the page tables. -/
def pushLong (cpu : Cpu) (word : BitVec 64) : Option Cpu := do
  let esp := cpu.esp - 8
  let place ← processorWalk cpu.memory cpu.cr3.toNat esp.toNat
  some
    { cpu with
      esp := esp
      memory := writeBytes cpu.memory place 8 word.toNat }

/-- The registers and variables that `vga.asm` works with. -/
def printing (cpu : Cpu) : BootVga.Machine where
  registers :=
    { eax := Register.ofValue cpu.eax
      ebx := cpu.ebx
      ecx := Register.ofValue cpu.ecx
      edx := Register.ofValue cpu.edx
      esi := cpu.esi }
  traced := untouched cpu.memory
  color := cpu.color
  cursorPos := cpu.cursorPos

/-! ## One word more or less -/

/-- What has been pushed is on top. -/
@[simp]
theorem top_push (cpu : Cpu) (word : BitVec 32) :
    (cpu.push word).top = word := by
  have bound := word.isLt
  have whole : 256 ^ 4 = 2 ^ 32 := by decide
  rw [top, push]
  simp only [readBytes_writeBytes_same, whole]
  apply BitVec.eq_of_toNat_eq
  rw [BitVec.toNat_ofNat]
  omega

@[simp]
theorem push_eflags (cpu : Cpu) (word : BitVec 32) :
    (cpu.push word).eflags = cpu.eflags := rfl

@[simp]
theorem push_eax (cpu : Cpu) (word : BitVec 32) :
    (cpu.push word).eax = cpu.eax := rfl

@[simp]
theorem push_edx (cpu : Cpu) (word : BitVec 32) :
    (cpu.push word).edx = cpu.edx := rfl

@[simp]
theorem push_esi (cpu : Cpu) (word : BitVec 32) :
    (cpu.push word).esi = cpu.esi := rfl

@[simp]
theorem dropTop_edx (cpu : Cpu) : cpu.dropTop.edx = cpu.edx := rfl

/-- A word that is dropped is still below the stack. -/
@[simp]
theorem dropTop_push (cpu : Cpu) (word : BitVec 32) :
    (cpu.push word).dropTop =
      { cpu with
        memory :=
          writeBytes cpu.memory (cpu.esp - 4).toNat 4 word.toNat } := by
  rw [dropTop, push]
  simp only [BitVec.sub_add_cancel]

end Cpu

/-- The flags, the control registers and the variables are the same. -/
structure SameControl (before after : Cpu) : Prop where
  eflags : after.eflags = before.eflags
  cr0 : after.cr0 = before.cr0
  cr3 : after.cr3 = before.cr3
  cr4 : after.cr4 = before.cr4
  efer : after.efer = before.efer
  color : after.color = before.color
  cursorPos : after.cursorPos = before.cursorPos

section

variable {before cpu : Cpu}

theorem SameControl.refl (cpu : Cpu) : SameControl cpu cpu :=
  ⟨rfl, rfl, rfl, rfl, rfl, rfl, rfl⟩

theorem SameControl.push (same : SameControl before cpu)
    (word : BitVec 32) : SameControl before (cpu.push word) :=
  ⟨same.eflags, same.cr0, same.cr3, same.cr4, same.efer, same.color,
    same.cursorPos⟩

theorem SameControl.dropTop (same : SameControl before cpu) :
    SameControl before cpu.dropTop :=
  ⟨same.eflags, same.cr0, same.cr3, same.cr4, same.efer, same.color,
    same.cursorPos⟩

end

/-! ## The stack of `_start` -/

/-- The stack of `_start` before the checks. -/
def Cpu.pushed (cpu : Cpu) (image : Image) : Cpu :=
  let cpu := { cpu with esp := image.stackTop }
  -- two zeros, to pop the others in 64-bit registers
  let cpu := cpu.push 0
  let cpu := cpu.push cpu.eax
  let cpu := cpu.push 0
  cpu.push cpu.ebx

/--
The two arguments of `kmain` and `more` words are on the stack, and outside of
it there is the given memory.
-/
structure OnStack (image : Image) (info magic : BitVec 32) (memory : Memory)
    (more : Nat) (cpu : Cpu) : Prop where
  room : 24 ≤ image.stackTop.toNat
  esp : cpu.esp.toNat + 16 + 4 * more = image.stackTop.toNat
  info : readBytes cpu.memory (image.stackTop.toNat - 16) 8 = info.toNat
  magic : readBytes cpu.memory (image.stackTop.toNat - 8) 8 = magic.toNat
  rest : ∀ place, ¬ image.Stack place → cpu.memory place = memory place

section

variable
  {image : Image} {info magic : BitVec 32} {memory : Memory} {more : Nat}
  {cpu other : Cpu}

theorem sameControl_pushed (cpu : Cpu) (image : Image) :
    SameControl cpu (cpu.pushed image) := by
  have start : SameControl cpu { cpu with esp := image.stackTop } :=
    ⟨rfl, rfl, rfl, rfl, rfl, rfl, rfl⟩
  exact (((start.push _).push _).push _).push _

/-- Only the stack pointer and memory matter. -/
theorem OnStack.congr (held : OnStack image info magic memory more cpu)
    (esp : other.esp = cpu.esp) (same : other.memory = cpu.memory) :
    OnStack image info magic memory more other := by
  constructor
  · exact held.room
  · rw [esp]
    exact held.esp
  · rw [same]
    exact held.info
  · rw [same]
    exact held.magic
  · rw [same]
    exact held.rest

theorem OnStack.push (held : OnStack image info magic memory more cpu)
    (few : more < 2) (word : BitVec 32) :
    OnStack image info magic memory (more + 1) (cpu.push word) := by
  obtain ⟨room, esp, infoHeld, magicHeld, rest⟩ := held
  have lower : (cpu.esp - 4).toNat + 4 = cpu.esp.toNat := by
    bv_omega
  constructor
  · exact room
  · show (cpu.esp - 4).toNat + 16 + 4 * (more + 1) = _
    omega
  · rw [← infoHeld]
    exact readBytes_writeBytes_of_disjoint _ _ (by omega)
  · rw [← magicHeld]
    exact readBytes_writeBytes_of_disjoint _ _ (by omega)
  · intro place outside
    rw [Image.Stack] at outside
    rw [← rest place outside]
    exact writeBytes_outside _ _ (by omega)

theorem OnStack.dropTop
    (held : OnStack image info magic memory (more + 1) cpu) :
    OnStack image info magic memory more cpu.dropTop := by
  obtain ⟨room, esp, infoHeld, magicHeld, rest⟩ := held
  have top := image.stackTop.isLt
  refine ⟨room, ?_, infoHeld, magicHeld, rest⟩
  show (cpu.esp + 4).toNat + 16 + 4 * more = _
  bv_omega

/-- Where the stack is not written, it holds what it held. -/
theorem OnStack.written (held : OnStack image info magic memory more cpu)
    (esp : other.esp = cpu.esp)
    (kept : ∀ place, image.Stack place →
      other.memory place = cpu.memory place) :
    OnStack image info magic other.memory more other := by
  obtain ⟨room, espHeld, infoHeld, magicHeld, -⟩ := held
  have word (place : Nat) (low : image.stackTop.toNat ≤ place + 16)
      (high : place + 8 ≤ image.stackTop.toNat) :
      readBytes other.memory place 8 = readBytes cpu.memory place 8 := by
    apply readBytes_congr
    intro offset bound
    apply kept
    rw [Image.Stack]
    omega
  constructor
  · exact room
  · rw [esp]
    exact espHeld
  · rw [word _ (by omega) (by omega)]
    exact infoHeld
  · rw [word _ (by omega) (by omega)]
    exact magicHeld
  · exact fun _ _ => rfl

/-- A word that is pushed and dropped leaves the stack as it was. -/
theorem OnStack.passed (held : OnStack image info magic memory more cpu)
    (few : more < 2) (word : BitVec 32) :
    OnStack image info magic memory more (cpu.push word).dropTop :=
  (held.push few word).dropTop

/-- Two words are read as one, the second of them the upper half. -/
theorem readBytes_pair
    {memory : Memory} {place : Nat} {low : BitVec 32}
    (lowHeld : readBytes memory place 4 = low.toNat)
    (highHeld : readBytes memory (place + 4) 4 = 0) :
    readBytes memory place 8 = low.toNat := by
  have joined := readBytes_add memory place 4 4
  rw [lowHeld, highHeld, Nat.mul_zero, Nat.add_zero] at joined
  exact joined

/-- A word that is pushed, and the words that have been pushed before. -/
theorem push_memory {place : Nat} (cpu : Cpu) (word : BitVec 32)
    (esp : cpu.esp.toNat = place + 4) :
    (cpu.push word).esp.toNat = place ∧
      (cpu.push word).memory =
        writeBytes cpu.memory place 4 word.toNat := by
  have lower : (cpu.esp - 4).toNat = place := by
    bv_omega
  constructor
  · exact lower
  · rw [Cpu.push, lower]

/-- The four words of `_start`. -/
theorem pushed_memory {base : Nat} (cpu : Cpu)
    (top : image.stackTop.toNat = base + 16) :
    (cpu.pushed image).esp.toNat = base ∧
      (cpu.pushed image).memory =
        writeBytes (writeBytes (writeBytes (writeBytes cpu.memory
          (base + 12) 4 0) (base + 8) 4 cpu.eax.toNat) (base + 4) 4 0)
          base 4 cpu.ebx.toNat := by
  let start : Cpu := { cpu with esp := image.stackTop }
  obtain ⟨esp₁, memory₁⟩ := push_memory start 0
    (show start.esp.toNat = base + 12 + 4 from top)
  obtain ⟨esp₂, memory₂⟩ := push_memory (start.push 0) cpu.eax
    (show (start.push 0).esp.toNat = base + 8 + 4 from esp₁)
  obtain ⟨esp₃, memory₃⟩ := push_memory ((start.push 0).push cpu.eax) 0
    (show ((start.push 0).push cpu.eax).esp.toNat = base + 4 + 4 from esp₂)
  obtain ⟨esp₄, memory₄⟩ :=
    push_memory (((start.push 0).push cpu.eax).push 0) cpu.ebx
      (show (((start.push 0).push cpu.eax).push 0).esp.toNat = base + 4
        from esp₃)
  refine ⟨esp₄, ?_⟩
  change ((((start.push 0).push cpu.eax).push 0).push cpu.ebx).memory = _
  rw [memory₄, memory₃, memory₂, memory₁]
  rfl

/-- `_start` has its two arguments on the stack. -/
theorem onStack_pushed (room : 24 ≤ image.stackTop.toNat) :
    OnStack image cpu.ebx cpu.eax cpu.memory 0 (cpu.pushed image) := by
  obtain ⟨base, top⟩ : ∃ base, image.stackTop.toNat = base + 16 :=
    ⟨image.stackTop.toNat - 16, by omega⟩
  obtain ⟨esp, memory⟩ := pushed_memory cpu top
  have word (value : BitVec 32) : value.toNat % 256 ^ 4 = value.toNat :=
    Nat.mod_eq_of_lt value.isLt
  have lower : image.stackTop.toNat - 16 = base := by omega
  have upper : image.stackTop.toNat - 8 = base + 8 := by omega
  constructor
  · exact room
  · omega
  · rw [memory, lower]
    apply readBytes_pair
    · rw [readBytes_writeBytes_same, word]
    · rw [readBytes_writeBytes_of_disjoint _ _ (by omega),
        readBytes_writeBytes_same, Nat.zero_mod]
  · rw [memory, upper]
    apply readBytes_pair
    · rw [readBytes_writeBytes_of_disjoint _ _ (by omega),
        readBytes_writeBytes_of_disjoint _ _ (by omega),
        readBytes_writeBytes_same, word]
    · rw [Nat.add_assoc, readBytes_writeBytes_of_disjoint _ _ (by omega),
        readBytes_writeBytes_of_disjoint _ _ (by omega),
        readBytes_writeBytes_of_disjoint _ _ (by omega),
        readBytes_writeBytes_same, Nat.zero_mod]
  · intro place outside
    rw [Image.Stack] at outside
    rw [memory, writeBytes_outside _ _ (by omega),
      writeBytes_outside _ _ (by omega), writeBytes_outside _ _ (by omega),
      writeBytes_outside _ _ (by omega)]

end

@[simp]
theorem pushed_eax (cpu : Cpu) (image : Image) :
    (cpu.pushed image).eax = cpu.eax := rfl

@[simp]
theorem pushed_edx (cpu : Cpu) (image : Image) :
    (cpu.pushed image).edx = cpu.edx := rfl

-- chains of pushes are not unfolded any more: each copies the whole record
attribute [irreducible] Cpu.push Cpu.dropTop Cpu.pushed

end Kernull.BootStack
