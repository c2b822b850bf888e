import Kernull.BootMessages
import Kernull.BootStack
import Kernull.ConsoleOutput
import Mathlib.Data.Finset.Card

/-!
# From the boot loader to `kmain`

`_start` of `arch/x86_64/boot/boot.asm` with its three checks, the switch to
long mode and `long_mode_start`.  The first check that fails decides on the
message, and nothing of the switch has been done then; otherwise `kmain` gets
what the boot loader has left in `ebx` and `eax`, through the boot stack.
-/

namespace Kernull.BootStart

open Kernull.BootMessages
open Kernull.BootPageTables (FilledTables ZeroedTables fillEntries_unwritten
  filledMemory filledTables processorWalk processorWalk_filled)
open Kernull.BootStack
open Kernull.BootVga (CursorPos StandsAt entryStores vgaHeight vgaWidth)
open Kernull.BootVga.Machine (protectedVgaPrint_eq strlenLoop strlen_eq
  writeLoop writeLoop_adds writeLoop_last writeLoop_next writeRound_adds
  writeRound_character)
open Kernull.ConsoleOutput (literal)
open Kernull.Library.ByteMemory
open Kernull.Library.Registers
open Kernull.Library.StoreTrace

/-! ## Errors -/

/-- `protected_vga_set_color`. -/
def protectedVgaSetColor (machine : BootVga.Machine) : BootVga.Machine :=
  let machine := machine.setDl (machine.registers.edx.low <<< 4)
  let machine := machine.setDl
    (machine.registers.edx.low ||| machine.registers.edx.high)
  { machine with color := machine.registers.edx.low }

/-- `mov esi, address`. -/
def setEsi (machine : BootVga.Machine) (address : BitVec 32) :
    BootVga.Machine :=
  { machine with registers.esi := address }

/--
`error`, up to `hlt`.  Its own stack is apart from memory, like that of
`vga.asm`.
-/
def error (image : Image) (machine : BootVga.Machine) :
    Option BootVga.Machine := do
  -- prefix with red [ERR]
  let machine := machine.setDl 0x0
  let machine := machine.setDh 0x4
  let machine := protectedVgaSetColor machine
  let saved := machine.registers.esi
  let machine := setEsi machine image.errPrefix
  let machine ← machine.protectedVgaPrint
  -- print the message
  let machine := machine.setDl 0x0
  let machine := machine.setDh 0xF
  let machine := protectedVgaSetColor machine
  let machine := setEsi machine saved
  machine.protectedVgaPrint

/-- A processor that has been halted, and what it has printed before. -/
structure Halted where
  cpu : Cpu
  printed : Option BootVga.Machine

/-- `mov esi, message` and `call error`. -/
def fail {α : Type} (image : Image) (cpu : Cpu) (site : CallSite)
    (message : BitVec 32) : Except Halted α :=
  let cpu := { cpu with esi := message }
  let cpu := cpu.call image site
  .error { cpu := cpu, printed := error image cpu.printing }

/-! ## The checks -/

/-- The magic number of Multiboot2 in `eax`. -/
def multiboot2Magic : BitVec 32 := 0x36D76289

/-- `multiboot_check`. -/
def multibootCheck (image : Image) (cpu : Cpu) : Except Halted Cpu :=
  if cpu.eax ≠ multiboot2Magic then
    fail image cpu .noMultiboot image.noMultibootErr
  else
    .ok cpu.ret

/-- `cpuid_check`. -/
def cpuidCheck (processor : Processor) (image : Image) (cpu : Cpu) :
    Except Halted Cpu :=
  -- pushfd, pop eax
  let cpu := cpu.push cpu.eflags
  let cpu : Cpu := { cpu.dropTop with eax := cpu.top }
  let cpu := { cpu with ecx := cpu.eax }
  let cpu := { cpu with eax := cpu.eax ^^^ idBit }
  let cpu := (cpu.push cpu.eax).popfd processor
  -- pushfd, pop eax
  let cpu := cpu.push cpu.eflags
  let cpu : Cpu := { cpu.dropTop with eax := cpu.top }
  let cpu := (cpu.push cpu.ecx).popfd processor
  let cpu : Cpu := { cpu with eax := cpu.eax ^^^ cpu.ecx }
  if cpu.eax = 0 then
    fail image cpu .noCpuid image.noCpuidErr
  else
    .ok cpu.ret

/-- `long_supported_check`. -/
def longSupportedCheck (processor : Processor) (image : Image) (cpu : Cpu) :
    Except Halted Cpu :=
  let cpu := { cpu with eax := 0x80000000 }
  let cpu := cpu.cpuid processor
  if cpu.eax < 0x80000001 then
    fail image cpu .noLongSupported image.noLongSupportedErr
  else
    let cpu := { cpu with eax := 0x80000001 }
    let cpu := cpu.cpuid processor
    if cpu.edx &&& 1#32 <<< 29 = 0 then
      fail image cpu .noLongSupported image.noLongSupportedErr
    else
      .ok cpu.ret

/-! ## Long mode -/

/-- `setup_page_tables`; it stays in its loop as long as there is no result. -/
def setupPageTables (image : Image) (cpu : Cpu) : Option Cpu := do
  let machine ← BootPageTables.setupPageTables image.initialPageTables
    { eax := cpu.eax, ebx := cpu.ebx, ecx := cpu.ecx, edx := cpu.edx,
      edi := cpu.edi, memory := cpu.memory }
  let cpu :=
    { cpu with
      eax := machine.eax
      ebx := machine.ebx
      ecx := machine.ecx
      edx := machine.edx
      edi := machine.edi
      memory := machine.memory }
  some cpu.ret

/-- `enable_paging`. -/
def enablePaging (image : Image) (cpu : Cpu) : Cpu :=
  let cpu := { cpu with eax := image.initialPageTables }
  let cpu := { cpu with cr3 := cpu.eax }
  let cpu := { cpu with eax := cpu.cr4 }
  let cpu := { cpu with eax := cpu.eax ||| 1#32 <<< 5 }
  let cpu := { cpu with cr4 := cpu.eax }
  let cpu := { cpu with ecx := 0xC0000080 }
  -- rdmsr
  let cpu :=
    { cpu with
      eax := cpu.efer.extractLsb' 0 32
      edx := cpu.efer.extractLsb' 32 32 }
  let cpu := { cpu with eax := cpu.eax ||| 1#32 <<< 8 }
  -- wrmsr
  let cpu := { cpu with efer := cpu.edx ++ cpu.eax }
  let cpu := { cpu with eax := cpu.cr0 }
  let cpu := { cpu with eax := cpu.eax ||| 1#32 <<< 31 }
  let cpu := cpu.loadCr0 cpu.eax
  cpu.ret

/-- A call of `kmain` with its arguments. -/
structure KmainCall where
  mbInfoAddr : BitVec 64
  mbMagic : BitVec 64
  cpu : Cpu

/-- `long_mode_start`, up to `kmain`. -/
def longModeStart (image : Image) (cpu : Cpu) : Option KmainCall := do
  let rdi ← cpu.popLong
  let rsi ← rdi.2.popLong
  let cpu ← rsi.2.pushLong ((image.behind .kmain).setWidth 64)
  some { mbInfoAddr := rdi.1, mbMagic := rsi.1, cpu := cpu }

/-- `_start` behind the checks. -/
def switch (image : Image) (cpu : Cpu) : Option KmainCall := do
  let cpu ← setupPageTables image (cpu.call image .setupPageTables)
  let cpu := enablePaging image (cpu.call image .enablePaging)
  longModeStart image cpu

/-- `_start`. -/
def start (processor : Processor) (image : Image) (cpu : Cpu) :
    Except Halted (Option KmainCall) := do
  let cpu := cpu.pushed image
  let cpu ← multibootCheck image (cpu.call image .multibootCheck)
  let cpu ← cpuidCheck processor image (cpu.call image .cpuidCheck)
  let cpu ← longSupportedCheck processor image
    (cpu.call image .longSupportedCheck)
  return switch image cpu

/-! ## What the checks decide -/

/-- The three checks. -/
inductive Check where
  | multiboot
  | cpuid
  | longSupported
deriving DecidableEq, Repr

/-- The address of the message of a check. -/
def Check.message (image : Image) : Check → BitVec 32
  | .multiboot => image.noMultibootErr
  | .cpuid => image.noCpuidErr
  | .longSupported => image.noLongSupportedErr

/-- The first check that fails. -/
def firstFailure (processor : Processor) (cpu : Cpu) : Option Check :=
  if cpu.eax ≠ multiboot2Magic then some .multiboot
  else if processor.idChanges = false then some .cpuid
  else if (processor.cpuid 0x80000000).eax < 0x80000001 then
    some .longSupported
  else if (processor.cpuid 0x80000001).edx.getLsbD 29 = false then
    some .longSupported
  else
    none

/-- What `edx` holds when a check has failed. -/
def failureEdx (processor : Processor) (cpu : Cpu) : Check → BitVec 32
  | .multiboot => cpu.edx
  | .cpuid => cpu.edx
  | .longSupported =>
      if (processor.cpuid 0x80000000).eax < 0x80000001 then
        (processor.cpuid 0x80000000).edx
      else
        (processor.cpuid 0x80000001).edx

/--
Nothing of the switch to long mode has been done, and nothing but the stack has
been written.
-/
structure Unswitched (image : Image) (before after : Cpu) : Prop where
  idFlag : after.eflags &&& idBit = before.eflags &&& idBit
  cr0 : after.cr0 = before.cr0
  cr3 : after.cr3 = before.cr3
  cr4 : after.cr4 = before.cr4
  efer : after.efer = before.efer
  memory : ∀ place, ¬ image.Stack place →
    after.memory place = before.memory place
  color : after.color = before.color
  cursorPos : after.cursorPos = before.cursorPos

/-- A bit that is flipped twice, or not at all. -/
theorem flip_flags (eflags : BitVec 32) :
    ((eflags ^^^ idBit) &&& ~~~idBit) ||| (eflags &&& idBit) = eflags := by
  ext i inside
  simp only [BitVec.getElem_or, BitVec.getElem_and, BitVec.getElem_not,
    BitVec.getElem_xor]
  cases eflags[i] <;> cases idBit[i] <;> rfl

theorem keep_flags (eflags : BitVec 32) :
    (eflags &&& ~~~idBit) ||| (eflags &&& idBit) = eflags := by
  ext i inside
  simp only [BitVec.getElem_or, BitVec.getElem_and, BitVec.getElem_not]
  cases eflags[i] <;> cases idBit[i] <;> rfl

/-- The flags are left below the stack pointer, where they were saved. -/
def flagsBelow (cpu : Cpu) : Cpu :=
  (cpu.push cpu.eflags).dropTop

/-- `cpuid_check` passes exactly when the bit can be flipped. -/
theorem cpuidCheck_eq (processor : Processor) (image : Image) (cpu : Cpu) :
    cpuidCheck processor image cpu =
      if processor.idChanges = false then
        fail image { flagsBelow cpu with eax := 0, ecx := cpu.eflags } .noCpuid
          image.noCpuidErr
      else
        .ok (Cpu.ret
          { flagsBelow cpu with eax := idBit, ecx := cpu.eflags }) := by
  cases changes : processor.idChanges with
  | true =>
      have flipped : (cpu.eflags ^^^ idBit) ^^^ cpu.eflags = idBit := by
        rw [BitVec.xor_comm cpu.eflags, BitVec.xor_assoc, BitVec.xor_self,
          BitVec.xor_zero]
      have set : ¬ idBit = 0 := by decide
      simp only [cpuidCheck, Cpu.popfd, Cpu.top_push, Cpu.dropTop_push,
        Cpu.push_eflags, changes, if_true, flipped, if_neg set, flagsBelow,
        writeBytes_overwrite]
      rfl
  | false =>
      simp only [cpuidCheck, Cpu.popfd, Cpu.top_push, Cpu.dropTop_push,
        Cpu.push_eflags, changes, Bool.false_eq_true, if_false, flip_flags,
        keep_flags, BitVec.xor_self, if_true, flagsBelow, writeBytes_overwrite]
      rfl

/-- One bit of a register is tested. -/
theorem test_bit_iff (register : BitVec 32) (bit : Nat) (small : bit < 32) :
    register &&& 1#32 <<< bit = 0 ↔ register.getLsbD bit = false := by
  constructor
  · intro zero
    have tested := congrArg (fun word => word.getLsbD bit) zero
    simpa [small] using tested
  · intro clear
    ext i inside
    by_cases same : i = bit
    · subst same
      rw [BitVec.getLsbD_eq_getElem inside] at clear
      simp [clear]
    · simp [BitVec.getElem_one]
      omega

/-- `eax` is set to a leaf and `cpuid` asked. -/
def queried (processor : Processor) (cpu : Cpu) (leaf : BitVec 32) : Cpu :=
  ({ cpu with eax := leaf }).cpuid processor

theorem longSupportedCheck_eq (processor : Processor) (image : Image)
    (cpu : Cpu) :
    longSupportedCheck processor image cpu =
      if (processor.cpuid 0x80000000).eax < 0x80000001 then
        fail image (queried processor cpu 0x80000000) .noLongSupported
          image.noLongSupportedErr
      else if (processor.cpuid 0x80000001).edx.getLsbD 29 = false then
        fail image (queried processor cpu 0x80000001) .noLongSupported
          image.noLongSupportedErr
      else
        .ok (queried processor cpu 0x80000001).ret := by
  have bit := test_bit_iff (processor.cpuid 0x80000001).edx 29 (by decide)
  simp only [← bit]
  rfl

/-- An error ends the checks. -/
@[simp]
theorem fail_bind {α β : Type} (image : Image) (cpu : Cpu) (site : CallSite)
    (message : BitVec 32) (next : α → Except Halted β) :
    (fail image cpu site message >>= next) =
      fail image cpu site message := rfl

/-- Otherwise they go on. -/
@[simp]
theorem ok_bind {α β : Type} (passed : α) (next : α → Except Halted β) :
    (Except.ok passed >>= next) = next passed := rfl

/-- The state that `cpuid_check` finds. -/
def identifying (image : Image) (cpu : Cpu) : Cpu :=
  Cpu.call (((cpu.pushed image).call image .multibootCheck).ret) image
    .cpuidCheck

/-- The state that `long_supported_check` finds. -/
def querying (image : Image) (cpu : Cpu) : Cpu :=
  Cpu.call
    (Cpu.ret
      { flagsBelow (identifying image cpu) with
        eax := idBit
        ecx := cpu.eflags })
    image .longSupportedCheck

/-- The state behind the checks. -/
def checked (processor : Processor) (image : Image) (cpu : Cpu) : Cpu :=
  (queried processor (querying image cpu) 0x80000001).ret

theorem sameControl_identifying (cpu : Cpu) (image : Image) :
    SameControl cpu (identifying image cpu) :=
  (((sameControl_pushed cpu image).push _).dropTop).push _

theorem sameControl_querying (cpu : Cpu) (image : Image) :
    SameControl cpu (querying image cpu) := by
  have below := ((sameControl_identifying cpu image).push
    (identifying image cpu).eflags).dropTop
  have loaded : SameControl cpu
      { flagsBelow (identifying image cpu) with
        eax := idBit
        ecx := cpu.eflags } :=
    ⟨below.eflags, below.cr0, below.cr3, below.cr4, below.efer, below.color,
      below.cursorPos⟩
  exact loaded.dropTop.push _

theorem sameControl_checked (processor : Processor) (image : Image)
    (cpu : Cpu) : SameControl cpu (checked processor image cpu) := by
  have same := sameControl_querying cpu image
  have asked : SameControl cpu
      (queried processor (querying image cpu) 0x80000001) :=
    ⟨same.eflags, same.cr0, same.cr3, same.cr4, same.efer, same.color,
      same.cursorPos⟩
  exact asked.dropTop

/-- `_start` is the three checks, and then the switch. -/
theorem start_eq (processor : Processor) (image : Image) (cpu : Cpu) :
    start processor image cpu =
      if cpu.eax ≠ multiboot2Magic then
        fail image ((cpu.pushed image).call image .multibootCheck)
          .noMultiboot image.noMultibootErr
      else if processor.idChanges = false then
        fail image
          { flagsBelow (identifying image cpu) with
            eax := 0
            ecx := cpu.eflags }
          .noCpuid image.noCpuidErr
      else if (processor.cpuid 0x80000000).eax < 0x80000001 then
        fail image (queried processor (querying image cpu) 0x80000000)
          .noLongSupported image.noLongSupportedErr
      else if (processor.cpuid 0x80000001).edx.getLsbD 29 = false then
        fail image (queried processor (querying image cpu) 0x80000001)
          .noLongSupported image.noLongSupportedErr
      else
        .ok (switch image (checked processor image cpu)) := by
  have whole : start processor image cpu =
      (multibootCheck image ((cpu.pushed image).call image .multibootCheck)
        >>= fun cpu =>
        cpuidCheck processor image (cpu.call image .cpuidCheck)
          >>= fun cpu =>
          longSupportedCheck processor image
              (cpu.call image .longSupportedCheck) >>= fun cpu =>
            pure (switch image cpu)) := rfl
  have magicCheck :
      multibootCheck image ((cpu.pushed image).call image .multibootCheck) =
        if cpu.eax ≠ multiboot2Magic then
          fail image ((cpu.pushed image).call image .multibootCheck)
            .noMultiboot image.noMultibootErr
        else
          .ok ((cpu.pushed image).call image .multibootCheck).ret := by
    rw [multibootCheck, Cpu.call, Cpu.push_eax, pushed_eax]
  have atCpuid : Cpu.call (((cpu.pushed image).call image .multibootCheck).ret)
      image .cpuidCheck = identifying image cpu := rfl
  have flags : (identifying image cpu).eflags = cpu.eflags :=
    (sameControl_identifying cpu image).eflags
  rw [whole, magicCheck]
  by_cases magic : cpu.eax ≠ multiboot2Magic
  · rw [if_pos magic, if_pos magic, fail_bind]
  rw [if_neg magic, if_neg magic, ok_bind, atCpuid, cpuidCheck_eq, flags]
  by_cases noCpuid : processor.idChanges = false
  · rw [if_pos noCpuid, if_pos noCpuid, fail_bind]
  rw [if_neg noCpuid, if_neg noCpuid, ok_bind, ← querying,
    longSupportedCheck_eq]
  by_cases few : (processor.cpuid 0x80000000).eax < 0x80000001
  · rw [if_pos few, if_pos few, fail_bind]
  rw [if_neg few, if_neg few]
  by_cases noLong : (processor.cpuid 0x80000001).edx.getLsbD 29 = false
  · rw [if_pos noLong, if_pos noLong, fail_bind]
  · rw [if_neg noLong, if_neg noLong, ok_bind]
    rfl

section

variable {image : Image} (cpu : Cpu) (room : 24 ≤ image.stackTop.toNat)
include room

theorem onStack_identifying :
    OnStack image cpu.ebx cpu.eax cpu.memory 1 (identifying image cpu) :=
  ((onStack_pushed room).passed (by decide) _).push (by decide) _

theorem onStack_flagsBelow :
    OnStack image cpu.ebx cpu.eax cpu.memory 1
      (flagsBelow (identifying image cpu)) :=
  (onStack_identifying cpu room).passed (by decide) _

theorem onStack_querying :
    OnStack image cpu.ebx cpu.eax cpu.memory 1 (querying image cpu) := by
  have below := onStack_flagsBelow cpu room
  have loaded : OnStack image cpu.ebx cpu.eax cpu.memory 1
      { flagsBelow (identifying image cpu) with
        eax := idBit
        ecx := cpu.eflags } := below.congr rfl rfl
  exact loaded.dropTop.push (by decide) _

theorem onStack_checked (processor : Processor) :
    OnStack image cpu.ebx cpu.eax cpu.memory 0
      (checked processor image cpu) := by
  have held : OnStack image cpu.ebx cpu.eax cpu.memory 1
      (queried processor (querying image cpu) 0x80000001) :=
    (onStack_querying cpu room).congr rfl rfl
  exact held.dropTop

end

theorem firstFailure_eq_none_iff {processor : Processor} {cpu : Cpu} :
    firstFailure processor cpu = none ↔
      cpu.eax = multiboot2Magic ∧ processor.idChanges = true ∧
        0x80000001 ≤ (processor.cpuid 0x80000000).eax ∧
        (processor.cpuid 0x80000001).edx.getLsbD 29 = true := by
  rw [firstFailure]
  split_ifs with magic noCpuid few noLong
  · apply iff_of_false nofun
    rintro ⟨same, -⟩
    exact magic same
  · apply iff_of_false nofun
    rintro ⟨-, changes, -⟩
    exact absurd (noCpuid.symm.trans changes) Bool.false_ne_true
  · apply iff_of_false nofun
    rintro ⟨-, -, enough, -⟩
    exact absurd few (BitVec.not_lt.mpr enough)
  · apply iff_of_false nofun
    rintro ⟨-, -, -, long⟩
    exact absurd (noLong.symm.trans long) Bool.false_ne_true
  · refine iff_of_true rfl ⟨not_not.mp magic, ?_, BitVec.not_lt.mp few, ?_⟩
    · exact Bool.eq_true_of_not_eq_false noCpuid
    · exact Bool.eq_true_of_not_eq_false noLong

/-- The call of `error` leaves what is not on the stack. -/
theorem fail_unswitched
    {α : Type} {image : Image} {cpu failing : Cpu}
    (held : OnStack image cpu.ebx cpu.eax cpu.memory 1 failing)
    (same : SameControl cpu failing) {edx : BitVec 32}
    (leaves : failing.edx = edx) (site : CallSite) (message : BitVec 32) :
    ∃ halted : Cpu,
      (fail image failing site message : Except Halted α) =
          .error ⟨halted, error image halted.printing⟩ ∧
        Unswitched image cpu halted ∧ halted.esi = message ∧
        halted.edx = edx := by
  have loaded : OnStack image cpu.ebx cpu.eax cpu.memory 1
      { failing with esi := message } := held.congr rfl rfl
  have called := loaded.push (by decide) (image.behind site)
  have kept : SameControl cpu { failing with esi := message } :=
    ⟨same.eflags, same.cr0, same.cr3, same.cr4, same.efer, same.color,
      same.cursorPos⟩
  have control := kept.push (image.behind site)
  refine ⟨_, rfl, ?_, Cpu.push_esi _ _, (Cpu.push_edx _ _).trans leaves⟩
  exact ⟨congrArg (· &&& idBit) control.eflags, control.cr0, control.cr3,
    control.cr4, control.efer, called.rest, control.color, control.cursorPos⟩

/-- What has been done when a check fails. -/
theorem start_failed
    {processor : Processor} {image : Image} {cpu : Cpu} {check : Check}
    (room : 24 ≤ image.stackTop.toNat)
    (fails : firstFailure processor cpu = some check) :
    ∃ halted : Cpu,
      start processor image cpu =
          .error ⟨halted, error image halted.printing⟩ ∧
        Unswitched image cpu halted ∧ halted.esi = check.message image ∧
        halted.edx = failureEdx processor cpu check := by
  rw [start_eq]
  rw [firstFailure] at fails
  by_cases magic : cpu.eax ≠ multiboot2Magic
  · rw [if_pos magic] at fails ⊢
    cases Option.some.inj fails
    exact fail_unswitched ((onStack_pushed room).push (by decide) _)
      ((sameControl_pushed cpu image).push _)
      ((Cpu.push_edx _ _).trans (pushed_edx cpu image)) _ _
  rw [if_neg magic] at fails ⊢
  by_cases noCpuid : processor.idChanges = false
  · rw [if_pos noCpuid] at fails ⊢
    cases Option.some.inj fails
    have same := ((sameControl_identifying cpu image).push
      (identifying image cpu).eflags).dropTop
    let failing : Cpu :=
      { flagsBelow (identifying image cpu) with eax := 0, ecx := cpu.eflags }
    have held : OnStack image cpu.ebx cpu.eax cpu.memory 1 failing :=
      (onStack_flagsBelow cpu room).congr rfl rfl
    have loaded : SameControl cpu failing :=
      ⟨same.eflags, same.cr0, same.cr3, same.cr4, same.efer, same.color,
        same.cursorPos⟩
    have edx : failing.edx = cpu.edx := by
      simp [failing, flagsBelow, identifying, Cpu.call, Cpu.ret]
    exact fail_unswitched held loaded edx _ _
  rw [if_neg noCpuid] at fails ⊢
  have held := onStack_querying cpu room
  have same := sameControl_querying cpu image
  have asked (leaf : BitVec 32) :
      OnStack image cpu.ebx cpu.eax cpu.memory 1
          (queried processor (querying image cpu) leaf) ∧
        SameControl cpu (queried processor (querying image cpu) leaf) :=
    ⟨held.congr rfl rfl, same.eflags, same.cr0, same.cr3, same.cr4, same.efer,
      same.color, same.cursorPos⟩
  by_cases few : (processor.cpuid 0x80000000).eax < 0x80000001
  · rw [if_pos few] at fails ⊢
    cases Option.some.inj fails
    rw [failureEdx, if_pos few]
    exact fail_unswitched (asked 0x80000000).1 (asked 0x80000000).2 rfl _ _
  rw [if_neg few] at fails ⊢
  by_cases noLong : (processor.cpuid 0x80000001).edx.getLsbD 29 = false
  · rw [if_pos noLong] at fails ⊢
    cases Option.some.inj fails
    rw [failureEdx, if_neg few]
    exact fail_unswitched (asked 0x80000001).1 (asked 0x80000001).2 rfl _ _
  · rw [if_neg noLong] at fails
    exact nomatch fails

/-- The switch is made when no check fails. -/
theorem start_passed
    {processor : Processor} {cpu : Cpu} (image : Image)
    (passes : firstFailure processor cpu = none) :
    start processor image cpu =
      .ok (switch image (checked processor image cpu)) := by
  rw [firstFailure] at passes
  split_ifs at passes with magic noCpuid few noLong
  rw [start_eq, if_neg magic, if_neg noCpuid, if_neg few, if_neg noLong]

/-! ## The call of `kmain` -/

/-- The state that `kmain` is called in, and its arguments. -/
structure Entered (image : Image) (cpu : Cpu) (call : KmainCall) : Prop where
  mbInfoAddr : call.mbInfoAddr = cpu.ebx.setWidth 64
  mbMagic : call.mbMagic = multiboot2Magic.setWidth 64
  esp : call.cpu.esp.toNat + 8 = image.stackTop.toNat
  returns : readBytes call.cpu.memory call.cpu.esp.toNat 8 =
    (image.behind .kmain).toNat
  idFlag : call.cpu.eflags &&& idBit = cpu.eflags &&& idBit
  cr0 : call.cpu.cr0 = cpu.cr0 ||| 1#32 <<< 31
  cr3 : call.cpu.cr3 = image.initialPageTables
  cr4 : call.cpu.cr4 = cpu.cr4 ||| 1#32 <<< 5
  /-- Long mode is enabled (LME), and so it is active (LMA). -/
  efer : call.cpu.efer = cpu.efer ||| 1#64 <<< 8 ||| 1#64 <<< 10
  /-- All pages below 64 MiB are the first one. -/
  walk : ∀ virtAddr, virtAddr < 2 ^ 39 →
    processorWalk call.cpu.memory call.cpu.cr3.toNat virtAddr =
      if virtAddr < 2 ^ 26 then some (virtAddr % 2 ^ 21) else none
  /-- Only the tables and the stack are written. -/
  others : ∀ place, ¬ image.Stack place →
    place < image.initialPageTables.toNat ∨
      image.initialPageTables.toNat + 3 * 4096 ≤ place →
    call.cpu.memory place = cpu.memory place

/--
The stack lies in the first page of 2 MiB, on which the first 64 MiB are
mapped, and apart from the tables.
-/
structure Placed (image : Image) : Prop where
  room : 24 ≤ image.stackTop.toNat
  aligned : image.stackTop.toNat % 16 = 0
  low : image.stackTop.toNat ≤ 2 ^ 21
  apart : image.initialPageTables.toNat + 3 * 4096 + 24 ≤
      image.stackTop.toNat ∨
    image.stackTop.toNat ≤ image.initialPageTables.toNat

/-- What is on the stack is not in the tables. -/
theorem Placed.outside {image : Image} (placed : Placed image) {place : Nat}
    (stack : image.Stack place) :
    place < image.initialPageTables.toNat ∨
      image.initialPageTables.toNat + 3 * 4096 ≤ place := by
  have apart := placed.apart
  rw [Image.Stack] at stack
  omega

/-- What is in the tables is not on the stack. -/
theorem Placed.inTables {image : Image} (placed : Placed image) {place : Nat}
    (above : image.initialPageTables.toNat ≤ place)
    (below : place < image.initialPageTables.toNat + 3 * 4096) :
    ¬ image.Stack place := by
  intro stack
  have outside := placed.outside stack
  omega

/-- `rdmsr`, a bit of the lower half, `wrmsr`. -/
theorem set_efer_bit (efer : BitVec 64) :
    efer.extractLsb' 32 32 ++ (efer.extractLsb' 0 32 ||| 1#32 <<< 8) =
      efer ||| 1#64 <<< 8 := by
  apply BitVec.eq_of_getLsbD_eq
  intro i inside
  simp only [BitVec.getLsbD_append, BitVec.getLsbD_or,
    BitVec.getLsbD_extractLsb', BitVec.getLsbD_shiftLeft, BitVec.getLsbD_one]
  by_cases low : i < 32
  · have inBoth : i < 64 := by omega
    simp [low, inBoth]
  · have back : 32 + (i - 32) = i := by omega
    have upper : i - 32 < 32 := by omega
    have beyond : ¬ i - 8 = 0 := by omega
    simp [low, back, upper, beyond]

/-- Bytes outside of the tables. -/
theorem filledMemory_outside
    (memory : Memory) {base place : Nat}
    (outside : place < base ∨ base + 3 * 4096 ≤ place) :
    filledMemory memory base place = memory place := by
  have unwritten : ∀ i, i < 32 →
      place < base + 2 * 4096 + 8 * i ∨
        base + 2 * 4096 + 8 * i + 4 ≤ place := by
    intro i bound
    omega
  rw [filledMemory, fillEntries_unwritten _ _ unwritten,
    writeBytes_outside _ _ (by omega), writeBytes_outside _ _ (by omega)]

/-- `setup_page_tables` writes registers of its own, and the tables. -/
theorem setupPageTables_eq
    {image : Image} {cpu : Cpu}
    (initial : ZeroedTables cpu.memory image.initialPageTables) :
    ∃ eax ebx ecx edx edi,
      setupPageTables image cpu = some (Cpu.ret
        { cpu with
          eax := eax
          ebx := ebx
          ecx := ecx
          edx := edx
          edi := edi
          memory :=
            filledMemory cpu.memory image.initialPageTables.toNat }) := by
  let machine : BootPageTables.Machine :=
    { eax := cpu.eax, ebx := cpu.ebx, ecx := cpu.ecx, edx := cpu.edx,
      edi := cpu.edi, memory := cpu.memory }
  have given : ZeroedTables machine.memory image.initialPageTables := initial
  rcases BootPageTables.setupPageTables_eq given with ⟨after, runs, memory⟩
  refine ⟨after.eax, after.ebx, after.ecx, after.edx, after.edi, ?_⟩
  rw [setupPageTables, runs, Option.bind_eq_bind, Option.bind_some, memory]

section

variable {image : Image} {cpu : Cpu}

/-- The tables filled, on a memory in which they were zero. -/
structure TablesFilled (image : Image) (memory filled : Memory) : Prop where
  walk : ∀ virtAddr, virtAddr < 2 ^ 39 →
    processorWalk filled image.initialPageTables.toNat virtAddr =
      if virtAddr < 2 ^ 26 then some (virtAddr % 2 ^ 21) else none
  others : ∀ place, ¬ image.Stack place →
    place < image.initialPageTables.toNat ∨
      image.initialPageTables.toNat + 3 * 4096 ≤ place →
    filled place = memory place

/-- What is written to the stack does not change the tables. -/
theorem tablesFilled_of_stack
    {memory zeroed filled : Memory} (placed : Placed image)
    (initial : ZeroedTables memory image.initialPageTables)
    (before : ∀ place, ¬ image.Stack place → zeroed place = memory place)
    (behind : ∀ place, ¬ image.Stack place → filled place =
      filledMemory zeroed image.initialPageTables.toNat place) :
    TablesFilled image memory filled := by
  have zeros : ∀ offset, offset < 3 * 4096 →
      zeroed (image.initialPageTables.toNat + offset) = 0 := by
    intro offset bound
    rw [before _ (placed.inTables (by omega) (by omega))]
    exact initial.zeroed offset bound
  have tables := (filledTables zeros initial.fits).congr
    fun place above below => behind place (placed.inTables above below)
  constructor
  · intro virtAddr low
    exact processorWalk_filled tables initial.aligned initial.fits low
  · intro place onStack outside
    rw [behind place onStack, filledMemory_outside zeroed outside,
      before place onStack]

/-- Long mode finds the two arguments on the stack. -/
theorem longModeStart_eq
    {info magic : BitVec 32} {memory filled : Memory}
    (placed : Placed image)
    (held : OnStack image info magic filled 0 cpu)
    (cr3 : cpu.cr3 = image.initialPageTables)
    (tables : TablesFilled image memory cpu.memory) :
    ∃ esp, esp.toNat + 8 = image.stackTop.toNat ∧
      longModeStart image cpu = some
        { mbInfoAddr := info.setWidth 64
          mbMagic := magic.setWidth 64
          cpu :=
            { cpu with
              esp := esp
              memory := writeBytes cpu.memory esp.toNat 8
                (image.behind .kmain).toNat } } := by
  obtain ⟨room, esp, infoHeld, magicHeld, -⟩ := held
  have low := placed.low
  have top := image.stackTop.isLt
  have second : (cpu.esp + 8).toNat = cpu.esp.toNat + 8 := by
    bv_omega
  have behind : (cpu.esp + 8 + 8 - 8).toNat = cpu.esp.toNat + 8 := by
    bv_omega
  have physical (virtAddr : Nat) (below : virtAddr < 2 ^ 21) :
      processorWalk cpu.memory image.initialPageTables.toNat virtAddr =
        some virtAddr := by
    rw [tables.walk virtAddr (by omega), if_pos (by omega),
      Nat.mod_eq_of_lt below]
  have word (value : BitVec 32) :
      BitVec.ofNat 64 value.toNat = value.setWidth 64 :=
    BitVec.ofNat_toNat 64 value
  have rdi : cpu.popLong = some (info.setWidth 64,
      { cpu with esp := cpu.esp + 8 }) := by
    have place : image.stackTop.toNat - 16 = cpu.esp.toNat := by omega
    rw [place] at infoHeld
    rw [Cpu.popLong, cr3, physical _ (by omega), Option.bind_eq_bind,
      Option.bind_some, infoHeld, word]
  have rsi : Cpu.popLong { cpu with esp := cpu.esp + 8 } =
      some (magic.setWidth 64, { cpu with esp := cpu.esp + 8 + 8 }) := by
    have place : image.stackTop.toNat - 8 = cpu.esp.toNat + 8 := by omega
    rw [place] at magicHeld
    rw [Cpu.popLong]
    simp only [cr3, second, physical _ (show cpu.esp.toNat + 8 < 2 ^ 21 by
      omega), Option.bind_eq_bind, Option.bind_some, magicHeld, word]
  refine ⟨cpu.esp + 8 + 8 - 8, by omega, ?_⟩
  have pushed : Cpu.pushLong { cpu with esp := cpu.esp + 8 + 8 }
      ((image.behind .kmain).setWidth 64) = some
        { cpu with
          esp := cpu.esp + 8 + 8 - 8
          memory := writeBytes cpu.memory (cpu.esp + 8 + 8 - 8).toNat 8
            (image.behind .kmain).toNat } := by
    have value : ((image.behind .kmain).setWidth 64).toNat =
        (image.behind .kmain).toNat :=
      BitVec.toNat_setWidth_of_le (by decide)
    rw [Cpu.pushLong]
    simp only [cr3, behind, physical _ (show cpu.esp.toNat + 8 < 2 ^ 21 by
      omega), Option.bind_eq_bind, Option.bind_some, value]
  rw [longModeStart, rdi, Option.bind_eq_bind, Option.bind_some]
  simp only [rsi, Option.bind_eq_bind, Option.bind_some, pushed]

/-- The bits that `enable_paging` sets, and the one the processor adds. -/
theorem enablePaging_eq (image : Image) (cpu : Cpu)
    (paging : cpu.cr0.getLsbD 31 = false) :
    enablePaging image cpu = Cpu.ret
      { cpu with
        eax := cpu.cr0 ||| 1#32 <<< 31
        ecx := 0xC0000080
        edx := cpu.efer.extractLsb' 32 32
        cr0 := cpu.cr0 ||| 1#32 <<< 31
        cr3 := image.initialPageTables
        cr4 := cpu.cr4 ||| 1#32 <<< 5
        efer := cpu.efer ||| 1#64 <<< 8 ||| 1#64 <<< 10 } := by
  have enabled : (cpu.efer ||| 1#64 <<< 8).getLsbD 8 = true := by
    simp
  have switched : (cpu.cr0 ||| 1#32 <<< 31).getLsbD 31 = true := by
    simp
  simp only [enablePaging, Cpu.loadCr0, set_efer_bit, switched, paging, enabled,
    Bool.not_false, Bool.and_true, if_true]

/-- `setup_page_tables` fills the tables, behind the arguments on the stack. -/
theorem setupPageTables_fills
    {info magic : BitVec 32} {memory : Memory} {before : Cpu}
    (placed : Placed image)
    (initial : ZeroedTables memory image.initialPageTables)
    (held : OnStack image info magic memory 1 cpu)
    (control : SameControl before cpu) :
    ∃ filled, setupPageTables image cpu = some filled ∧
      OnStack image info magic
        (filledMemory cpu.memory image.initialPageTables.toNat) 0 filled ∧
      SameControl before filled := by
  have given : ZeroedTables cpu.memory image.initialPageTables := by
    refine ⟨initial.aligned, initial.fits, fun offset bound => ?_⟩
    rw [held.rest _ (placed.inTables (by omega) (by omega))]
    exact initial.zeroed offset bound
  obtain ⟨eax, ebx, ecx, edx, edi, runs⟩ := setupPageTables_eq given
  let filling : Cpu :=
    { cpu with
      eax := eax
      ebx := ebx
      ecx := ecx
      edx := edx
      edi := edi
      memory := filledMemory cpu.memory image.initialPageTables.toNat }
  have filled : OnStack image info magic filling.memory 1 filling :=
    held.written rfl fun place stack =>
      filledMemory_outside cpu.memory (placed.outside stack)
  have filledControl : SameControl before filling :=
    ⟨control.eflags, control.cr0, control.cr3, control.cr4, control.efer,
      control.color, control.cursorPos⟩
  exact ⟨filling.ret, runs, filled.dropTop, filledControl.dropTop⟩

/-- The bits of long mode are set, and no others have changed. -/
structure LongMode (image : Image) (before enabled : Cpu) : Prop where
  eflags : enabled.eflags = before.eflags
  cr0 : enabled.cr0 = before.cr0 ||| 1#32 <<< 31
  cr3 : enabled.cr3 = image.initialPageTables
  cr4 : enabled.cr4 = before.cr4 ||| 1#32 <<< 5
  efer : enabled.efer = before.efer ||| 1#64 <<< 8 ||| 1#64 <<< 10

/-- `enable_paging` leaves the arguments on the stack, and long mode on. -/
theorem enablePaging_enables
    {info magic : BitVec 32} {memory : Memory} {before : Cpu}
    (paging : before.cr0.getLsbD 31 = false)
    (held : OnStack image info magic memory 1 cpu)
    (control : SameControl before cpu) :
    OnStack image info magic memory 0 (enablePaging image cpu) ∧
      LongMode image before (enablePaging image cpu) := by
  have off : cpu.cr0.getLsbD 31 = false := by
    rw [control.cr0]
    exact paging
  rw [enablePaging_eq image cpu off]
  let enabled : Cpu :=
    { cpu with
      eax := cpu.cr0 ||| 1#32 <<< 31
      ecx := 0xC0000080
      edx := cpu.efer.extractLsb' 32 32
      cr0 := cpu.cr0 ||| 1#32 <<< 31
      cr3 := image.initialPageTables
      cr4 := cpu.cr4 ||| 1#32 <<< 5
      efer := cpu.efer ||| 1#64 <<< 8 ||| 1#64 <<< 10 }
  have same : OnStack image info magic memory 1 enabled :=
    held.congr rfl rfl
  have last : SameControl enabled enabled.ret :=
    (SameControl.refl enabled).dropTop
  refine ⟨same.dropTop, ?_⟩
  constructor
  · exact last.eflags.trans control.eflags
  · rw [← control.cr0]
    exact last.cr0
  · exact last.cr3
  · rw [← control.cr4]
    exact last.cr4
  · rw [← control.efer]
    exact last.efer

/-- With zeroed tables, the switch ends in a call of `kmain`. -/
theorem switch_enters
    (processor : Processor) (placed : Placed image)
    (magic : cpu.eax = multiboot2Magic)
    (paging : cpu.cr0.getLsbD 31 = false)
    (initial : ZeroedTables cpu.memory image.initialPageTables) :
    ∃ call, switch image (checked processor image cpu) = some call ∧
      Entered image cpu call := by
  let calling := (checked processor image cpu).call image .setupPageTables
  have held : OnStack image cpu.ebx cpu.eax cpu.memory 1 calling :=
    (onStack_checked cpu placed.room processor).push (by decide) _
  obtain ⟨filled, fills, filledHeld, filledControl⟩ :=
    setupPageTables_fills placed initial held
      ((sameControl_checked processor image cpu).push _)
  have calledHeld : OnStack image cpu.ebx cpu.eax _ 1
      (filled.call image .enablePaging) :=
    filledHeld.push (by decide) _
  have calledControl : SameControl cpu (filled.call image .enablePaging) :=
    filledControl.push _
  obtain ⟨enabledHeld, longMode⟩ :=
    enablePaging_enables paging calledHeld calledControl
  generalize enables :
    enablePaging image (filled.call image .enablePaging) = enabled
    at enabledHeld longMode
  obtain ⟨esp, top, starts⟩ := longModeStart_eq placed enabledHeld
    longMode.cr3
    (tablesFilled_of_stack placed initial held.rest enabledHeld.rest)
  have switched : switch image (checked processor image cpu) =
      longModeStart image enabled := by
    rw [switch, fills, Option.bind_eq_bind, Option.bind_some, enables]
  rw [starts] at switched
  have written (place : Nat) (outside : ¬ image.Stack place) :
      writeBytes enabled.memory esp.toNat 8
          (image.behind .kmain).toNat place =
        filledMemory calling.memory image.initialPageTables.toNat place := by
    have below : place < esp.toNat ∨ esp.toNat + 8 ≤ place := by
      rw [Image.Stack] at outside
      omega
    exact (writeBytes_outside _ _ below).trans (enabledHeld.rest place outside)
  have tables := tablesFilled_of_stack placed initial held.rest written
  refine ⟨_, switched, ?_⟩
  constructor
  · rfl
  · rw [← magic]
  · exact top
  · show readBytes (writeBytes _ _ _ _) _ _ = _
    rw [readBytes_writeBytes_same]
    have bound := (image.behind .kmain).isLt
    have small : (256 : Nat) ^ 8 = 2 ^ 64 := by decide
    omega
  · exact congrArg (· &&& idBit) longMode.eflags
  · exact longMode.cr0
  · exact longMode.cr3
  · exact longMode.cr4
  · exact longMode.efer
  · intro virtAddr low
    show processorWalk _ enabled.cr3.toNat virtAddr = _
    rw [longMode.cr3]
    exact tables.walk virtAddr low
  · exact tables.others

end

/-- What the boot loader leaves. -/
def loadedCpu (memory : Memory) : Cpu where
  eax := multiboot2Magic
  ebx := 0x10000
  ecx := 0
  edx := 0
  esi := 0
  edi := 0
  esp := 0
  eflags := 2
  cr0 := 1
  cr3 := 0
  cr4 := 0
  efer := 0
  memory := memory
  color := 0
  cursorPos := ⟨0, 0⟩

/-- Where the strings and the tables are. -/
def stringsImage : Image where
  errPrefix := 0x200000
  noMultibootErr := 0x200100
  noCpuidErr := 0x200200
  noLongSupportedErr := 0x200300
  initialPageTables := 0x300000
  stackTop := 0x180000
  behind _ := 0x100000

/-- A processor with long mode. -/
def longProcessor : Processor where
  idChanges := true
  cpuid := fun leaf =>
    if leaf = 0x80000001 then ⟨0, 0, 0, 1#32 <<< 29⟩ else ⟨0x80000008, 0, 0, 0⟩

theorem zeroed_tables :
    ZeroedTables (loadedCpu fun _ => 0).memory
      stringsImage.initialPageTables where
  aligned := by decide
  fits := by decide
  zeroed _ _ := rfl

theorem placed_stringsImage : Placed stringsImage where
  room := by decide
  aligned := by decide
  low := by decide
  apart := by decide

section

variable {machine after : BootVga.Machine} {rounds : Nat}

/-- The loop of `write` never takes a store back. -/
theorem writeLoop_extends (runs : writeLoop rounds machine = some after) :
    ∃ added, after.traced.stores = machine.traced.stores ++ added := by
  induction rounds generalizing machine with
  | zero => exact nomatch runs
  | succ rounds inductionHypothesis =>
      rcases (writeRound_adds machine).2 with ⟨here, stored, -⟩
      have stores := stored.stores
      by_cases last : machine.writeRound.registers.ecx.word = 0
      · rw [writeLoop_last rounds last] at runs
        rw [← Option.some.inj runs]
        exact ⟨here, stores⟩
      · rw [writeLoop_next rounds last] at runs
        rcases inductionHypothesis runs with ⟨later, rest⟩
        have same : machine.writeRound.incEsi.traced =
            machine.writeRound.traced := rfl
        rw [same, stores, List.append_assoc] at rest
        exact ⟨here ++ later, rest⟩

/-- The first round decides on the first two stores. -/
theorem writeLoop_first
    {c : BitVec 8} (runs : writeLoop (rounds + 1) machine = some after)
    (here : machine.traced.memory machine.registers.esi.toNat = c)
    (character : c ≠ 0x0A) :
    ∃ added, after.traced.stores = machine.traced.stores ++
      (entryStores machine.registers.edx.upper machine.cursorPos
        machine.color c ++ added) := by
  have stores := (writeRound_character here character).2.1.stores
  by_cases last : machine.writeRound.registers.ecx.word = 0
  · rw [writeLoop_last rounds last] at runs
    rw [← Option.some.inj runs]
    exact ⟨[], by rw [List.append_nil, stores]⟩
  · rw [writeLoop_next rounds last] at runs
    rcases writeLoop_extends runs with ⟨later, rest⟩
    have same : machine.writeRound.incEsi.traced =
        machine.writeRound.traced := rfl
    rw [same, stores, List.append_assoc] at rest
    exact ⟨later, rest⟩

/-- Counting stores nothing. -/
theorem strlenLoop_traced (runs : strlenLoop rounds machine = some after) :
    after.traced = machine.traced := by
  induction rounds generalizing machine with
  | zero => exact nomatch runs
  | succ rounds inductionHypothesis =>
      rw [strlenLoop] at runs
      simp only [] at runs
      split_ifs at runs
      · rw [← Option.some.inj runs]
        rfl
      · have same := inductionHypothesis runs
        exact same

/-- What is left of a call besides its stores. -/
theorem protectedVgaPrint_extends
    (runs : machine.protectedVgaPrint = some after) :
    after.registers = machine.registers ∧
      ∃ added, after.traced.stores = machine.traced.stores ++ added := by
  rcases Option.bind_eq_some_iff.mp runs with ⟨counted, counts, runs⟩
  rcases Option.bind_eq_some_iff.mp counts with ⟨looped, loops, counts⟩
  rcases Option.bind_eq_some_iff.mp runs with ⟨written, writes, runs⟩
  rcases Option.bind_eq_some_iff.mp writes with ⟨printed, prints, writes⟩
  have start : counted.traced = machine.traced := by
    have same := strlenLoop_traced loops
    rw [← Option.some.inj counts]
    exact same
  rcases writeLoop_extends prints with ⟨added, stores⟩
  rw [start] at stores
  rw [← Option.some.inj runs]
  refine ⟨rfl, added, ?_⟩
  rw [← Option.some.inj writes]
  exact stores

/-- The first two stores of a call. -/
theorem protectedVgaPrint_first
    {c : BitVec 8} {rest : List (BitVec 8)}
    (runs : machine.protectedVgaPrint = some after)
    (stands :
      StandsAt machine.traced.memory machine.registers.esi (c :: rest))
    (small : (c :: rest).length < 2 ^ 32) (character : c ≠ 0x0A) :
    ∃ added, after.traced.stores = machine.traced.stores ++
      (entryStores machine.registers.edx.upper machine.cursorPos
        machine.color c ++ added) := by
  rcases Option.bind_eq_some_iff.mp runs with ⟨counted, counts, written⟩
  rcases Option.bind_eq_some_iff.mp written with ⟨written, writes, last⟩
  rcases Option.bind_eq_some_iff.mp writes with ⟨printed, prints, popped⟩
  have length : machine.strlen = some (machine.measured (c :: rest).length) :=
    strlen_eq stands small
  rw [length] at counts
  rw [← Option.some.inj counts] at prints
  have rounds : writeLoop (65535 + 1)
      (machine.measured (c :: rest).length) = some printed := prints
  have same : after.traced = printed.traced := by
    rw [← Option.some.inj last, ← Option.some.inj popped]
    rfl
  rw [same]
  have first := writeLoop_first rounds stands.1 character
  exact first

end

/-! ## What is shown of an error -/

/-- The string at `err_prefix`. -/
def errPrefix : List (BitVec 8) :=
  literal "[ERR]: "

theorem errPrefix_fits :
    errPrefix ≠ [] ∧ ∀ c ∈ errPrefix, c ≠ 0x0A ∧ c ≠ 0 := by
  simp [errPrefix, literal]

/-- The prefix in red and the message in white, from the cursor on. -/
structure Shown (before after : BootVga.Machine) (message : List (BitVec 8)) :
    Prop where
  stored : Stored before.traced after.traced
    (textStores 0x04 before.cursorPos.position errPrefix ++
      textStores 0x0F (before.cursorPos.position + errPrefix.length) message)
  onScreen : after.cursorPos.OnScreen
  cursor : after.cursorPos.position =
    before.cursorPos.position + errPrefix.length + message.length

/-- Only memory and the cursor matter for what is shown. -/
theorem shown_congr
    {first second after : BootVga.Machine} {message : List (BitVec 8)}
    (traced : first.traced = second.traced)
    (cursor : first.cursorPos = second.cursorPos) :
    Shown first after message ↔ Shown second after message := by
  constructor
  · rintro ⟨stored, onScreen, behind⟩
    rw [traced, cursor] at stored
    rw [cursor] at behind
    exact ⟨stored, onScreen, behind⟩
  · rintro ⟨stored, onScreen, behind⟩
    rw [← traced, ← cursor] at stored
    rw [← cursor] at behind
    exact ⟨stored, onScreen, behind⟩

/-- A message that stands where no printed character is stored. -/
structure Standing (memory : Memory) (esi : BitVec 32)
    (text : List (BitVec 8)) : Prop where
  stands : StandsAt memory esi text
  apart : Apart esi text

/-- The stores of a text are on the screen. -/
theorem textStores_places
    {color : BitVec 8} {position : Nat} {text : List (BitVec 8)}
    (room : position + text.length ≤ vgaWidth * vgaHeight) :
    ∀ store ∈ textStores color position text,
      cellAddress 0 ≤ store.1 ∧
        store.1 < cellAddress (vgaWidth * vgaHeight) := by
  induction text generalizing position with
  | nil => exact fun _ member => nomatch member
  | cons c rest inductionHypothesis =>
      rw [List.length_cons] at room
      intro store member
      rcases List.mem_append.mp member with here | later
      · have place : store.1 = cellAddress position ∨
            store.1 = cellAddress position + 1 := by
          rcases List.mem_cons.mp here with rfl | last
          · exact Or.inl rfl
          · rw [List.mem_singleton.mp last]
            exact Or.inr rfl
        rw [cellAddress] at place
        rw [cellAddress, cellAddress]
        omega
      · exact inductionHypothesis (by omega) store later

/-- A message that is not on the screen stays while another is printed. -/
theorem Standing.kept
    {before after : TracedMemory} {color : BitVec 8} {esi : BitVec 32}
    {position : Nat} {printed text : List (BitVec 8)}
    (standing : Standing before.memory esi text)
    (stored : Stored before after (textStores color position printed))
    (room : position + printed.length ≤ vgaWidth * vgaHeight) :
    Standing after.memory esi text where
  stands := by
    apply standing.stands.congr
    intro i bound
    apply stored.unwritten
    intro store member
    have place := textStores_places room store member
    have outside := standing.apart i bound
    omega
  apart := standing.apart

/-- `protected_vga_set_color` with a background and a foreground. -/
def colored (machine : BootVga.Machine) (color : BitVec 8)
    (esi : BitVec 32) : BootVga.Machine :=
  { machine with
    registers.edx := ⟨machine.registers.edx.upper, color, color⟩
    registers.esi := esi
    color := color }

/-- A black background leaves the foreground as it is. -/
theorem protectedVgaSetColor_eq (machine : BootVga.Machine)
    (foreground : BitVec 8) :
    protectedVgaSetColor ((machine.setDl 0x0).setDh foreground) =
      colored machine foreground machine.registers.esi := by
  have byte : (0x0 : BitVec 8) <<< 4 ||| foreground = foreground := by
    rw [BitVec.ofNat_eq_ofNat, BitVec.zero_shiftLeft, BitVec.zero_or]
  simp only [protectedVgaSetColor, BootVga.Machine.setDl,
    BootVga.Machine.setDh, byte, colored]

/-- `error` is two prints. -/
theorem error_eq (image : Image) (machine : BootVga.Machine) :
    error image machine =
      (colored machine 0x04 image.errPrefix).protectedVgaPrint.bind
        fun printed =>
          (colored printed 0x0F machine.registers.esi).protectedVgaPrint := by
  simp only [error, protectedVgaSetColor_eq, Option.bind_eq_bind]
  rfl

/-- One of the two prints, when the upper half of `edx` is zero. -/
theorem print_shown
    {machine : BootVga.Machine} {color : BitVec 8} {esi : BitVec 32}
    {text : List (BitVec 8)} (upper : machine.registers.edx.upper = 0)
    (standing : Standing machine.traced.memory esi text)
    (nonempty : text ≠ []) (noNewline : ∀ c ∈ text, c ≠ 0x0A)
    (onScreen : machine.cursorPos.OnScreen)
    (room : machine.cursorPos.position + text.length ≤ 128) :
    ∃ after, (colored machine color esi).protectedVgaPrint = some after ∧
      after.registers.edx.upper = 0 ∧
      PrintsExactly (colored machine color esi) after text := by
  have screen : vgaWidth * vgaHeight = 2000 := rfl
  have fits : machine.cursorPos.position + text.length ≤
      vgaWidth * vgaHeight := by omega
  cases text with
  | nil => exact absurd rfl nonempty
  | cons c rest =>
      have start : (colored machine color esi).cursorPos.OnScreen := onScreen
      have stands : StandsAt (colored machine color esi).traced.memory
          (colored machine color esi).registers.esi (c :: rest) :=
        standing.stands
      rcases protectedVgaPrint_cons stands start fits noNewline with
        ⟨after, runs, prints⟩
      refine ⟨after, runs, ?_, prints.mpr ⟨upper, room, ?_⟩⟩
      · rw [(protectedVgaPrint_extends runs).1]
        exact upper
      · exact undisturbed_of_apart standing.stands standing.apart fits

/--
A shown error had the upper half of `edx` zero: the first two stores are made in
the wrong place otherwise.
-/
theorem upper_eq_zero_of_shown
    {image : Image} {machine after : BootVga.Machine}
    {message : List (BitVec 8)}
    (errPrefixStands :
      Standing machine.traced.memory image.errPrefix errPrefix)
    (room : machine.cursorPos.position + errPrefix.length ≤ 128)
    (runs : error image machine = some after)
    (shown : Shown machine after message) :
    machine.registers.edx.upper = 0 := by
  rcases errPrefix_fits with ⟨prefixNonempty, characters⟩
  have screen : vgaWidth * vgaHeight = 2000 := rfl
  rw [error_eq] at runs
  rcases Option.bind_eq_some_iff.mp runs with ⟨printed, first, second⟩
  rcases (protectedVgaPrint_extends second).2 with ⟨later, followed⟩
  cases spelled : errPrefix with
  | nil => exact absurd spelled prefixNonempty
  | cons c rest =>
      have stands := errPrefixStands.stands
      have small : (c :: rest).length < 2 ^ 32 := by
        rw [← spelled]
        omega
      have character : c ≠ 0x0A := by
        apply (characters c _).1
        rw [spelled]
        exact List.mem_cons_self
      rw [spelled] at stands
      rcases protectedVgaPrint_first first stands small character with
        ⟨added, stores⟩
      have expected := shown.stored.stores
      rw [followed] at expected
      change printed.traced.stores ++ later = _ at expected
      rw [stores, spelled, textStores] at expected
      simp only [List.append_assoc] at expected
      have entry := List.append_inj_left
        (List.append_cancel_left expected) rfl
      have inside : machine.cursorPos.position < vgaWidth * vgaHeight := by
        omega
      exact ((entryStores_eq_iff inside).mp entry).1

/-- With the upper half of `edx` zero, the prefix and then the message are
printed. -/
theorem error_shown
    {image : Image} {machine : BootVga.Machine} {message : List (BitVec 8)}
    (errPrefixStands :
      Standing machine.traced.memory image.errPrefix errPrefix)
    (messageStands :
      Standing machine.traced.memory machine.registers.esi message)
    (nonempty : message ≠ []) (noNewline : ∀ c ∈ message, c ≠ 0x0A)
    (onScreen : machine.cursorPos.OnScreen)
    (room : machine.cursorPos.position + errPrefix.length + message.length ≤
      128)
    (upper : machine.registers.edx.upper = 0) :
    ∃ after, error image machine = some after ∧
      Shown machine after message := by
  rcases errPrefix_fits with ⟨prefixNonempty, characters⟩
  have screen : vgaWidth * vgaHeight = 2000 := rfl
  rcases print_shown upper errPrefixStands prefixNonempty
      (fun c member => (characters c member).1) onScreen (by omega) with
    ⟨printed, first, stillZero, exactly⟩
  have cursor : printed.cursorPos.position =
      machine.cursorPos.position + errPrefix.length := by
    rw [exactly.cursor]
    apply Nat.mod_eq_of_lt
    change machine.cursorPos.position + _ < _
    omega
  have kept : Standing printed.traced.memory machine.registers.esi message :=
    messageStands.kept exactly.stored (by
      change machine.cursorPos.position + _ ≤ _
      omega)
  rcases print_shown stillZero kept nonempty noNewline exactly.onScreen
    (by omega) with ⟨after, second, -, messageExactly⟩
  refine ⟨after, ?_, ?_, messageExactly.onScreen, ?_⟩
  · rw [error_eq, first]
    exact second
  · have whole := exactly.stored.trans messageExactly.stored
    change Stored _ _ (_ ++ textStores 0x0F printed.cursorPos.position _)
      at whole
    rw [cursor] at whole
    exact whole
  · rw [messageExactly.cursor]
    change (printed.cursorPos.position + _) % _ = _
    rw [cursor]
    apply Nat.mod_eq_of_lt
    omega

/--
An error is shown as it should be exactly when the upper half of `edx` is zero.
-/
theorem error_shown_iff
    {image : Image} {machine : BootVga.Machine} {message : List (BitVec 8)}
    (errPrefixStands :
      Standing machine.traced.memory image.errPrefix errPrefix)
    (messageStands :
      Standing machine.traced.memory machine.registers.esi message)
    (nonempty : message ≠ []) (noNewline : ∀ c ∈ message, c ≠ 0x0A)
    (onScreen : machine.cursorPos.OnScreen)
    (room : machine.cursorPos.position + errPrefix.length + message.length ≤
      128) :
    (∃ after, error image machine = some after ∧
      Shown machine after message) ↔ machine.registers.edx.upper = 0 := by
  constructor
  · rintro ⟨after, runs, shown⟩
    exact upper_eq_zero_of_shown errPrefixStands (by omega) runs shown
  · exact error_shown errPrefixStands messageStands nonempty noNewline
      onScreen room

/-! ## The message of a check -/

/-- The text of the message. -/
def Check.text : Check → List (BitVec 8)
  | .multiboot => literal "needs to be load by Multiboot compiant loader"
  | .cpuid => literal "CPUID is not supported by the processor"
  | .longSupported => literal "long mode is not supported by the processor"

/-- The six words of the stack are apart from a string. -/
def OffStack (image : Image) (esi : BitVec 32) (text : List (BitVec 8)) :
    Prop :=
  ∀ i, i ≤ text.length → ¬ image.Stack (esi + BitVec.ofNat 32 i).toNat

/-- The strings of the image are in memory, and there is a stack. -/
structure Loaded (image : Image) (memory : Memory) : Prop where
  room : 24 ≤ image.stackTop.toNat
  errPrefix : Standing memory image.errPrefix errPrefix
  errPrefixOff : OffStack image image.errPrefix BootStart.errPrefix
  message : ∀ check : Check,
    Standing memory (check.message image) check.text
  messageOff : ∀ check : Check,
    OffStack image (check.message image) check.text

/-- What has been pushed leaves a string as it was. -/
theorem Standing.offStack
    {image : Image} {memory pushed : Memory} {esi : BitVec 32}
    {text : List (BitVec 8)} (standing : Standing memory esi text)
    (off : OffStack image esi text)
    (same : ∀ place, ¬ image.Stack place → pushed place = memory place) :
    Standing pushed esi text where
  stands := standing.stands.congr fun i bound => same _ (off i bound)
  apart := standing.apart

/-- Every message can be printed behind the prefix. -/
theorem Check.text_fits (check : Check) :
    check.text ≠ [] ∧ (∀ c ∈ check.text, c ≠ 0x0A ∧ c ≠ 0) ∧
      errPrefix.length + check.text.length ≤ 128 := by
  cases check with
  | multiboot => simp [Check.text, errPrefix, literal]
  | cpuid => simp [Check.text, errPrefix, literal]
  | longSupported => simp [Check.text, errPrefix, literal]

/-- The upper half of a register that is set to a value. -/
theorem upper_ofValue_iff (value : BitVec 32) :
    (Register.ofValue value).upper = 0 ↔ value.toNat < 2 ^ 16 := by
  have zero : (0 : BitVec 16).toNat = 0 := rfl
  have bound := value.isLt
  rw [← BitVec.toNat_inj, zero, Register.ofValue, BitVec.extractLsb'_toNat,
    Nat.shiftRight_eq_div_pow]
  omega

/-- The strings are still there when a check has failed. -/
theorem Loaded.unswitched
    {image : Image} {cpu halted : Cpu} (loaded : Loaded image cpu.memory)
    (kept : Unswitched image cpu halted) : Loaded image halted.memory where
  room := loaded.room
  errPrefix := loaded.errPrefix.offStack loaded.errPrefixOff kept.memory
  errPrefixOff := loaded.errPrefixOff
  message check :=
    (loaded.message check).offStack (loaded.messageOff check) kept.memory
  messageOff := loaded.messageOff

/--
The first check that fails halts the processor before anything of the switch to
long mode has been done.  Its message is shown behind a red `[ERR]: ` at the
start of the screen exactly when the upper half of `edx` is zero then; the print
ends otherwise too, by `failed_check_print_ends`.
-/
theorem failed_check_shown_iff
    {processor : Processor} {image : Image} {cpu : Cpu} {check : Check}
    (loaded : Loaded image cpu.memory) (cursor : cpu.cursorPos = ⟨0, 0⟩)
    (fails : firstFailure processor cpu = some check) :
    ∃ halted, start processor image cpu = .error halted ∧
      Unswitched image cpu halted.cpu ∧
      ((∃ after, halted.printed = some after ∧
          Shown halted.cpu.printing after check.text) ↔
        (failureEdx processor cpu check).toNat < 2 ^ 16) := by
  rcases start_failed loaded.room fails with
    ⟨halted, stopped, kept, esi, edx⟩
  rcases check.text_fits with ⟨nonempty, characters, fits⟩
  have noNewline : ∀ c ∈ check.text, c ≠ 0x0A :=
    fun c member => (characters c member).1
  refine ⟨⟨halted, error image halted.printing⟩, stopped, kept, ?_⟩
  have start : halted.printing.cursorPos = ⟨0, 0⟩ :=
    kept.cursorPos.trans cursor
  have position : halted.printing.cursorPos.position = 0 := by
    rw [start]
    rfl
  have onScreen : halted.printing.cursorPos.OnScreen := by
    rw [start]
    constructor <;> decide
  have standing := loaded.unswitched kept
  have messageStands : Standing halted.printing.traced.memory
      halted.printing.registers.esi check.text := by
    show Standing halted.memory halted.esi check.text
    rw [esi]
    exact standing.message check
  have shown := error_shown_iff standing.errPrefix messageStands nonempty
    noNewline onScreen (by rw [position]; omega)
  apply shown.trans
  rw [← edx]
  exact upper_ofValue_iff halted.edx

/-! ## The print ends -/

/-- A string ends at the first zero, if there is one. -/
theorem standsAt_of_zero
    {memory : Memory} {esi : BitVec 32} {count : Nat}
    (zero : memory (esi + BitVec.ofNat 32 count).toNat = 0) :
    ∃ text, text.length ≤ count ∧ StandsAt memory esi text := by
  induction count generalizing esi with
  | zero =>
      rw [BitVec.add_zero] at zero
      exact ⟨[], Nat.le_refl 0, zero⟩
  | succ count inductionHypothesis =>
      rw [BootVga.add_ofNat_succ] at zero
      rcases inductionHypothesis zero with ⟨text, short, stands⟩
      by_cases here : memory esi.toNat = 0
      · exact ⟨[], Nat.zero_le _, here⟩
      · refine ⟨memory esi.toNat :: text, ?_, rfl, here, stands⟩
        exact Nat.succ_le_succ short

/-- A print of a string ends, and makes two stores for a character at most. -/
theorem protectedVgaPrint_ends
    {machine : BootVga.Machine} {text : List (BitVec 8)}
    (stands : StandsAt machine.traced.memory machine.registers.esi text)
    (small : text.length < 2 ^ 32) :
    ∃ after added, machine.protectedVgaPrint = some after ∧
      Stored machine.traced after.traced added ∧
      added.length ≤ 2 * ((text.length + 65535) % 2 ^ 16 + 1) := by
  -- a counter of zero is taken for 65536
  have counter : (machine.measured text.length).registers.ecx.word =
      BitVec.ofNat 16 ((text.length + 65535) % 2 ^ 16 + 1) := by
    have word : (machine.measured text.length).registers.ecx.word =
        BitVec.ofNat 16 text.length := Register.word_ofValue _
    rw [word]
    apply BitVec.eq_of_toNat_eq
    rw [BitVec.toNat_ofNat, BitVec.toNat_ofNat]
    omega
  have bound : (text.length + 65535) % 2 ^ 16 < 2 ^ 16 :=
    Nat.mod_lt _ (by decide)
  rcases writeLoop_adds counter bound bound with
    ⟨after, added, runs, stored, few⟩
  exact ⟨_, added, protectedVgaPrint_eq stands small runs, stored, few⟩

/--
The prefix of an error makes fourteen stores at most: with fifteen zeros in
memory, the message behind it ends somewhere.
-/
theorem error_ends
    {image : Image} {machine : BootVga.Machine} {zeros : Finset Nat}
    (prefixStands :
      StandsAt machine.traced.memory image.errPrefix errPrefix)
    (many : 14 < zeros.card)
    (zero : ∀ place ∈ zeros, place < 2 ^ 32 ∧
      machine.traced.memory place = 0) :
    ∃ after, error image machine = some after := by
  have seven : errPrefix.length = 7 := by
    simp [errPrefix, literal]
  have stands : StandsAt (colored machine 0x04 image.errPrefix).traced.memory
      (colored machine 0x04 image.errPrefix).registers.esi errPrefix :=
    prefixStands
  rcases protectedVgaPrint_ends stands (by omega) with
    ⟨printed, added, first, stored, few⟩
  rw [seven] at few
  -- a zero that none of the stores has written
  have written : ((added.map Prod.fst).toFinset).card ≤ 14 := by
    apply (List.toFinset_card_le _).trans
    rw [List.length_map]
    omega
  rcases Finset.exists_mem_notMem_of_card_lt_card
      (Nat.lt_of_le_of_lt written many) with ⟨place, member, unwritten⟩
  have still : printed.traced.memory place = 0 := by
    rw [stored.unwritten]
    · exact (zero place member).2
    · intro store stores same
      apply unwritten
      rw [List.mem_toFinset, ← same]
      exact List.mem_map_of_mem stores
  let esi := machine.registers.esi
  let count := (BitVec.ofNat 32 place - esi).toNat
  have there : (esi + BitVec.ofNat 32 count).toNat = place := by
    have bound := (zero place member).1
    rw [BitVec.ofNat_toNat, BitVec.setWidth_eq, BitVec.add_comm,
      BitVec.sub_add_cancel, BitVec.toNat_ofNat, Nat.mod_eq_of_lt bound]
  rcases standsAt_of_zero (there ▸ still) with ⟨text, short, message⟩
  have messageStands :
      StandsAt (colored printed 0x0F esi).traced.memory
        (colored printed 0x0F esi).registers.esi text := message
  have small := (BitVec.ofNat 32 place - esi).isLt
  rcases protectedVgaPrint_ends messageStands
      (Nat.lt_of_le_of_lt short small) with ⟨after, _, second, -, -⟩
  refine ⟨after, ?_⟩
  rw [error_eq, first]
  exact second

/--
A failed check prints something and ends, also where the upper half of `edx` is
not zero, as long as fifteen bytes of memory off the stack are zero.
-/
theorem failed_check_print_ends
    {processor : Processor} {image : Image} {cpu : Cpu} {check : Check}
    {zeros : Finset Nat} (loaded : Loaded image cpu.memory)
    (many : 14 < zeros.card)
    (zero : ∀ place ∈ zeros, place < 2 ^ 32 ∧ ¬ image.Stack place ∧
      cpu.memory place = 0)
    (fails : firstFailure processor cpu = some check) :
    ∃ halted after, start processor image cpu = .error halted ∧
      halted.printed = some after := by
  rcases start_failed loaded.room fails with ⟨halted, stopped, kept, -⟩
  have standing := loaded.unswitched kept
  have still : ∀ place ∈ zeros, place < 2 ^ 32 ∧
      halted.printing.traced.memory place = 0 := by
    intro place member
    rcases zero place member with ⟨low, off, zeroed⟩
    exact ⟨low, (kept.memory place off).trans zeroed⟩
  rcases error_ends standing.errPrefix.stands many still with ⟨after, ends⟩
  exact ⟨_, after, stopped, ends⟩

/-- A string that is found byte by byte. -/
theorem standsAt_of_bytes
    {memory : Memory} {esi : BitVec 32} {text : List (BitVec 8)}
    (bytes : ∀ i, i ≤ text.length →
      memory (esi + BitVec.ofNat 32 i).toNat = text.getD i 0)
    (nonzero : ∀ c ∈ text, c ≠ 0) : StandsAt memory esi text := by
  induction text generalizing esi with
  | nil =>
      have here := bytes 0 (Nat.le_refl 0)
      rwa [BitVec.add_zero] at here
  | cons c rest inductionHypothesis =>
      have here := bytes 0 (Nat.zero_le _)
      rw [BitVec.add_zero] at here
      refine ⟨here, nonzero c List.mem_cons_self, inductionHypothesis ?_ ?_⟩
      · intro i bound
        have shifted := bytes (i + 1) (Nat.succ_le_succ bound)
        rwa [BootVga.add_ofNat_succ] at shifted
      · intro d member
        exact nonzero d (List.mem_cons_of_mem c member)

/-- The strings, each at the start of 256 bytes of its own. -/
def stringsMemory : Memory := fun place =>
  if place / 256 = 0x2000 then errPrefix.getD (place % 256) 0
  else if place / 256 = 0x2001 then
    (Check.text .multiboot).getD (place % 256) 0
  else if place / 256 = 0x2002 then (Check.text .cpuid).getD (place % 256) 0
  else if place / 256 = 0x2003 then
    (Check.text .longSupported).getD (place % 256) 0
  else 0

/-- A string at the start of 256 bytes. -/
theorem standing_of_block
    {memory : Memory} {esi : BitVec 32} {text : List (BitVec 8)}
    (aligned : esi.toNat % 256 = 0) (short : text.length < 256)
    (behind : 0x200000 ≤ esi.toNat)
    (block : ∀ place, place / 256 = esi.toNat / 256 →
      memory place = text.getD (place % 256) 0)
    (nonzero : ∀ c ∈ text, c ≠ 0) : Standing memory esi text := by
  have place : ∀ i, i ≤ text.length →
      (esi + BitVec.ofNat 32 i).toNat = esi.toNat + i := by
    intro i bound
    rw [BitVec.toNat_add, BitVec.toNat_ofNat]
    omega
  constructor
  · apply standsAt_of_bytes _ nonzero
    intro i bound
    have offset : (esi.toNat + i) % 256 = i := by omega
    rw [place i bound, block _ (by omega), offset]
  · intro i bound
    have screen : cellAddress (vgaWidth * vgaHeight) = 0xB8FA0 := rfl
    right
    rw [place i bound, screen]
    omega

/-- What lies behind the stack is off the stack. -/
theorem offStack_of_block
    {image : Image} {esi : BitVec 32} {text : List (BitVec 8)}
    (aligned : esi.toNat % 256 = 0) (short : text.length < 256)
    (behind : image.stackTop.toNat ≤ esi.toNat) : OffStack image esi text := by
  intro i bound
  rw [Image.Stack, BitVec.toNat_add, BitVec.toNat_ofNat]
  omega

theorem errPrefix_short : errPrefix.length < 256 := by
  have fits := (Check.text_fits .cpuid).2.2
  omega

theorem Check.text_short (check : Check) : check.text.length < 256 := by
  have fits := check.text_fits.2.2
  omega

theorem stringsMemory_loaded : Loaded stringsImage stringsMemory where
  room := by decide
  errPrefix := by
    have nonzero : ∀ c ∈ errPrefix, c ≠ 0 :=
      fun c member => (errPrefix_fits.2 c member).2
    have block : ∀ place, place / 256 = 0x2000 →
        stringsMemory place = errPrefix.getD (place % 256) 0 := by
      intro place same
      rw [stringsMemory, if_pos same]
    exact standing_of_block (by decide) errPrefix_short (by decide) block
      nonzero
  errPrefixOff := offStack_of_block (by decide) errPrefix_short (by decide)
  message check := by
    have nonzero : ∀ c ∈ check.text, c ≠ 0 :=
      fun c member => (check.text_fits.2.1 c member).2
    have block : ∀ place,
        place / 256 = (check.message stringsImage).toNat / 256 →
        stringsMemory place = check.text.getD (place % 256) 0 := by
      intro place same
      cases check <;> simp [stringsImage, Check.message] at same <;>
        simp [stringsMemory, same]
    have short := check.text_short
    cases check with
    | multiboot =>
        exact standing_of_block (by decide) short (by decide) block nonzero
    | cpuid =>
        exact standing_of_block (by decide) short (by decide) block nonzero
    | longSupported =>
        exact standing_of_block (by decide) short (by decide) block nonzero
  messageOff check := by
    have short := check.text_short
    cases check with
    | multiboot => exact offStack_of_block (by decide) short (by decide)
    | cpuid => exact offStack_of_block (by decide) short (by decide)
    | longSupported => exact offStack_of_block (by decide) short (by decide)

/-- A processor without long mode. -/
def oldProcessor : Processor where
  idChanges := true
  cpuid := fun _ => ⟨0, 0, 0, 0⟩

/-- Without long mode, and with an empty `edx`, the message is shown. -/
theorem failed_check_shown_oldProcessor :
    firstFailure oldProcessor (loadedCpu stringsMemory) =
      some .longSupported ∧
    ∃ halted after,
      start oldProcessor stringsImage (loadedCpu stringsMemory) =
        .error halted ∧
      Unswitched stringsImage (loadedCpu stringsMemory) halted.cpu ∧
      halted.printed = some after ∧
      Shown halted.cpu.printing after (Check.text .longSupported) := by
  have fails : firstFailure oldProcessor (loadedCpu stringsMemory) =
      some .longSupported := by decide
  rcases failed_check_shown_iff stringsMemory_loaded rfl fails with
    ⟨halted, stopped, kept, shown⟩
  rcases shown.mpr (by decide) with ⟨after, printed, message⟩
  exact ⟨fails, halted, after, stopped, kept, printed, message⟩

end Kernull.BootStart
