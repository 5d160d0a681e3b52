import Sp2.Lib.X86
import Sp2.Kernel.Syscalls

/-!
The interrupt stubs (`isr_stubs.S`, `ulibs.S`) as instructions, and `_make_proc` (`system.c`) on
memory.

* `Context.words`, `ContextAt`: a `context_t` in memory.
* `isrStub`, `isrSave`, `isrRestore`: entering and leaving an interrupt service routine.
  `enterIsr` and `leaveIsr` add what the hardware does.
* `syscallStub`, `syscallArgs`: a system call, and the pointer `_isr_syscall` passes on.
* `makeProcAt`: the bytes `_make_proc` writes.
-/

namespace Sp2

open Words X86

/-! ### `context_t` -/

/-- The members of `context_t`, in the order of their declaration. -/
def Context.words (c : Context) : List UInt32 :=
  [c.ss, c.gs, c.fs, c.es, c.ds, c.edi, c.esi, c.ebp, c.esp, c.ebx, c.edx, c.ecx, c.eax,
    c.vector, c.code, c.eip, c.cs, c.eflags]

@[simp] lemma Context.length_words (c : Context) : c.words.length = 18 := rfl

/-- `sizeof(context_t)`. -/
abbrev contextSize : ℕ := 72

/-- The `context_t` at an address. -/
def ContextAt (mem : Memory) (a : UInt32) (c : Context) : Prop := WordsAt mem a c.words

/-! ### `isr_stubs.S` -/

/-- The vectors whose stub is made by `ERR_ISR`. -/
def errIsrVectors : List UInt8 := [0x08, 0x0a, 0x0b, 0x0c, 0x0d, 0x0e, 0x11]

/-- `ERR_ISR(vector)` and `ISR(vector)`, up to the jump to `isr_save`. -/
def isrStub (vector : UInt8) : List Instr :=
  if vector ∈ errIsrVectors then [.pushImm vector.toUInt32]
  else [.pushImm 0, .pushImm vector.toUInt32]

/-- The words `isr_save` pushes. -/
def isrSavePushes : List Instr :=
  [.pusha, .pushSeg .ds, .pushSeg .es, .pushSeg .fs, .pushSeg .gs, .pushSeg .ss]

/-- The rest of `isr_save` up to the call of the service routine, which finds its two parameters
on top of the system stack. -/
def isrSaveSwitch (current systemEsp : UInt32) : List Instr :=
  [.load (.abs current) .ebx, .store .esp (.based 0 .ebx), .load (.based 52 .esp) .eax,
    .load (.based 56 .esp) .ebx, .load (.abs systemEsp) .esp, .push .ebx, .push .eax]

/-- `isr_save`. `current` and `systemEsp` are the addresses of `_current` and `_system_esp`. -/
def isrSave (current systemEsp : UInt32) : List Instr :=
  isrSavePushes ++ isrSaveSwitch current systemEsp

/-- `__isr_restore`, up to its `iret`. -/
def isrRestore (current : UInt32) : List Instr :=
  [.load (.abs current) .ebx, .load (.based 0 .ebx) .esp, .popSeg .ss, .popSeg .gs, .popSeg .fs,
    .popSeg .es, .popSeg .ds, .popa, .addImm 8 .esp]

/-- An interrupt through the gate `cs`, `eip`, up to the call of its service routine. -/
def enterIsr (upper : Seg → UInt16) (upperCs : UInt16) (current systemEsp : UInt32)
    (vector : UInt8) (code : UInt32) (cs : UInt16) (eip : UInt32) (m : Cpu) : Cpu :=
  run upper (isrStub vector ++ isrSave current systemEsp) (m.interrupt upperCs vector code cs eip)

/-- The return from an interrupt, from `__isr_restore` on. -/
def leaveIsr (upper : Seg → UInt16) (current : UInt32) (m : Cpu) : Cpu :=
  (run upper (isrRestore current) m).iret

/-! ### System calls -/

/-- `INT_VEC_SYSCALL`. -/
def intVecSyscall : UInt8 := 0x80

/-- `SYSCALL(name)` up to its `int`, for the number of the call. -/
def syscallStub (num : UInt32) : List Instr := [.movImm num .eax]

/-- The second argument of the handler that `_isr_syscall` invokes: the second longword after the
context of `_current`. -/
def syscallArgs (current : UInt32) (mem : Memory) : UInt32 :=
  load32 mem (load32 mem current) + UInt32.ofNat contextSize + 4

/-! ### `_make_proc` -/

/-- `sizeof(pcb_t)`. -/
abbrev pcbSize : ℕ := 24

/-- `sizeof(stack_t)`. -/
abbrev stackSize : ℕ := 4096

/-- `_make_proc`, as the bytes it writes. `exit` is the address of that function, and the context
members are in the order of `context_t`. -/
def makeProcAt (pcb stack fcn exit : UInt32) (level : UInt8) (nextPid : UInt16) (mem : Memory) :
    Memory :=
  let mem := memclr pcb pcbSize mem
  let mem := memclr stack stackSize mem
  let mem := store32 (pcb + 4) stack mem
  let mem := storeUInt16 (pcb + 16) nextPid mem
  let mem := Function.update mem (pcb + 21) level
  let ret := stack + UInt32.ofNat stackSize - 8
  let mem := store32 ret exit mem
  let context := ret - UInt32.ofNat contextSize
  let mem := store32 pcb context mem
  let mem := store32 context 0x20 mem
  let mem := store32 (context + 4) 0x18 mem
  let mem := store32 (context + 8) 0x18 mem
  let mem := store32 (context + 12) 0x18 mem
  let mem := store32 (context + 16) 0x18 mem
  let mem := store32 (context + 64) 0x10 mem
  let mem := store32 (context + 68) Procs.defaultEflags mem
  store32 (context + 60) fcn mem

end Sp2
