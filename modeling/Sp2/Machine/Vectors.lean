import Sp2.Lib.Descriptors
import Sp2.Machine.Stubs

/-!
The tables an interrupt goes through: the global descriptor table (`bootstrap.S`), and the
interrupt descriptor table and the table of handlers (`support.c`).

* `gdt`, `tables`: the descriptors, and what `lgdt` and `lidt` load.
* `setIdtEntry`, `installIsr`, `initIdt`: filling in the two tables of interrupts.
* `initVectors`: all installations of `_init` (`system.c`) and `c_io_init` (`c_io.c`).
* `callee`: the call at the end of `isr_save`.

The linker chooses the addresses of the tables, the stubs and the handlers: `Linkage` has them.
-/

namespace Sp2

open Words X86

/-! ### `bootstrap.S` and `bootstrap.h` -/

/-- `GDT_ADDRESS`. -/
def gdtAddress : UInt32 := 0x500

/-- `IDT_ADDRESS`. -/
def idtAddress : UInt32 := 0x2500

/-- `TARGET_ADDRESS`. -/
def targetAddress : UInt32 := 0x10000

/-- A descriptor for all of memory, with its access byte. -/
def flatDescriptor (access : UInt8) : List UInt8 := [0xff, 0xff, 0, 0, 0, access, 0xcf, 0]

/-- The table from `start_gdt` to `end_gdt`. -/
def gdt : List UInt8 :=
  List.replicate 8 0 ++ flatDescriptor 0x92 ++ flatDescriptor 0x9a ++ flatDescriptor 0x92
    ++ flatDescriptor 0x92

/-- `gdt_48` and `idt_48`. -/
def tables : Tables where
  gdtr := ⟨0x2000, gdtAddress⟩
  idtr := ⟨0x0800, idtAddress⟩

/-- The global descriptor table is where `move_gdt` has put it. -/
def GdtAt (mem : Memory) : Prop :=
  ∀ i b, gdt[i]? = some b → mem (gdtAddress + UInt32.ofNat i) = b

/-! ### `support.c` -/

/-- `IDT_PRESENT`, `IDT_DPL_0` and `IDT_INT32_GATE`. -/
def idtFlags : UInt16 := 0x8000 ||| 0x0000 ||| 0x0e00

/-- `set_idt_entry`. -/
def setIdtEntry (entry : UInt8) (handler : UInt32) (mem : Memory) : Memory :=
  let g := idtAddress + UInt32.ofNat (8 * entry.toNat)
  let mem := storeUInt16 g (handler &&& 0xffff).toUInt16 mem
  let mem := storeUInt16 (g + 2) 0x0010 mem
  let mem := storeUInt16 (g + 4) idtFlags mem
  storeUInt16 (g + 6) (handler.toInt32 >>> 16 &&& 0xffff).toUInt32.toUInt16 mem

/-- The addresses of the linked program. -/
structure Linkage where
  /-- `__isr_table`. -/
  isrTable : UInt32
  /-- The entries of `__isr_stub_table`. -/
  stub : UInt8 → UInt32
  /-- `__default_unexpected_handler`. -/
  unexpected : UInt32
  /-- `__default_expected_handler`. -/
  expected : UInt32
  /-- `__c_keyboard_isr`. -/
  keyboardIsr : UInt32
  /-- `_ata_isr`. -/
  ataIsr : UInt32
  /-- `_isr_clock`. -/
  isrClock : UInt32
  /-- `_isr_syscall`. -/
  isrSyscall : UInt32
  /-- `_isr_sio`. -/
  isrSio : UInt32

namespace Linkage

variable (l : Linkage)

/-- The entry of `__isr_table` for a vector. -/
def slot (vector : UInt8) : UInt32 := l.isrTable + UInt32.ofNat (4 * vector.toNat)

/-- `__install_isr`: the old handler, and memory with the new one. -/
def installIsr (vector : UInt8) (handler : UInt32) (mem : Memory) : UInt32 × Memory :=
  (load32 mem (l.slot vector), store32 (l.slot vector) handler mem)

/-- One round of the loop of `init_idt`. -/
def initRound (mem : Memory) (i : ℕ) : Memory :=
  (l.installIsr (UInt8.ofNat i) l.unexpected
    (setIdtEntry (UInt8.ofNat i) (l.stub (UInt8.ofNat i)) mem)).2

/-- `INT_VEC_KEYBOARD`. -/
def intVecKeyboard : UInt8 := 0x21

/-- `INT_VEC_TIMER`. -/
def intVecTimer : UInt8 := 0x20

/-- `ATA_INT_VEC_PRI_PATA`. -/
def ataIntVecPriPata : UInt8 := 0x2e

/-- `INT_VEC_SERIAL_PORT_1`. -/
def intVecSerialPort1 : UInt8 := 0x24

/-- Installations one after another, whatever they return. -/
def install (handlers : List (UInt8 × UInt32)) (mem : Memory) : Memory :=
  handlers.foldl (fun mem h => (l.installIsr h.1 h.2 mem).2) mem

/-- `init_idt`. -/
def initIdt (mem : Memory) : Memory :=
  l.install [(intVecKeyboard, l.expected), (intVecTimer, l.expected)]
    ((List.range 256).foldl l.initRound mem)

/-- The installations of `c_io_init` and `_init`, in their order. -/
def systemHandlers : List (UInt8 × UInt32) :=
  [(intVecKeyboard, l.keyboardIsr), (ataIntVecPriPata, l.ataIsr), (intVecTimer, l.isrClock),
    (intVecSyscall, l.isrSyscall), (intVecSerialPort1, l.isrSio)]

/-- What `_init` makes of the tables. -/
def initVectors (mem : Memory) : Memory := l.install l.systemHandlers (l.initIdt mem)

/-- The function that `isr_save` calls: `__isr_table(,%eax,4)`. -/
def callee (m : Cpu) : UInt32 := load32 m.mem (l.isrTable + 4 * m.reg .eax)

end Linkage

end Sp2
