import Sp2.Loader.Retries
import Sp2.Machine.Vectors

/-!
`bootstrap.S` from `switch` on: into protected mode.

* `Labels`, `Assembled`: where the data of the first sector are, and what they are.
* `moveGdt`, `loadTable`: `move_gdt`, and `lgdt` and `lidt` in 16-bit code.
* `switch`: the processor behind the long jump to `TARGET_ADDRESS`.

The floppy motor, the A20 gate and the mask of non-maskable interrupts are left out.
-/

namespace Sp2.Loader

open X86

/-- `BOOT_ADDRESS`. -/
def bootAddress : ℕ := 0x7c00

/-- The offsets of `start_gdt`, `gdt_48` and `idt_48` in the first sector. -/
structure Labels where
  startGdt : ℕ
  gdt48 : ℕ
  idt48 : ℕ

/-- A word, and a quadword behind it. -/
def pseudoDescriptor (limit base : UInt16) : List UInt8 :=
  [limit.toUInt8, (limit >>> 8).toUInt8, base.toUInt8, (base >>> 8).toUInt8, 0, 0, 0, 0, 0, 0]

/-- The bytes are at the offset, in front of `boot_sig`. -/
def HasBytes (boot bytes : List UInt8) (offset : ℕ) : Prop :=
  offset + bytes.length ≤ 510 ∧ ∀ i b, bytes[i]? = some b → boot.getD (offset + i) 0 = b

/-- The data of the first sector as they are assembled. -/
structure Assembled (labels : Labels) (boot : List UInt8) : Prop where
  gdt : HasBytes boot gdt labels.startGdt
  gdt48 : HasBytes boot (pseudoDescriptor 0x2000 0x0500) labels.gdt48
  idt48 : HasBytes boot (pseudoDescriptor 0x0800 0x2500) labels.idt48

/-- `move_gdt`. -/
def moveGdt (labels : Labels) (mem : ℕ → UInt8) : ℕ → UInt8 :=
  storeAt gdtAddress.toNat
    ((List.range gdt.length).map fun i => mem (bootAddress + labels.startGdt + i)) mem

/-- What `lgdt` and `lidt` load from an address in 16-bit code: a limit, and 24 bits of a base. -/
def loadTable (mem : ℕ → UInt8) (a : ℕ) : TableRegister where
  limit := UInt16.ofNat ((mem a).toNat + 2 ^ 8 * (mem (a + 1)).toNat)
  base := UInt32.ofNat ((mem (a + 2)).toNat + 2 ^ 8 * (mem (a + 3)).toNat
    + 2 ^ 16 * (mem (a + 4)).toNat)

/-- The processor in protected mode. -/
structure Protected where
  tables : Tables
  mem : Memory
  cs : UInt16
  eip : UInt32

/-- From `switch` to the end of the long jump. -/
def switch (labels : Labels) (mem : ℕ → UInt8) : Protected :=
  let mem := moveGdt labels mem
  { tables :=
      { gdtr := loadTable mem (bootAddress + labels.gdt48)
        idtr := loadTable mem (bootAddress + labels.idt48) }
    mem := fun a => mem a.toNat
    cs := 0x0010
    eip := targetAddress }

/-- The linear address of the next instruction. -/
def Protected.fetchAddress (e : Protected) : UInt32 :=
  (e.tables.descriptor e.mem e.cs).base + e.eip

end Sp2.Loader
