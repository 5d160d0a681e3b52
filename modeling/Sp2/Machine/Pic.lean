import Sp2.Lib.Pic
import Sp2.Machine.Vectors

/-!
The interrupt controllers, and what the handlers do to them.

* `outPic`: a write to one of the four ports.
* `initPic`: `init_pic` (`support.c`).
* `Isr`, `Isr.ends`: the handlers of the kernel, and what each of them writes to the controllers.
* `picStep`: devices that request interrupts, the processor that accepts them, handlers that return
  or panic, and system calls, in any order.

Handlers run with interrupts disabled.
-/

namespace Sp2

open I8259

/-! ### `x86arch.h` -/

/-- `PIC_MASTER_CMD_PORT`. -/
def picMasterCmdPort : UInt16 := 0x20

/-- `PIC_MASTER_IMR_PORT`. -/
def picMasterImrPort : UInt16 := 0x21

/-- `PIC_SLAVE_CMD_PORT`. -/
def picSlaveCmdPort : UInt16 := 0xA0

/-- `PIC_SLAVE_IMR_PORT`. -/
def picSlaveImrPort : UInt16 := 0xA1

/-- `PIC_NEEDICW4`. -/
def picNeedIcw4 : UInt8 := 0x01

/-- `PIC_ICW1BASE`. -/
def picIcw1Base : UInt8 := 0x10

/-- `PIC_86MODE`. -/
def pic86Mode : UInt8 := 0x01

/-- `PIC_EOI`. -/
def picEoi : UInt8 := 0x20

/-- `PIC_MASTER_SLAVE_LINE`. -/
def picMasterSlaveLine : UInt8 := 0x04

/-- `PIC_SLAVE_ID`. -/
def picSlaveId : UInt8 := 0x02

/-- The line of the master that the slave is wired to. -/
def slaveLine : Line := 2

/-- The line of the clock. -/
abbrev clockIrq : Irq := .master 0

/-- The line of the serial port. -/
abbrev serialIrq : Irq := .master 4

/-- The line whose vector is 0x28. -/
abbrev rtcIrq : Irq := .slave 0

/-- The line of the disk. -/
abbrev diskIrq : Irq := .slave 6

/-- `__outb`, to the controllers. -/
def outPic (p : Pair) (w : UInt16 × UInt8) : Pair :=
  if w.1 = picMasterCmdPort then { p with master := p.master.outCommand w.2 }
  else if w.1 = picMasterImrPort then { p with master := p.master.outData w.2 }
  else if w.1 = picSlaveCmdPort then { p with slave := p.slave.outCommand w.2 }
  else if w.1 = picSlaveImrPort then { p with slave := p.slave.outData w.2 }
  else p

/-! ### `support.c` -/

/-- The writes of `init_pic`. -/
def initPic : List (UInt16 × UInt8) :=
  [(picMasterCmdPort, picIcw1Base ||| picNeedIcw4), (picSlaveCmdPort, picIcw1Base ||| picNeedIcw4),
    (picMasterImrPort, 0x20), (picSlaveImrPort, 0x28),
    (picMasterImrPort, picMasterSlaveLine), (picSlaveImrPort, picSlaveId),
    (picMasterImrPort, pic86Mode), (picSlaveImrPort, pic86Mode),
    (picMasterImrPort, 0x00), (picSlaveImrPort, 0x00)]

/-- The vector is one of the controllers'. -/
def isPicVector (vector : UInt8) : Bool := 0x20 ≤ vector && vector < 0x30

/-- The ends of interrupts of `__default_expected_handler` and `_ata_isr`. -/
def endOfInterrupt (vector : UInt8) : List (UInt16 × UInt8) :=
  (picMasterCmdPort, picEoi) :: if vector > 0x28 then [(picSlaveCmdPort, picEoi)] else []

/-! ### The handlers -/

/-- The handlers of interrupts: `__default_unexpected_handler`, `__default_expected_handler`,
`__c_keyboard_isr`, `_ata_isr`, `_isr_clock`, `_isr_syscall` and `_isr_sio`. -/
inductive Isr where
  | unexpected
  | expected
  | keyboard
  | ata
  | clock
  | syscall
  | sio
deriving DecidableEq

/-- What a handler that returns has written to the controllers; none if it panics. -/
def Isr.ends (vector : UInt8) : Isr → Option (List (UInt16 × UInt8))
  | .unexpected => none
  | .expected => if isPicVector vector then some (endOfInterrupt vector) else none
  | .ata => some (if isPicVector vector then endOfInterrupt vector else [])
  | .keyboard | .clock | .syscall | .sio => some [(picMasterCmdPort, picEoi)]

/-- The linked address of a handler. -/
def Isr.address (l : Linkage) : Isr → UInt32
  | .unexpected => l.unexpected
  | .expected => l.expected
  | .keyboard => l.keyboardIsr
  | .ata => l.ataIsr
  | .clock => l.isrClock
  | .syscall => l.isrSyscall
  | .sio => l.isrSio

open Linkage in
/-- The handler of each vector after `_init`. -/
def systemIsr (vector : UInt8) : Isr :=
  if vector = intVecTimer then .clock
  else if vector = intVecKeyboard then .keyboard
  else if vector = intVecSerialPort1 then .sio
  else if vector = ataIntVecPriPata then .ata
  else if vector = intVecSyscall then .syscall
  else .unexpected

/-! ### The system -/

/-- The controllers, and the vector that is being handled. -/
structure PicState where
  pics : Pair
  handling : Option UInt8

/-- What may happen. -/
inductive PicEvent where
  /-- A device requests an interrupt. -/
  | raise (q : Irq)
  /-- The processor looks for an interrupt before its next instruction. -/
  | accept
  /-- The running process makes a system call. -/
  | call
  /-- The handler returns. -/
  | finish
deriving DecidableEq

/-- A handler has panicked. -/
inductive PicHalt where
  | panic

/-- Interrupts and calls, with these handlers installed. -/
def picStep (table : UInt8 → Isr) (s : PicState) : PicEvent → Except PicHalt PicState
  | .raise q => .ok { s with pics := s.pics.raise q }
  | .accept =>
      match s.handling, s.pics.accept slaveLine with
      | none, some (vector, pics) => .ok ⟨pics, some vector⟩
      | _, _ => .ok s
  | .call => .ok { s with handling := s.handling <|> some intVecSyscall }
  | .finish =>
      match s.handling with
      | none => .ok s
      | some vector =>
          match (table vector).ends vector with
          | none => .error .panic
          | some writes => .ok ⟨writes.foldl outPic s.pics, none⟩

/-- No device is on the line of the slave. -/
def OnLines (_ : PicState) (e : PicEvent) : Prop := e ≠ .raise (.master slaveLine)

instance (s : PicState) (e : PicEvent) : Decidable (OnLines s e) :=
  inferInstanceAs (Decidable (_ ≠ _))

end Sp2
