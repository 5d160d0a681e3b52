import Mathlib.Logic.Function.Basic
import Mathlib.Tactic.Common

/-!
The serial module (`sio.c`), apart from its interrupt routine.

* `SioBuffer`: a character buffer with the two pointers into it and its count, the shape
  of both `_inbuffer` and `_outbuffer`; `put` and `get` are `*last++ = ch; ++count` and
  `ch = *next++; --count`.
* `Sio`: the variables of the module and what it has sent to the device.
* `sioRead`, `sioWrite`, `sioEnable`: the functions of the module.
* `txInterrupt`: the transmitter branch of `_isr_sio`.
-/

namespace Sp2

/-- `BUF_SIZE`. -/
abbrev bufSize : ℕ := 1024

/-- `'\n'`. -/
def lineFeed : UInt8 := 10

/-- `'\r'`. -/
def carriageReturn : UInt8 := 13

/-- A character buffer: its bytes, the offsets of its `last` and `next` pointers, and its
count. `overrun` is a history variable that no function reads: a store through `last` has
fallen outside. What lies there is not part of the model, so such a store is lost. -/
structure SioBuffer where
  data : Fin bufSize → UInt8
  last : ℕ
  next : ℕ
  count : UInt32
  overrun : Bool

namespace SioBuffer

/-- A cleared buffer. -/
def init : SioBuffer := ⟨fun _ => 0, 0, 0, 0, false⟩

/-- `*last++ = ch; ++count`. -/
def put (ch : UInt8) (b : SioBuffer) : SioBuffer where
  data := if h : b.last < bufSize then Function.update b.data ⟨b.last, h⟩ ch else b.data
  last := b.last + 1
  next := b.next
  count := b.count + 1
  overrun := b.overrun || decide (bufSize ≤ b.last)

/-- `*next`. -/
def peek (b : SioBuffer) : UInt8 := if h : b.next < bufSize then b.data ⟨b.next, h⟩ else 0

/-- `next++; --count`. -/
def drop (b : SioBuffer) : SioBuffer := { b with next := b.next + 1, count := b.count - 1 }

/-- `last = next = buffer`. -/
def rewind (b : SioBuffer) : SioBuffer := { b with last := 0, next := 0 }

end SioBuffer

/-- The variables of `sio.c`, and the bytes written to the transmitter, the latest
first. -/
structure Sio where
  inbuffer : SioBuffer
  outbuffer : SioBuffer
  sending : Bool
  ier : UInt8
  txd : List UInt8

namespace Sio

/-- `_sio_init`. -/
def init : Sio := ⟨.init, .init, false, 0, []⟩

/-- `_sio_enable`: switch the transmitter and the receiver interrupts on or off. -/
def sioEnable (xmit rcv : Bool) (s : Sio) : UInt8 × Sio :=
  let ier := if xmit then s.ier ||| 0x02 else s.ier &&& ~~~ 0x02
  let ier := if rcv then ier ||| 0x01 else ier &&& ~~~ 0x01
  (s.ier, { s with ier := ier })

/-- `_sio_read`: the next input character, none standing for `-1`. -/
def sioRead (s : Sio) : Option UInt8 × Sio :=
  if 0 < s.inbuffer.count then
    let ch := s.inbuffer.peek
    let b := s.inbuffer.drop
    (some ch, { s with inbuffer := if b.count < 1 then b.rewind else b })
  else (none, s)

/-- `__outb( UA4_TXD, ch )`. -/
def outTxd (ch : UInt8) (s : Sio) : Sio := { s with txd := ch :: s.txd }

/-- The part of `_sio_write` behind the LF test: to the buffer while a transmission is
on, else to the device. -/
def sioSend (ch : UInt8) (s : Sio) : Sio :=
  if s.sending then { s with outbuffer := s.outbuffer.put ch }
  else ({ s with sending := true }).outTxd ch

/-- `_sio_write`: write a character, a LF as CR LF. The inner call is for a CR, for which
the LF test fails. -/
def sioWrite (ch : UInt32) (s : Sio) : Sio :=
  let s := if ch = lineFeed.toUInt32 then s.sioSend carriageReturn else s
  s.sioSend ch.toUInt8

/-- The transmitter branch of `_isr_sio`. -/
def txInterrupt (s : Sio) : Sio :=
  if s.sending && decide (0 < s.outbuffer.count) then
    { (s.outTxd s.outbuffer.peek) with outbuffer := s.outbuffer.drop }
  else { s with outbuffer := { s.outbuffer.rewind with count := 0 }, sending := false }

end Sio

end Sp2
