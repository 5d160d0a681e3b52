import Sp2.Devices.Printf

/-!
The keyboard (`c_io.c`): scan codes, the input buffer, `c_getchar` and `c_gets`.

* `scanCode`: the characters of the keys.
* `Keyboard`: the modifiers and the input buffer; `Keyboard.inputScanCode` stores a character.
* `KeyboardState`: the keyboard and a caller of `c_getchar`, with the statement that it is at.
* `keyboardStep`: a statement of `c_getchar`, or an interrupt between two of them.
* `GetsState`, `getsStep`: the same with a caller of `c_gets`.

A pointer into the input buffer is its offset there. The handler of the interrupt is not interrupted
itself; what it tells the interrupt controller has no part here.
-/

namespace Sp2

/-! ### Scan codes -/

/-- `scan_code`: the row without and the one with a shift key. -/
def scanCode (shift : Bool) : List Char :=
  if shift then
    ['\xff', '\x1b', '!', '@', '#', '$', '%', '^',
     '&', '*', '(', ')', '_', '+', '\x08', '\t',
     'Q', 'W', 'E', 'R', 'T', 'Y', 'U', 'I',
     'O', 'P', '{', '}', '\n', '\xff', 'A', 'S',
     'D', 'F', 'G', 'H', 'J', 'K', 'L', ':',
     '\x22', '~', '\xff', '|', 'Z', 'X', 'C', 'V',
     'B', 'N', 'M', '<', '>', '?', '\xff', '*',
     '\xff', ' ', '\xff', '\xff', '\xff', '\xff', '\xff', '\xff',
     '\xff', '\xff', '\xff', '\xff', '\xff', '\xff', '\xff', '7',
     '8', '9', '-', '4', '5', '6', '+', '1',
     '2', '3', '0', '.', '\xff', '\xff', '\xff', '\xff',
     '\xff', '\xff', '\xff', '\xff', '\xff', '\xff', '\xff', '\xff',
     '\xff', '\xff', '\xff', '\xff', '\xff', '\xff', '\xff', '\xff',
     '\xff', '\xff', '\xff', '\xff', '\xff', '\xff', '\xff', '\xff',
     '\xff', '\xff', '\xff', '\xff', '\xff', '\xff', '\xff', '\xff',
     '\xff', '\xff', '\xff', '\xff', '\xff', '\xff', '\xff', '\xff']
  else
    ['\xff', '\x1b', '1', '2', '3', '4', '5', '6',
     '7', '8', '9', '0', '-', '=', '\x08', '\t',
     'q', 'w', 'e', 'r', 't', 'y', 'u', 'i',
     'o', 'p', '[', ']', '\n', '\xff', 'a', 's',
     'd', 'f', 'g', 'h', 'j', 'k', 'l', ';',
     '\x27', '\x60', '\xff', '\x5c', 'z', 'x', 'c', 'v',
     'b', 'n', 'm', ',', '.', '/', '\xff', '*',
     '\xff', ' ', '\xff', '\xff', '\xff', '\xff', '\xff', '\xff',
     '\xff', '\xff', '\xff', '\xff', '\xff', '\xff', '\xff', '7',
     '8', '9', '-', '4', '5', '6', '+', '1',
     '2', '3', '0', '.', '\xff', '\xff', '\xff', '\xff',
     '\xff', '\xff', '\xff', '\xff', '\xff', '\xff', '\xff', '\xff',
     '\xff', '\xff', '\xff', '\xff', '\xff', '\xff', '\xff', '\xff',
     '\xff', '\xff', '\xff', '\xff', '\xff', '\xff', '\xff', '\xff',
     '\xff', '\xff', '\xff', '\xff', '\xff', '\xff', '\xff', '\xff',
     '\xff', '\xff', '\xff', '\xff', '\xff', '\xff', '\xff', '\xff']

/-- `scan_code[ shift ][ code ]`: an `unsigned char` as an `int`. -/
def scanCodeAt (shift : Bool) (code : Int32) : Int32 :=
  (((scanCode shift)[code.toInt.toNat]?).map ascii |>.getD 0).toUInt32.toInt32

/-- A `char`, which is signed, as an `int`. -/
def charToInt (ch : UInt8) : Int32 := ch.toInt8.toInt32

/-- `'\377'`, which is an `int`. -/
def noChar : Int32 := charToInt 0xff

/-- `EOT`. -/
def eot : UInt8 := 0x04

/-! ### The input buffer -/

/-- `C_BUFSIZE`. -/
def cBufsize : ℕ := 200

/-- The variables of the keyboard. `codes`, `stored` and `discarded` are history variables that no
routine reads: the scan codes that have been received, and the characters that have been stored and
those for which there was no room. -/
structure Keyboard where
  shift : Bool
  ctrlMask : Int32
  inputBuffer : ℕ → UInt8
  nextChar : ℕ
  nextSpace : ℕ
  codes : List Int32
  stored : List UInt8
  discarded : List UInt8

namespace Keyboard

/-- `__c_increment`. -/
def increment (pointer : ℕ) : ℕ := if pointer + 1 ≥ cBufsize then 0 else pointer + 1

/-- A character is stored only if there is room. -/
def put (code : Int32) (k : Keyboard) : Keyboard :=
  let next := increment k.nextSpace
  if next ≠ k.nextChar then
    { k with
      inputBuffer := Function.update k.inputBuffer k.nextSpace (intToChar (code &&& k.ctrlMask))
      nextSpace := next
      stored := k.stored ++ [intToChar (code &&& k.ctrlMask)] }
  else { k with discarded := k.discarded ++ [intToChar (code &&& k.ctrlMask)] }

/-- `__c_input_scan_code`. -/
def inputScanCode (code : Int32) (k : Keyboard) : Keyboard :=
  let k := { k with codes := k.codes ++ [code] }
  let code := code &&& 0xff
  if code = 0x2a ∨ code = 0x36 then { k with shift := true }
  else if code = 0xaa ∨ code = 0xb6 then { k with shift := false }
  else if code = 0x1d then { k with ctrlMask := 0x1f }
  else if code = 0x9d then { k with ctrlMask := 0xff }
  else if code &&& 0x80 = 0 then
    let code := scanCodeAt k.shift code
    if code ≠ noChar then k.put code else k
  else k

/-- `c_input_queue`. -/
def inputQueue (k : Keyboard) : ℤ :=
  let nChars : ℤ := k.nextSpace - k.nextChar
  if nChars < 0 then nChars + cBufsize else nChars

end Keyboard

/-! ### `c_getchar` -/

/-- The next statement of `c_getchar`, with its variables. -/
inductive GetcharPoint
  | outside
  | test (interruptsEnabled : Bool)
  | status
  | data
  | take
  | increment (c : UInt8)
  | advance (c : UInt8) (pointer : ℕ)
  | echo (c : UInt8)
  | done (c : UInt8)
  deriving DecidableEq

/-- The keyboard, the console, the interrupt flag and a caller of `c_getchar`. `returned` is a
history variable: what `c_getchar` has returned. -/
structure KeyboardState extends Keyboard where
  console : Console
  interrupts : Bool
  point : GetcharPoint
  returned : List Int32

/-- What happens next: a keyboard interrupt, with the byte at the data port, a call of `c_getchar`,
before which its caller may have set the interrupt flag, or its next statement, with what a port
that the statement reads is at. -/
inductive KeyboardEvent
  | interrupt (code : Int32)
  | setInterrupts (enabled : Bool)
  | call
  | run (io : Int32)

namespace KeyboardState

/-- The next statement of `c_getchar`. The character that is returned is an `int`. -/
def getchar (io : Int32) (s : KeyboardState) : KeyboardState :=
  match s.point with
  | .outside => s
  | .test interruptsEnabled =>
      if s.nextChar = s.nextSpace then
        if interruptsEnabled = false then { s with point := .status } else s
      else { s with point := .take }
  | .status => if io &&& 0x1 = 0 then s else { s with point := .data }
  | .data => { s with toKeyboard := s.inputScanCode io, point := .test false }
  | .take =>
      { s with point := .increment (intToChar (charToInt (s.inputBuffer s.nextChar) &&& 0xff)) }
  | .increment c => { s with point := .advance c (Keyboard.increment s.nextChar) }
  | .advance c pointer => { s with nextChar := pointer, point := .echo c }
  | .echo c =>
      if c ≠ eot then
        { s with console := s.console.putchar (Console.charToUInt32 c), point := .done c }
      else { s with point := .done c }
  | .done c => { s with returned := s.returned ++ [charToInt c], point := .outside }

/-- What an event does. -/
def after (s : KeyboardState) : KeyboardEvent → KeyboardState
  | .interrupt code => { s with toKeyboard := s.inputScanCode code }
  | .setInterrupts enabled => { s with interrupts := enabled }
  | .call => { s with point := .test s.interrupts }
  | .run io => s.getchar io

end KeyboardState

/-- An interrupt comes if interrupts are enabled. There is one caller, who sets the interrupt flag
outside `c_getchar`. -/
def KeyboardAllowed (s : KeyboardState) : KeyboardEvent → Prop
  | .interrupt _ => s.interrupts = true
  | .setInterrupts _ | .call => s.point = .outside
  | .run _ => s.point ≠ .outside

instance (s : KeyboardState) : (e : KeyboardEvent) → Decidable (KeyboardAllowed s e)
  | .interrupt _ => inferInstanceAs (Decidable (s.interrupts = true))
  | .setInterrupts _ | .call => inferInstanceAs (Decidable (s.point = .outside))
  | .run _ => inferInstanceAs (Decidable (s.point ≠ .outside))

/-- A step of the keyboard and its caller: it never stops. -/
def keyboardStep (s : KeyboardState) (e : KeyboardEvent) : Except Empty KeyboardState :=
  .ok (s.after e)

/-- Nothing has been typed, and `c_getchar` has not been called. -/
structure KeyboardInitial (s : KeyboardState) : Prop where
  shift : s.shift = false
  ctrlMask : s.ctrlMask = 0xff
  nextChar : s.nextChar = 0
  nextSpace : s.nextSpace = 0
  codes : s.codes = []
  stored : s.stored = []
  discarded : s.discarded = []
  point : s.point = .outside
  returned : s.returned = []

/-! ### `c_gets` -/

/-- The next statement of `c_gets`, with the character that `c_getchar` has returned. -/
inductive GetsPoint
  | outside
  | test
  | getchar
  | got (ch : UInt8)
  | finish
  deriving DecidableEq

/-- A call of `c_gets`, with the memory and what `c_getchar` has returned when it was made. -/
structure GetsCall where
  buffer : UInt32
  size : UInt32
  mem : Memory
  returned : List Int32

/-- The keyboard with a caller of `c_gets`, who may call `c_getchar` too, and the memory that the
buffers lie in. `entered` and `counts` are history variables: the latest call, and what the calls
have returned. -/
structure GetsState extends KeyboardState where
  mem : Memory
  buffer : UInt32
  size : UInt32
  count : Int32
  gets : GetsPoint
  entered : GetsCall
  counts : List Int32

/-- What happens next: an event of the keyboard or a statement of `c_getchar`, a call of `c_gets`,
or its next statement. -/
inductive GetsEvent
  | keyboard (e : KeyboardEvent)
  | gets (buffer size : UInt32)
  | next

namespace GetsState

/-- The next statement of `c_gets`. -/
def cGets (s : GetsState) : GetsState :=
  match s.gets with
  | .outside | .getchar => s
  | .test =>
      if s.size > 1 then
        { s with toKeyboardState := s.toKeyboardState.after .call, gets := .getchar }
      else { s with gets := .finish }
  | .got ch =>
      if ch = eot then { s with gets := .finish }
      else
        let s := { s with
          mem := Function.update s.mem s.buffer ch
          buffer := s.buffer + 1
          count := s.count + 1
          size := s.size - 1 }
        if ch = ascii '\n' then { s with gets := .finish } else { s with gets := .test }
  | .finish =>
      { s with
        mem := Function.update s.mem s.buffer 0
        gets := .outside
        counts := s.counts ++ [s.count] }

/-- What an event does. Where `c_getchar` returns to `c_gets`, its `int` becomes a `char`. -/
def after (s : GetsState) : GetsEvent → GetsState
  | .keyboard e =>
      let s' := { s with toKeyboardState := s.toKeyboardState.after e }
      match s.gets, s.point, e with
      | .getchar, .done c, .run _ => { s' with gets := .got (intToChar (charToInt c)) }
      | _, _, _ => s'
  | .gets buffer size =>
      { s with
        buffer := buffer
        size := size
        count := 0
        gets := .test
        entered := ⟨buffer, size, s.mem, s.returned⟩ }
  | .next => s.cGets

end GetsState

/-- There is one caller, who makes a call when the one before has returned. -/
def GetsAllowed (s : GetsState) : GetsEvent → Prop
  | .keyboard (.setInterrupts enabled) =>
      s.gets = .outside ∧ KeyboardAllowed s.toKeyboardState (.setInterrupts enabled)
  | .keyboard .call => s.gets = .outside ∧ KeyboardAllowed s.toKeyboardState .call
  | .keyboard e => KeyboardAllowed s.toKeyboardState e
  | .gets _ _ => s.gets = .outside ∧ s.point = .outside
  | .next => s.gets ≠ .outside ∧ s.gets ≠ .getchar

instance (s : GetsState) : (e : GetsEvent) → Decidable (GetsAllowed s e)
  | .keyboard (.interrupt code) =>
      inferInstanceAs (Decidable (KeyboardAllowed s.toKeyboardState (.interrupt code)))
  | .keyboard (.setInterrupts _) | .keyboard .call | .gets _ _ | .next =>
      inferInstanceAs (Decidable (_ ∧ _))
  | .keyboard (.run io) =>
      inferInstanceAs (Decidable (KeyboardAllowed s.toKeyboardState (.run io)))

/-- A step of the keyboard and the caller of `c_gets`: it never stops. -/
def getsStep (s : GetsState) (e : GetsEvent) : Except Empty GetsState := .ok (s.after e)

end Sp2
