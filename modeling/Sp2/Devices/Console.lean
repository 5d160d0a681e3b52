import Mathlib.Logic.Function.Basic
import Mathlib.Tactic.Common

/-!
The console (`c_io.c`): the routines that write to the video memory.

* `Window`: the variables of the module, in words of 32 bits that may wrap around.
* `Screen`: the words of the video memory, and the addresses that have been stored through.
* `Window.putcharAt`, `fillCells`, `copyCells`: the stores.
* `Console.putchar`, `Console.puts`, `Console.scroll`, ...: the routines of `c_io.h`.

A loop over columns or lines has as fuel the number of values its counter has up to the limit.
-/

namespace Sp2

/-! ### The screen -/

/-- `SCREEN_MIN_X` and `SCREEN_MIN_Y`. -/
def screenMin : UInt32 := 0

/-- `SCREEN_X_SIZE`. -/
abbrev screenXSize : UInt32 := 80

/-- `SCREEN_Y_SIZE`. -/
abbrev screenYSize : UInt32 := 25

/-- `SCREEN_MAX_X`. -/
def screenMaxX : UInt32 := screenXSize - 1

/-- `SCREEN_MAX_Y`. -/
def screenMaxY : UInt32 := screenYSize - 1

/-- `VIDEO_BASE_ADDR`. -/
abbrev videoBaseAddr : UInt32 := 0xb8000

/-- `VIDEO_ADDR`. -/
def videoAddr (x y : UInt32) : UInt32 := videoBaseAddr + 2 * (y * screenXSize + x)

/-- `' ' | 0x0700`. -/
def blankCell : UInt16 := 0x0720

/-- The video memory. `stores` is a history variable that no routine reads: the addresses
that have been stored through, the latest first. -/
structure Screen where
  video : UInt32 → UInt16
  stores : List UInt32

/-- `*addr = v`. -/
def Screen.store (addr : UInt32) (v : UInt16) (s : Screen) : Screen :=
  { video := Function.update s.video addr v, stores := addr :: s.stores }

/-- `*to++ = ' ' | 0x0700`, so many times. -/
def fillCells (dst : UInt32) : ℕ → Screen → Screen
  | 0, s => s
  | n + 1, s => fillCells (dst + 2) n (s.store dst blankCell)

/-- `*to++ = *from++`, so many times. -/
def copyCells (dst src : UInt32) : ℕ → Screen → Screen
  | 0, s => s
  | n + 1, s => copyCells (dst + 2) (src + 2) n (s.store dst (s.video src))

/-! ### The module's variables -/

/-- The variables of the module, and the location register of the cursor. -/
structure Window where
  scrollMinX : UInt32
  scrollMinY : UInt32
  scrollMaxX : UInt32
  scrollMaxY : UInt32
  currX : UInt32
  currY : UInt32
  minX : UInt32
  minY : UInt32
  maxX : UInt32
  maxY : UInt32
  location : UInt16
  deriving DecidableEq

/-- The module and the video memory. -/
structure Console extends Window, Screen

/-- `bound`: confine an argument within given bounds. -/
def bound (min value max : UInt32) : UInt32 :=
  let value := if value < min then min else value
  if value > max then max else value

namespace Window

/-- `__c_setcursor`: the two bytes of the location are written to the controller. -/
def setcursor (w : Window) : Window :=
  let y := if w.currY > w.scrollMaxY then w.scrollMaxY else w.currY
  let addr := y * screenXSize + w.currX
  { w with location := addr.toUInt16 }

/-- `__c_putchar_at`: physical output to the video memory, with the attributes in the character
if there are any. -/
def putcharAt (w : Window) (x y c : UInt32) (s : Screen) : Screen :=
  if x ≤ w.maxX ∧ y ≤ w.maxY then
    s.store (videoAddr x y) (if c > 0xff then c.toUInt16 else c.toUInt16 ||| 0x0700)
  else s

/-- `while( x <= limit )`: blanks in line `y`. -/
def blanksAt (w : Window) (y limit : UInt32) : ℕ → UInt32 → Screen → Screen
  | 0, _, s => s
  | fuel + 1, x, s =>
      if x ≤ limit then blanksAt w y limit fuel (x + 1) (w.putcharAt x y 0x20 s) else s

/-- The loop of `c_clearscroll` from line `l` on. -/
def clearLines (w : Window) (nchars : ℕ) : ℕ → UInt32 → Screen → Screen
  | 0, _, s => s
  | fuel + 1, l, s =>
      if l ≤ w.scrollMaxY then
        clearLines w nchars fuel (l + 1) (fillCells (videoAddr w.scrollMinX l) nchars s)
      else s

/-- The first loop of `c_scroll`, with the line at which it ends. -/
def copyLines (w : Window) (lines : UInt32) (nchars : ℕ) : ℕ → UInt32 → Screen → UInt32 × Screen
  | 0, line, s => (line, s)
  | fuel + 1, line, s =>
      if line ≤ w.scrollMaxY - lines then
        copyLines w lines nchars fuel (line + 1)
          (copyCells (videoAddr w.scrollMinX line) (videoAddr w.scrollMinX (line + lines)) nchars s)
      else (line, s)

end Window

namespace Console

/-! ### The routines -/

/-- `c_setscroll`. -/
def setscroll (sMinX sMinY sMaxX sMaxY : UInt32) (s : Console) : Console :=
  let s := { s with scrollMinX := bound s.minX sMinX s.maxX }
  let s := { s with scrollMinY := bound s.minY sMinY s.maxY }
  let s := { s with scrollMaxX := bound s.scrollMinX sMaxX s.maxX }
  let s := { s with scrollMaxY := bound s.scrollMinY sMaxY s.maxY }
  let s := { s with currX := s.scrollMinX, currY := s.scrollMinY }
  { s with toWindow := s.setcursor }

/-- `c_moveto`. -/
def moveto (x y : UInt32) (s : Console) : Console :=
  let s := { s with currX := bound s.scrollMinX (x + s.scrollMinX) s.scrollMaxX }
  let s := { s with currY := bound s.scrollMinY (y + s.scrollMinY) s.scrollMaxY }
  { s with toWindow := s.setcursor }

/-- `c_putchar_at`. -/
def putcharAt (x y c : UInt32) (s : Console) : Console :=
  if c &&& 0x7f = 0x0a then
    let limit :=
      if x > s.scrollMaxX then s.maxX
      else if x ≥ s.scrollMinX then s.scrollMaxX
      else s.scrollMinX - 1
    { s with toScreen := s.toWindow.blanksAt y limit (limit.toNat + 1) x s.toScreen }
  else { s with toScreen := s.toWindow.putcharAt x y c s.toScreen }

/-- The conversion of a `char`, which is signed, to `unsigned int`. -/
def charToUInt32 (ch : UInt8) : UInt32 := ch.toInt8.toInt32.toUInt32

/-- `c_puts_at`, with the bytes of the string. -/
def putsAt (x y : UInt32) : List UInt8 → Console → Console
  | [], s => s
  | ch :: str, s =>
      if ch ≠ 0 ∧ x ≤ s.maxX then putsAt (x + 1) y str (s.putcharAt x y (charToUInt32 ch)) else s

/-- `c_clearscroll`. -/
def clearscroll (s : Console) : Console :=
  let nchars := s.scrollMaxX - s.scrollMinX + 1
  { s with toScreen :=
      s.toWindow.clearLines nchars.toNat (s.scrollMaxY.toNat + 1) s.scrollMinY s.toScreen }

/-- `c_clearscreen`. -/
def clearscreen (s : Console) : Console :=
  let nchars := (s.maxY - s.minY + 1) * (s.maxX - s.minX + 1)
  { s with toScreen := fillCells (videoAddr s.minX s.minY) nchars.toNat s.toScreen }

/-- `c_scroll`. The number of characters in a line is an `int`. -/
def scroll (lines : UInt32) (s : Console) : Console :=
  let nchars := (s.scrollMaxX - s.scrollMinX + 1).toInt32.toInt.toNat
  if lines > s.scrollMaxY - s.scrollMinY then
    let s := s.clearscroll
    let s := { s with currX := s.scrollMinX, currY := s.scrollMinY }
    { s with toWindow := s.setcursor }
  else
    let r := s.toWindow.copyLines lines nchars (s.scrollMaxY.toNat + 1) s.scrollMinY s.toScreen
    { s with toScreen := s.toWindow.clearLines nchars (s.scrollMaxY.toNat + 1) r.1 r.2 }

/-- The loop of `c_putchar` that erases to the end of the line and moves the cursor there. -/
def eraseLine : ℕ → Console → Console
  | 0, s => s
  | fuel + 1, s =>
      if s.currX ≤ s.scrollMaxX then
        let s := { s with toScreen := s.toWindow.putcharAt s.currX s.currY 0x20 s.toScreen }
        eraseLine fuel { s with currX := s.currX + 1 }
      else s

/-- `c_putchar`: a scroll that was delayed is made up for first. -/
def putchar (c : UInt32) (s : Console) : Console :=
  let s :=
    if s.currY > s.scrollMaxY then
      let s := s.scroll (s.currY - s.scrollMaxY)
      { s with currY := s.scrollMaxY }
    else s
  let s :=
    if c &&& 0xff = 0x0a then
      let s := s.eraseLine (s.scrollMaxX.toNat + 1)
      { s with currX := s.scrollMinX, currY := s.currY + 1 }
    else if c &&& 0xff = 0x0d then { s with currX := s.scrollMinX }
    else
      let s := { s with toScreen := s.toWindow.putcharAt s.currX s.currY c s.toScreen }
      let s := { s with currX := s.currX + 1 }
      if s.currX > s.scrollMaxX then { s with currX := s.scrollMinX, currY := s.currY + 1 } else s
  { s with toWindow := s.setcursor }

/-- `c_puts`, with the bytes of the string. -/
def puts : List UInt8 → Console → Console
  | [], s => s
  | ch :: str, s => if ch ≠ 0 then puts str (s.putchar (charToUInt32 ch)) else s

/-- `c_io_init`, without the keyboard. -/
def ioInit (s : Console) : Console :=
  let s := { s with minX := screenMin, minY := screenMin, maxX := screenMaxX, maxY := screenMaxY }
  let s := { s with scrollMinX := screenMin, scrollMinY := screenMin }
  let s := { s with scrollMaxX := screenMaxX, scrollMaxY := screenMaxY }
  let s := { s with currY := s.minY, currX := s.minX }
  { s with toWindow := s.setcursor }

end Console

end Sp2
