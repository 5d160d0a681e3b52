import Sp2.Devices.Console
import Sp2.Kernel.SharedMem

/-!
Formatted output (`c_io.c`): the conversions of numbers and `c_printf`.

* `cvtdec`, `cvthex`, `cvtoct`: the characters of a number are stored into a buffer. An `int` is an
  `Int32`, and a shift to the right copies its sign.
* `Printer`: the console, and the characters that have been passed to `c_putchar`.
* `pad`, `padstr`: text in a field of some width, at the cursor or at a place on the screen.
* `Scan`: the variables of `__c_do_printf`; `Scan.options`, `Scan.convert`, `Scan.run`: its loops.

The format, the arguments and the strings do not lie in the video memory, and the local array is a
memory of its own. A loop that reads memory up to some byte has `memorySize` rounds as fuel: if it
has not met the byte then it never does, and the result is `none`.
-/

namespace Sp2

/-! ### Conversions of numbers -/

/-- The code of a character. -/
abbrev ascii (c : Char) : UInt8 := c.toNat.toUInt8

/-- The conversion of an `int` to `char`. -/
def intToChar (v : Int32) : UInt8 := v.toUInt32.toUInt8

/-- `value % 10 + '0'`. -/
def lastDigit (value : Int32) : UInt8 := intToChar (value % 10 + 48)

/-- `*buf++ = ch`. -/
@[irreducible] def storeChar (ch : UInt8) (r : UInt32 × Memory) : UInt32 × Memory :=
  (r.1 + 1, Function.update r.2 r.1 ch)

/-- The quotient in `cvtdec0`, and the number whose last digit is stored. Only the number whose
negation overflows gets there with a negative quotient. -/
def decParts (value : Int32) : Int32 × Int32 :=
  let quotient := value / 10
  if quotient < 0 then (214748364, 8) else (quotient, value)

/-- The quotient is not negative, and smaller than a number that is not. -/
lemma decParts_decreasing (value : Int32) (h : (decParts value).1 ≠ 0) :
    ¬ (decParts value).1 < 0 ∧
      (¬ value < 0 → (decParts value).1.toInt.natAbs < value.toInt.natAbs) := by
  have hdiv : (value / 10).toInt = value.toInt.tdiv 10 :=
    Int32.toInt_div_of_ne_right _ _ (by decide)
  rw [decParts] at h ⊢
  simp only [Int32.lt_iff_toInt_lt, Int32.toInt_zero] at *
  by_cases hneg : (value / 10).toInt < 0
  · rw [if_pos hneg]
    refine ⟨by decide, fun hvalue => ?_⟩
    have := Int.tdiv_nonneg (not_lt.mp hvalue) (show (0 : ℤ) ≤ 10 by decide)
    omega
  · rw [if_neg hneg] at h ⊢
    have hquot : (value / 10).toInt ≠ 0 := fun hzero => h (Int32.toInt_inj.mp hzero)
    refine ⟨hneg, fun hvalue => ?_⟩
    rw [Int.tdiv_eq_ediv_of_nonneg (not_lt.mp hvalue)] at hdiv
    dsimp only
    omega

/-- `cvtdec0`. -/
def cvtdec0 (buf : UInt32) (value : Int32) (mem : Memory) : UInt32 × Memory :=
  storeChar (lastDigit (decParts value).2)
    (if (decParts value).1 ≠ 0 then cvtdec0 buf (decParts value).1 mem else (buf, mem))
termination_by (if value < 0 then 1 else 0, value.toInt.natAbs)
decreasing_by
  obtain ⟨hquot, hless⟩ := decParts_decreasing value ‹_›
  rw [if_neg hquot]
  by_cases hvalue : value < 0
  · rw [if_pos hvalue]
    exact Prod.Lex.left _ _ Nat.zero_lt_one
  · rw [if_neg hvalue]
    exact Prod.Lex.right _ (hless hvalue)

/-- `cvtdec`. -/
def cvtdec (buf : UInt32) (value : Int32) (mem : Memory) : Int32 × Memory :=
  let start :=
    if value < 0 then (buf + 1, -value, Function.update mem buf (ascii '-')) else (buf, value, mem)
  let r := cvtdec0 start.1 start.2.1 start.2.2
  ((r.1 - buf).toInt32, Function.update r.2 r.1 0)

/-- `hexdigits`. -/
def hexdigits : List Char :=
  ['0', '1', '2', '3', '4', '5', '6', '7', '8', '9', 'A', 'B', 'C', 'D', 'E', 'F']

/-- `hexdigits[ val ]`. -/
def hexdigit (val : Int32) : UInt8 := ((hexdigits[val.toInt.toNat]?).map ascii).getD 0

/-- The loop of `cvthex` with so many rounds left, the last one being that with `i == 7`. -/
def cvthexLoop : ℕ → Int32 → Bool → UInt32 → Memory → UInt32 × Memory
  | 0, _, _, bp, mem => (bp, mem)
  | n + 1, value, charsStored, bp, mem =>
      let val := value &&& 0xf0000000
      if n = 0 ∨ val ≠ 0 ∨ charsStored = true then
        let val := (val >>> 28) &&& 0xf
        cvthexLoop n (value <<< 4) true (bp + 1) (Function.update mem bp (hexdigit val))
      else cvthexLoop n (value <<< 4) charsStored bp mem

/-- `cvthex`. -/
def cvthex (buf : UInt32) (value : Int32) (mem : Memory) : Int32 × Memory :=
  let r := cvthexLoop 8 value false buf mem
  ((r.1 - buf).toInt32, Function.update r.2 r.1 0)

/-- The loop of `cvtoct` with so many rounds left, the last one being that with `i == 10`. -/
def cvtoctLoop : ℕ → Int32 → Int32 → Bool → UInt32 → Memory → UInt32 × Memory
  | 0, _, _, _, bp, mem => (bp, mem)
  | n + 1, value, val, charsStored, bp, mem =>
      let value' := value <<< 3
      let val' := (value' &&& 0xe0000000) >>> 29
      if n = 0 ∨ val ≠ 0 ∨ charsStored = true then
        cvtoctLoop n value' val' true (bp + 1) (Function.update mem bp (hexdigit (val &&& 0x7)))
      else cvtoctLoop n value' val' charsStored bp mem

/-- `cvtoct`: the first digit has two bits. -/
def cvtoct (buf : UInt32) (value : Int32) (mem : Memory) : Int32 × Memory :=
  let val := (value &&& 0xc0000000) >>> 30
  let r := cvtoctLoop 11 value val false buf mem
  ((r.1 - buf).toInt32, Function.update r.2 r.1 0)

/-! ### Text in a field -/

/-- The console. `passed` is a history variable that no routine reads: the characters that have been
passed to `c_putchar`, in order. -/
structure Printer extends Console where
  passed : List UInt32

namespace Printer

/-- `c_putchar`. -/
def putchar (c : UInt32) (p : Printer) : Printer :=
  { p with toConsole := p.toConsole.putchar c, passed := p.passed ++ [c] }

/-- `c_puts`, with the bytes of the string. -/
def puts : List UInt8 → Printer → Printer
  | [], p => p
  | ch :: str, p => if ch ≠ 0 then puts str (p.putchar (Console.charToUInt32 ch)) else p

/-- `c_putchar_at`. -/
def putcharAt (x y c : UInt32) (p : Printer) : Printer :=
  { p with toConsole := p.toConsole.putcharAt x y c }

/-- `c_puts_at`, with the bytes of the string. -/
def putsAt (x y : UInt32) (str : List UInt8) (p : Printer) : Printer :=
  { p with toConsole := p.toConsole.putsAt x y str }

/-- `pad`, with so many characters to come. -/
def pad (y : Int32) (padchar : UInt32) : ℕ → Int32 → Printer → Int32 × Printer
  | 0, x, p => (x, p)
  | extra + 1, x, p =>
      if x ≠ -1 ∨ y ≠ -1 then
        pad y padchar extra (x + 1) (p.putcharAt x.toUInt32 y.toUInt32 padchar)
      else pad y padchar extra x (p.putchar padchar)

/-- `__c_strlen`, with the bytes of the string. -/
def strlen (str : List UInt8) : UInt32 := UInt32.ofNat str.length

/-- `padstr`, with the bytes of the string. -/
def padstr (x y : Int32) (str : List UInt8) (len width : Int32) (leftadjust : Bool)
    (padchar : UInt32) (p : Printer) : Int32 × Printer :=
  let len := if len < 0 then (strlen str).toInt32 else len
  let extra := width - len
  let r := if extra > 0 ∧ leftadjust = false then p.pad y padchar extra.toInt.toNat x else (x, p)
  let r :=
    if r.1 ≠ -1 ∨ y ≠ -1 then (r.1 + len, r.2.putsAt r.1.toUInt32 y.toUInt32 str)
    else (r.1, r.2.puts str)
  if extra > 0 ∧ leftadjust = true then r.2.pad y padchar extra.toInt.toNat r.1 else r

end Printer

/-! ### `__c_do_printf` -/

/-- The bytes of a string up to its NUL. -/
def stringAt (mem : Memory) : ℕ → UInt32 → Option (List UInt8)
  | 0, _ => none
  | fuel + 1, a => if mem a = 0 then some [] else (stringAt mem fuel (a + 1)).map (mem a :: ·)

/-- The variables of `__c_do_printf`. The arguments that have been fetched are counted by `ap`.
`reads` is a history variable that the function does not read: the addresses of the bytes of the
format that have been read, in order. -/
structure Scan extends Printer where
  fmt : UInt32
  ap : ℕ
  x : Int32
  y : Int32
  buf : Memory
  reads : List UInt32

/-- The options of a conversion, and the byte after them. -/
structure Options where
  leftadjust : Bool
  padchar : UInt32
  width : Int32
  ch : UInt8

namespace Scan

variable (mem : Memory) (args : ℕ → UInt32)

/-- `*fmt++`. -/
def fetch (p : Scan) : UInt8 × Scan :=
  (mem p.fmt, { p with fmt := p.fmt + 1, reads := p.reads ++ [p.fmt] })

/-- The loop that reads the width. No digit is negative as a `char`. -/
def widthLoop : ℕ → UInt8 → Int32 → Scan → Option (UInt8 × Int32 × Scan)
  | 0, _, _, _ => none
  | fuel + 1, ch, w, p =>
      if ascii '0' ≤ ch ∧ ch ≤ ascii '9' then
        let w := w * 10 + (ch - ascii '0').toUInt32.toInt32
        widthLoop fuel (p.fetch mem).1 w (p.fetch mem).2
      else some (ch, w, p)

/-- The padding and width options, after a `%`. -/
def options (p : Scan) : Option (Options × Scan) :=
  let r := p.fetch mem
  let leftadjust := decide (r.1 = ascii '-')
  let r := if leftadjust then r.2.fetch mem else r
  let padchar : UInt32 := if r.1 = ascii '0' then 0x30 else 0x20
  let r := if r.1 = ascii '0' then r.2.fetch mem else r
  (widthLoop mem memorySize r.1 0 r.2).map fun w => (⟨leftadjust, padchar, w.2.1, w.1⟩, w.2.2)

/-- `padstr`, with the bytes of the string. -/
def padstr (o : Options) (str : List UInt8) (len : Int32) (p : Scan) : Scan :=
  let r := p.toPrinter.padstr p.x p.y str len o.width o.leftadjust o.padchar
  { p with toPrinter := r.2, x := r.1 }

/-- A conversion that stores its text into the local array. -/
def padbuf (o : Options) (r : Int32 × Memory) (p : Scan) : Option Scan :=
  (stringAt r.2 memorySize 0).map fun str =>
    { p with buf := r.2, ap := p.ap + 1 }.padstr o str r.1

/-- The `switch` over the type of a conversion. -/
def convert (o : Options) (p : Scan) : Option Scan :=
  if o.ch = ascii 'c' then
    let buf := Function.update p.buf 0 (args p.ap).toUInt8
    p.padbuf o (1, Function.update buf 1 0)
  else if o.ch = ascii 'd' then p.padbuf o (cvtdec 0 (args p.ap).toInt32 p.buf)
  else if o.ch = ascii 's' then
    (stringAt mem memorySize (args p.ap)).map fun str => { p with ap := p.ap + 1 }.padstr o str (-1)
  else if o.ch = ascii 'x' then p.padbuf o (cvthex 0 (args p.ap).toInt32 p.buf)
  else if o.ch = ascii 'o' then p.padbuf o (cvtoct 0 (args p.ap).toInt32 p.buf)
  else some p

/-- A character that is no conversion. -/
def plain (ch : UInt8) (p : Scan) : Scan :=
  let c := Console.charToUInt32 ch
  if p.x ≠ -1 ∨ p.y ≠ -1 then
    let p := { p with toPrinter := p.toPrinter.putcharAt p.x.toUInt32 p.y.toUInt32 c }
    if ch = ascii '\n' then { p with y := p.y + 1, x := p.scrollMinX.toInt32 }
    else if ch = ascii '\r' then { p with x := p.scrollMinX.toInt32 }
    else { p with x := p.x + 1 }
  else { p with toPrinter := p.toPrinter.putchar c }

/-- The loop over the characters of the format. -/
def run : ℕ → Scan → Option Scan
  | 0, _ => none
  | fuel + 1, p =>
      let r := p.fetch mem
      if r.1 = 0 then some r.2
      else if r.1 = ascii '%' then
        ((r.2.options mem).bind fun o => o.2.convert mem args o.1).bind (run fuel)
      else run fuel (r.2.plain r.1)

end Scan

/-- `__c_do_printf`. The bytes of the local array are arbitrary at first. -/
def doPrintf (mem : Memory) (args : ℕ → UInt32) (x y : Int32) (fmt : UInt32) (buf : Memory)
    (s : Console) : Option Scan :=
  Scan.run mem args memorySize ⟨⟨s, []⟩, fmt, 0, x, y, buf, []⟩

/-- `c_printf_at`. -/
def printfAt (mem : Memory) (args : ℕ → UInt32) (x y fmt : UInt32) (buf : Memory) (s : Console) :
    Option Scan :=
  doPrintf mem args x.toInt32 y.toInt32 fmt buf s

/-- `c_printf`. -/
def printf (mem : Memory) (args : ℕ → UInt32) (fmt : UInt32) (buf : Memory) (s : Console) :
    Option Scan :=
  doPrintf mem args (-1) (-1) fmt buf s

end Sp2
