import Sp2.Properties.FormatReads

/-!
What `c_printf` prints.

* `FormatField`, `FormatItem`: the conversions and the characters that a format spells.
* `Formats`: the text that a format and its arguments stand for.
* `LengthsFit`: no string is longer than an `int` can say.
* `padstr_passed`: the text in its field, and `convert_passed`: a conversion prints it.
* `run_formats`: the characters that the loop passes to `c_putchar`, by induction on the format.
* `printf_formats`: **the text is printed exactly if the lengths of its strings fit**.
-/

namespace Sp2

open Numerals Address

/-! ### The statement -/

/-- The types of a conversion. -/
inductive FormatType
  | char
  | decimal
  | string
  | hex
  | octal

/-- The character of a type. -/
def FormatType.code : FormatType → UInt8
  | char => ascii 'c'
  | decimal => ascii 'd'
  | string => ascii 's'
  | hex => ascii 'x'
  | octal => ascii 'o'

/-- A conversion: a width that comes after no flag has no leading zero. -/
structure FormatField where
  leftadjust : Bool
  zero : Bool
  digits : List ℕ
  type : FormatType
  digits_lt : ∀ d ∈ digits, d < 10
  head_ne : zero = false → digits.head? ≠ some 0
  width_lt : value 10 digits < 2 ^ 31

/-- The pieces of a format. -/
inductive FormatItem
  | plain (ch : UInt8) (hnul : ch ≠ 0) (hpercent : ch ≠ ascii '%')
  | field (f : FormatField)

namespace FormatField

/-- The width, 0 if there are no digits. -/
def width (f : FormatField) : ℕ := value 10 f.digits

/-- The fill character. -/
def fill (f : FormatField) : UInt8 := if f.zero then ascii '0' else ascii ' '

/-- The bytes of the options and of the type. -/
def spelled (f : FormatField) : List UInt8 :=
  (if f.leftadjust then [ascii '-'] else []) ++ ((if f.zero then [ascii '0'] else [])
    ++ (f.digits.map digitChar ++ [f.type.code]))

/-- A text with so many fill characters. -/
def filled (f : FormatField) (n : ℕ) (t : List UInt8) : List UInt8 :=
  if f.leftadjust then t ++ List.replicate n f.fill else List.replicate n f.fill ++ t

/-- A text that is padded to the width at least. -/
def padded (f : FormatField) (t : List UInt8) : List UInt8 := f.filled (f.width - t.length) t

end FormatField

/-- The bytes of a piece. -/
def FormatItem.bytes : FormatItem → List UInt8
  | plain ch _ _ => [ch]
  | field f => ascii '%' :: f.spelled

/-- The number of conversions. -/
def fieldCount : List FormatItem → ℕ
  | [] => 0
  | .plain _ _ _ :: items => fieldCount items
  | .field _ :: items => fieldCount items + 1

/-- The text of an argument: the character, the string, or what the conversion of a number stores,
whatever the local array has been. -/
def Prints (mem : Memory) : FormatType → UInt32 → List UInt8 → Prop
  | .char, w, t => w.toUInt8 ≠ 0 ∧ t = [w.toUInt8]
  | .decimal, w, t => ∀ buf, StringAt (cvtdec 0 w.toInt32 buf).2 0 t
  | .string, w, t => StringAt mem w t
  | .hex, w, t => ∀ buf, StringAt (cvthex 0 w.toInt32 buf).2 0 t
  | .octal, w, t => ∀ buf, StringAt (cvtoct 0 w.toInt32 buf).2 0 t

/-- The text that the pieces stand for, `n` arguments being used up: every conversion takes the
next one. -/
inductive Formats (mem : Memory) (args : ℕ → UInt32) : ℕ → List FormatItem → List UInt8 → Prop
  | nil {n : ℕ} : Formats mem args n [] []
  | plain {n : ℕ} {ch : UInt8} {hnul : ch ≠ 0} {hpercent : ch ≠ ascii '%'}
      {items : List FormatItem} {out : List UInt8} (hout : Formats mem args n items out) :
      Formats mem args n (.plain ch hnul hpercent :: items) (ch :: out)
  | field {n : ℕ} {f : FormatField} {t : List UInt8} {items : List FormatItem} {out : List UInt8}
      (ht : Prints mem f.type (args n) t) (hout : Formats mem args (n + 1) items out) :
      Formats mem args n (.field f :: items) (f.padded t ++ out)

/-- No string is longer than its width and the numbers that an `int` has above 0. -/
def LengthsFit (mem : Memory) (args : ℕ → UInt32) : ℕ → List FormatItem → Prop
  | _, [] => True
  | n, .plain _ _ _ :: items => LengthsFit mem args n items
  | n, .field f :: items =>
      (f.type = .string → ∀ t, StringAt mem (args n) t → t.length ≤ 2 ^ 31 + f.width)
        ∧ LengthsFit mem args (n + 1) items

/-! ### Texts -/

section Texts

variable {mem : Memory} {a buf : UInt32} {bs t t' : List UInt8} {d n base size : ℕ}
  {sign : List UInt8} {r : Int32 × Memory} {ds : List ℕ}

lemma StringAt.unique (h : StringAt mem a t) (h' : StringAt mem a t') : t = t' :=
  Option.some.inj ((stringAt_eq h h.length_lt).symm.trans (stringAt_eq h' h'.length_lt))

lemma bytesAt_storeBytes (hbs : bs.length ≤ 2 ^ 32) : BytesAt (storeBytes buf bs mem) buf bs := by
  induction bs generalizing buf mem with
  | nil => trivial
  | cons b bs ih =>
      have hfirst : storeBytes buf (b :: bs) mem (buf + UInt32.ofNat 0) = b :=
        storeBytes_apply hbs (Nat.succ_pos _)
      rw [show buf + UInt32.ofNat 0 = buf by simp] at hfirst
      refine ⟨hfirst, ?_⟩
      rw [storeBytes]
      exact ih (Nat.le_of_succ_le hbs)

lemma digitChar_ne_zero (hd : d < 16) : digitChar d ≠ 0 := by
  have hall : ∀ d < 16, digitChar d ≠ 0 := by decide
  exact hall d hd

lemma isDigit_digitChar (hd : d < 10) : isDigit (digitChar d) = true := by
  have hall : ∀ d < 10, isDigit (digitChar d) = true := by decide
  exact hall d hd

/-- The numeral that a conversion has stored is a string, and its length is returned. -/
lemma WritesNumeral.stringAt (h : WritesNumeral base size sign n 0 mem r) (hbase : 1 < base)
    (hbase' : base ≤ 16) (hsize : size < 2 ^ 31) (hsign : ∀ b ∈ sign, b ≠ 0) :
    StringAt r.2 0 (sign ++ (numeral base n).map digitChar)
      ∧ r.1 = Int32.ofNat (sign ++ (numeral base n).map digitChar).length
      ∧ (sign ++ (numeral base n).map digitChar).length ≤ size := by
  obtain ⟨ds, hds, hwrites, hle⟩ := h
  have heq := hds.eq_numeral hbase
  subst heq
  set t := sign ++ (numeral base n).map digitChar with ht
  have hlen : t.length ≤ size := by
    have := hwrites.length
    omega
  refine ⟨⟨fun b hb => ?_, ?_⟩, ?_, hlen⟩
  · rcases List.mem_append.mp hb with hb | hb
    · exact hsign b hb
    · obtain ⟨d, hd, rfl⟩ := List.mem_map.mp hb
      exact digitChar_ne_zero ((hds.digits d hd).trans_le hbase')
  · rw [hwrites.memory]
    refine bytesAt_storeBytes ?_
    rw [List.length_append, List.length_singleton]
    omega
  · rw [← Int32.toInt_inj, hwrites.length, Int32.toInt_ofNat_of_lt (by omega)]

/-- The length that a conversion returns is that of the text. -/
lemma WritesNumeral.length_eq (h : WritesNumeral base size sign n 0 mem r) (hbase : 1 < base)
    (hbase' : base ≤ 16) (hsize : size < 2 ^ 31) (hsign : ∀ b ∈ sign, b ≠ 0)
    (ht : StringAt r.2 0 t) : r.1 = Int32.ofNat t.length ∧ t.length ≤ size := by
  obtain ⟨hstring, hlength⟩ := h.stringAt hbase hbase' hsize hsign
  rwa [← hstring.unique ht]

lemma cvtdec_length {v : Int32} (ht : StringAt (cvtdec 0 v mem).2 0 t) :
    (cvtdec 0 v mem).1 = Int32.ofNat t.length ∧ t.length ≤ 11 := by
  refine (cvtdec_writes v 0 mem).length_eq (by decide) (by decide) (by decide) ?_ ht
  split_ifs
  · exact ne_zero_of_all rfl
  · exact ne_zero_of_all rfl

lemma cvthex_length {v : Int32} (ht : StringAt (cvthex 0 v mem).2 0 t) :
    (cvthex 0 v mem).1 = Int32.ofNat t.length ∧ t.length ≤ 11 := by
  obtain ⟨hlen, hsize⟩ :=
    (cvthex_writes v 0 mem).length_eq (by decide) (by decide) (by decide) (by simp) ht
  exact ⟨hlen, hsize.trans (by decide)⟩

lemma cvtoct_length {v : Int32} (ht : StringAt (cvtoct 0 v mem).2 0 t) :
    (cvtoct 0 v mem).1 = Int32.ofNat t.length ∧ t.length ≤ 11 :=
  (cvtoct_writes v 0 mem).length_eq (by decide) (by decide) (by decide) (by simp) ht

end Texts

/-! ### Text in a field -/

section Padding

variable {t : List UInt8} {W L : ℕ} {len : Int32} {left : Bool} {padchar : UInt32}

/-- The fill characters that `width - len` asks for. -/
def extraOf (W L : ℕ) : ℕ := (Int32.ofNat W - Int32.ofNat L).toInt.toNat

/-- **The fill characters**: the subtraction wraps if the text is too long. -/
lemma extraOf_eq (hW : W < 2 ^ 31) (hL : L < 2 ^ 32) :
    extraOf W L = if L ≤ 2 ^ 31 + W then W - L else W + 2 ^ 32 - L := by
  have hsize : Int32.size = 2 ^ 32 := rfl
  rw [extraOf, Int32.toInt_sub, Int32.toInt_ofNat_of_lt hW, Int32.toInt_ofNat', hsize,
    Int.sub_bmod_bmod]
  split_ifs with hfits
  · rw [Int.bmod_eq_of_le (by omega) (by omega)]
    omega
  · have hadd : (W : ℤ) - L = (W + 2 ^ 32 - L) - (2 ^ 32 : ℕ) := by omega
    rw [hadd, Int.sub_bmod_right, Int.bmod_eq_of_le (by omega) (by omega)]
    omega

lemma puts_passed (ht : ∀ b ∈ t, b ≠ 0) (p : Printer) :
    (p.puts t).passed = p.passed ++ t.map Console.charToUInt32 := by
  induction t generalizing p with
  | nil => exact (List.append_nil _).symm
  | cons ch t ih =>
      rw [Printer.puts, if_pos (ht ch List.mem_cons_self),
        ih fun b hb => ht b (List.mem_cons_of_mem ch hb), Printer.putchar, List.append_assoc]
      rfl

/-- At the cursor the fill characters are passed to `c_putchar`. -/
lemma pad_passed (padchar : UInt32) (n : ℕ) (p : Printer) :
    (p.pad (-1) padchar n (-1)).1 = -1
      ∧ (p.pad (-1) padchar n (-1)).2.passed = p.passed ++ List.replicate n padchar := by
  induction n generalizing p with
  | zero => exact ⟨rfl, (List.append_nil _).symm⟩
  | succ n ih =>
      obtain ⟨hx, hpassed⟩ := ih (p.putchar padchar)
      rw [Printer.pad, if_neg (by simp)]
      refine ⟨hx, ?_⟩
      rw [hpassed, Printer.putchar, List.append_assoc, List.replicate_succ]
      rfl

/-- Where there is nothing to fill, `pad` does nothing. -/
lemma pad_of_pos (p : Printer) :
    (if Int32.ofNat W - Int32.ofNat L > 0 then p.pad (-1) padchar (extraOf W L) (-1) else (-1, p))
      = p.pad (-1) padchar (extraOf W L) (-1) := by
  split_ifs with hextra
  · rfl
  · have hnone : extraOf W L = 0 := by
      rw [gt_iff_lt, Int32.lt_iff_toInt_lt, Int32.toInt_zero] at hextra
      rw [extraOf]
      omega
    rw [hnone]
    rfl

/-- **The text in its field** is passed to `c_putchar`. -/
lemma padstr_passed (W : ℕ) (left : Bool) (padchar : UInt32) (p : Printer)
    (hlen : (if len < 0 then (Printer.strlen t).toInt32 else len) = Int32.ofNat t.length)
    (ht : ∀ b ∈ t, b ≠ 0) :
    (p.padstr (-1) (-1) t len (Int32.ofNat W) left padchar).1 = -1
      ∧ (p.padstr (-1) (-1) t len (Int32.ofNat W) left padchar).2.passed
        = p.passed ++ (if left then
            t.map Console.charToUInt32 ++ List.replicate (extraOf W t.length) padchar
          else List.replicate (extraOf W t.length) padchar ++ t.map Console.charToUInt32) := by
  have hat : ¬ ((-1 : Int32) ≠ -1 ∨ (-1 : Int32) ≠ -1) := by simp
  obtain ⟨hbefore, hpad⟩ := pad_passed padchar (extraOf W t.length) p
  obtain ⟨hafter, hpad'⟩ := pad_passed padchar (extraOf W t.length) (p.puts t)
  have hextra : (Int32.ofNat W - Int32.ofNat t.length).toInt.toNat = extraOf W t.length := rfl
  rw [Printer.padstr]
  cases left with
  | false =>
      simp only [hlen, hextra, pad_of_pos, and_true, reduceCtorEq, and_false, reduceIte, hbefore,
        hat]
      exact ⟨trivial, by rw [puts_passed ht, hpad, List.append_assoc]⟩
  | true =>
      simp only [hlen, hextra, pad_of_pos, and_true, reduceCtorEq, and_false, reduceIte, hat]
      exact ⟨hafter, by rw [hpad', puts_passed ht, List.append_assoc]⟩

end Padding

/-! ### The options that are spelled -/

section Spelled

variable {f : FormatField} {l rest : List UInt8} {b : UInt8} {ds : List ℕ} {n : ℕ}

lemma skip_of_head (h : l.head? ≠ some b) : skip b l = l := by
  cases l with
  | nil => rfl
  | cons ch l => exact if_neg fun heq => h (congrArg some heq)

/-- The loop computes the number that digits spell. -/
lemma widthOf_digits (hds : ∀ d ∈ ds, d < 10) (n : ℕ) :
    widthOf (ds.map digitChar) (Int32.ofNat n)
      = Int32.ofNat (ds.foldl (fun n d => n * 10 + d) n) := by
  have hdigit : ∀ d < 10, (digitChar d - ascii '0').toUInt32.toInt32 = Int32.ofNat d := by decide
  induction ds generalizing n with
  | nil => rfl
  | cons d ds ih =>
      have hd := hdigit d (hds d List.mem_cons_self)
      have hstep : Int32.ofNat n * 10 + Int32.ofNat d = Int32.ofNat (n * 10 + d) := by
        rw [Int32.ofNat_add, Int32.ofNat_mul]
        rfl
      rw [List.map_cons, widthOf, List.foldl_cons, hd, hstep, List.foldl_cons]
      exact ih (fun x hx => hds x (List.mem_cons_of_mem d hx)) _

/-- The digits and the type: they do not start with a flag. -/
lemma head_digits (f : FormatField) (rest : List UInt8) :
    (f.digits.map digitChar ++ f.type.code :: rest).head? ≠ some (ascii '-')
      ∧ (f.zero = false →
        (f.digits.map digitChar ++ f.type.code :: rest).head? ≠ some (ascii '0')) := by
  have hminus : ∀ d < 10, digitChar d ≠ ascii '-' := by decide
  have hzero : ∀ d < 10, digitChar d = ascii '0' → d = 0 := by decide
  cases hds : f.digits with
  | nil => cases f.type <;> exact ⟨by simp [FormatType.code], by simp [FormatType.code]⟩
  | cons d ds =>
      have hlt : d < 10 := f.digits_lt d (hds ▸ List.mem_cons_self)
      refine ⟨fun h => hminus d hlt (Option.some.inj h), fun hflag h => f.head_ne hflag ?_⟩
      rw [hds, List.head?_cons, hzero d hlt (Option.some.inj h)]

/-- **The options** that a conversion spells are its own, and its type comes after them. -/
lemma spelled_options (f : FormatField) (rest : List UInt8) :
    afterOptions (f.spelled ++ rest) = f.type.code :: rest
      ∧ optionsOf (f.spelled ++ rest) f.type.code
        = ⟨f.leftadjust, Console.charToUInt32 f.fill, Int32.ofNat f.width, f.type.code⟩ := by
  obtain ⟨hminus, hzero⟩ := head_digits f rest
  set digits := f.digits.map digitChar ++ f.type.code :: rest with hdigits
  set flagged := (if f.zero then [ascii '0'] else []) ++ digits with hflagged
  have hspelled : f.spelled ++ rest = (if f.leftadjust then [ascii '-'] else []) ++ flagged := by
    rw [FormatField.spelled, hflagged, hdigits]
    simp only [List.append_assoc, List.singleton_append]
  have hmap : ∀ d ∈ f.digits.map digitChar, isDigit d = true := by
    intro d hd
    obtain ⟨e, he, rfl⟩ := List.mem_map.mp hd
    exact isDigit_digitChar (f.digits_lt e he)
  have hcode : isDigit f.type.code = false := by
    cases f.type <;> rfl
  have hflag : flagged.head? ≠ some (ascii '-')
      ∧ (flagged.head? = some (ascii '0') ↔ f.zero = true) ∧ skip (ascii '0') flagged = digits := by
    rw [hflagged]
    cases hz : f.zero with
    | false =>
        refine ⟨hminus, ⟨fun h => absurd h (hzero hz), fun h => absurd h Bool.false_ne_true⟩, ?_⟩
        exact skip_of_head (hzero hz)
    | true => exact ⟨by simp, by simp, by simp [skip]⟩
  have hleft : ((f.spelled ++ rest).head? = some (ascii '-') ↔ f.leftadjust = true)
      ∧ skip (ascii '-') (f.spelled ++ rest) = flagged := by
    rw [hspelled]
    cases f.leftadjust with
    | false => exact ⟨⟨fun h => absurd h hflag.1, fun h => absurd h Bool.false_ne_true⟩,
        skip_of_head hflag.1⟩
    | true => exact ⟨by simp, by simp [skip]⟩
  refine ⟨?_, ?_⟩
  · rw [afterOptions, hleft.2, hflag.2.2, hdigits, List.dropWhile_append_of_pos hmap,
      List.dropWhile_cons_of_neg (by simp [hcode])]
  · have htake : digits.takeWhile isDigit = f.digits.map digitChar := by
      rw [hdigits, List.takeWhile_append_of_pos hmap,
        List.takeWhile_cons_of_neg (by simp [hcode]), List.append_nil]
    have hwidth : widthOf (f.digits.map digitChar) 0 = Int32.ofNat f.width :=
      widthOf_digits f.digits_lt 0
    have hfill : (if f.zero = true then 0x30 else 0x20) = Console.charToUInt32 f.fill := by
      rw [FormatField.fill]
      split_ifs <;> rfl
    rw [optionsOf, hleft.2, hflag.2.2, htake, hwidth]
    simp only [hleft.1, hflag.2.1, hfill, Bool.decide_eq_true]

end Spelled

/-! ### Conversions -/

section Conversions

variable {mem : Memory} {args : ℕ → UInt32} {f : FormatField} {p : Scan} {t : List UInt8}
  {n : ℕ} {len : Int32} {buf : Memory}

/-- The loop prints at the cursor. -/
def Scan.AtCursor (p : Scan) : Prop := p.x = -1 ∧ p.y = -1

/-- The options of a conversion, as they are read. -/
def FormatField.options (f : FormatField) : Options :=
  ⟨f.leftadjust, Console.charToUInt32 f.fill, Int32.ofNat f.width, f.type.code⟩

/-- What the code prints for a text: the fill characters are those that it computes. -/
def FormatField.printed (f : FormatField) (t : List UInt8) : List UInt8 :=
  f.filled (extraOf f.width t.length) t

/-- A text in its field is passed to `c_putchar`, and an argument is used up. -/
structure Scan.PrintsField (p : Scan) (f : FormatField) (t : List UInt8) (q : Scan) : Prop where
  atCursor : q.AtCursor
  passed : q.passed = p.passed ++ (f.printed t).map Console.charToUInt32
  fmt : q.fmt = p.fmt
  ap : q.ap = p.ap + 1

/-- A conversion prints a string, from memory or from the local array. -/
lemma scan_padstr (hp : p.AtCursor)
    (hlen : (if len < 0 then (Printer.strlen t).toInt32 else len) = Int32.ofNat t.length)
    (ht : ∀ b ∈ t, b ≠ 0) :
    p.PrintsField f t ({ p with buf := buf, ap := p.ap + 1 }.padstr f.options t len) := by
  obtain ⟨hx, hpassed⟩ := padstr_passed f.width f.leftadjust (Console.charToUInt32 f.fill)
    p.toPrinter hlen ht
  have hprinted : (f.printed t).map Console.charToUInt32
      = if f.leftadjust then t.map Console.charToUInt32
          ++ List.replicate (extraOf f.width t.length) (Console.charToUInt32 f.fill)
        else List.replicate (extraOf f.width t.length) (Console.charToUInt32 f.fill)
          ++ t.map Console.charToUInt32 := by
    rw [FormatField.printed, FormatField.filled]
    split_ifs <;> rw [List.map_append, List.map_replicate]
  rw [Scan.padstr]
  dsimp only
  rw [hp.1, hp.2]
  exact ⟨⟨hx, rfl⟩, hpassed.trans (by rw [hprinted]), rfl, rfl⟩

/-- The text is in the local array, and its length is known. -/
lemma padbuf_passed {r : Int32 × Memory} (hp : p.AtCursor) (ht : StringAt r.2 0 t)
    (hlen : r.1 = Int32.ofNat t.length) (hsize : t.length ≤ 11) :
    ∃ q, p.padbuf f.options r = some q ∧ p.PrintsField f t q := by
  have hnonneg : ¬ r.1 < 0 := by
    rw [hlen, Int32.lt_iff_toInt_lt, Int32.toInt_ofNat_of_lt (by omega), Int32.toInt_zero]
    omega
  exact ⟨_, padbuf_eq ht, scan_padstr hp (by rw [if_neg hnonneg, hlen]) ht.1⟩

/-- **A conversion prints the text of its argument** in its field. -/
lemma convert_passed (hp : p.AtCursor) (ht : Prints mem f.type (args p.ap) t) :
    ∃ q, p.convert mem args f.options = some q ∧ p.PrintsField f t q := by
  have hch : f.options.ch = f.type.code := rfl
  rw [Scan.convert, hch]
  cases htype : f.type with
  | char =>
      rw [htype] at ht
      obtain ⟨hnul, rfl⟩ := ht
      exact padbuf_passed hp ⟨by simpa using hnul, by simp [BytesAt]⟩ rfl (by simp)
  | decimal =>
      rw [htype] at ht
      obtain ⟨hlen, hsize⟩ := cvtdec_length (ht p.buf)
      exact padbuf_passed hp (ht p.buf) hlen hsize
  | string =>
      rw [htype] at ht
      have hlen : (if (-1 : Int32) < 0 then (Printer.strlen t).toInt32 else -1)
          = Int32.ofNat t.length := if_pos (by decide)
      exact ⟨_, by rw [stringAt_eq ht ht.length_lt]; rfl, scan_padstr hp hlen ht.1⟩
  | hex =>
      rw [htype] at ht
      obtain ⟨hlen, hsize⟩ := cvthex_length (ht p.buf)
      exact padbuf_passed hp (ht p.buf) hlen hsize
  | octal =>
      rw [htype] at ht
      obtain ⟨hlen, hsize⟩ := cvtoct_length (ht p.buf)
      exact padbuf_passed hp (ht p.buf) hlen hsize

/-- A character that is no conversion is passed to `c_putchar`. -/
lemma plain_passed (hp : p.AtCursor) (ch : UInt8) :
    (p.plain ch).AtCursor ∧ (p.plain ch).passed = p.passed ++ [Console.charToUInt32 ch]
      ∧ (p.plain ch).ap = p.ap := by
  have hat : ¬ (p.x ≠ -1 ∨ p.y ≠ -1) := by simp [hp.1, hp.2]
  rw [Scan.plain]
  dsimp only
  rw [if_neg hat]
  exact ⟨hp, rfl, rfl⟩

/-! ### Lengths -/

/-- No text of an argument is longer than memory, and only a string is longer than 11 characters. -/
lemma Prints.length_le {type : FormatType} {w : UInt32} (ht : Prints mem type w t) :
    t.length < 2 ^ 32 ∧ (type ≠ .string → t.length ≤ 11) := by
  have hshort : t.length ≤ 11 → t.length < 2 ^ 32 ∧ (type ≠ .string → t.length ≤ 11) :=
    fun hle => ⟨by omega, fun _ => hle⟩
  cases type with
  | char => exact hshort (by rw [ht.2, List.length_singleton]; decide)
  | decimal => exact hshort (cvtdec_length (ht fun _ => 0)).2
  | string => exact ⟨StringAt.length_lt ht, fun h => absurd rfl h⟩
  | hex => exact hshort (cvthex_length (ht fun _ => 0)).2
  | octal => exact hshort (cvtoct_length (ht fun _ => 0)).2

/-- The length of a text fits exactly if that of the string does. -/
lemma Prints.fits_iff {w : UInt32} (ht : Prints mem f.type w t) :
    (f.type = .string → ∀ t, StringAt mem w t → t.length ≤ 2 ^ 31 + f.width)
      ↔ t.length ≤ 2 ^ 31 + f.width := by
  have hle := ht.length_le.2
  constructor
  · intro h
    by_cases hstring : f.type = .string
    · rw [hstring] at ht
      exact h hstring t ht
    · exact (hle hstring).trans (by omega)
  · intro h hstring t' ht'
    rw [hstring] at ht
    rwa [ht'.unique ht]

lemma length_filled (f : FormatField) (n : ℕ) (t : List UInt8) :
    (f.filled n t).length = t.length + n := by
  rw [FormatField.filled]
  split_ifs
  · rw [List.length_append, List.length_replicate]
  · rw [List.length_append, List.length_replicate, Nat.add_comm]

/-- **The field is as wide as asked for** if the length fits, else it is wider. -/
lemma printed_of_fits {w : UInt32} (ht : Prints mem f.type w t) :
    (t.length ≤ 2 ^ 31 + f.width → f.printed t = f.padded t)
      ∧ (¬ t.length ≤ 2 ^ 31 + f.width → (f.padded t).length < (f.printed t).length) := by
  have hwidth : f.width < 2 ^ 31 := f.width_lt
  have hextra := extraOf_eq hwidth ht.length_le.1
  refine ⟨fun hfits => ?_, fun hfits => ?_⟩
  · rw [if_pos hfits] at hextra
    rw [FormatField.printed, FormatField.padded, hextra]
  · rw [if_neg hfits] at hextra
    rw [FormatField.printed, FormatField.padded, hextra, length_filled, length_filled]
    have := ht.length_le.1
    omega

end Conversions

/-! ### The loop -/

section Run

variable {mem : Memory} {args : ℕ → UInt32} {p : Scan} {items : List FormatItem}
  {out : List UInt8} {fmt : UInt32} {n fuel : ℕ}

/-- **The characters that the loop passes to `c_putchar`**, by induction on the format: where a
length does not fit there are too many. -/
lemma run_formats (hformats : Formats mem args n items out) (hp : p.AtCursor) (hap : p.ap = n)
    (hbytes : BytesAt mem p.fmt (items.flatMap FormatItem.bytes ++ [0]))
    (hlen : (items.flatMap FormatItem.bytes).length < memorySize)
    (hfuel : (items.flatMap FormatItem.bytes).length < fuel) :
    ∃ r out', Scan.run mem args fuel p = some r
      ∧ r.passed = p.passed ++ out'.map Console.charToUInt32 ∧ r.ap = n + fieldCount items
      ∧ (LengthsFit mem args n items → out' = out)
      ∧ (¬ LengthsFit mem args n items → out.length < out'.length) := by
  induction hformats generalizing p fuel with
  | nil =>
      obtain ⟨fuel, rfl⟩ := Nat.exists_eq_succ_of_ne_zero (Nat.ne_of_gt hfuel)
      refine ⟨p.after 1, [], ?_, (List.append_nil _).symm, hap, fun _ => rfl,
        fun h => absurd trivial h⟩
      rw [Scan.run, Scan.fetch, if_pos hbytes.1]
      exact congrArg some (fetch_snd p)
  | @plain n ch hnul hpercent items out hout ih =>
      rw [List.flatMap_cons, FormatItem.bytes, List.singleton_append] at hbytes hlen hfuel
      rw [List.length_cons] at hlen hfuel
      obtain ⟨fuel, rfl⟩ := Nat.exists_eq_succ_of_ne_zero (Nat.ne_of_gt (Nat.zero_lt_of_lt hfuel))
      obtain ⟨hat, hpassed, hap'⟩ := plain_passed (p := p.after 1) hp ch
      have hnext : BytesAt mem ((p.after 1).plain ch).fmt
          (items.flatMap FormatItem.bytes ++ [0]) := by
        rw [(plain_reads ch (p.after 1)).1]
        exact hbytes.2
      have hfuel' : (items.flatMap FormatItem.bytes).length < fuel := by omega
      obtain ⟨r, out', hrun, hr, hcount, hfits, hlong⟩ :=
        ih hat (hap'.trans hap) hnext (by omega) hfuel'
      refine ⟨r, ch :: out', (run_plain hbytes.1 hnul hpercent).trans hrun, ?_, hcount,
        fun h => congrArg (ch :: ·) (hfits h), fun h => Nat.succ_lt_succ (hlong h)⟩
      rw [hr, hpassed, List.append_assoc]
      rfl
  | @field n f t items out ht hout ih =>
      rw [List.flatMap_cons, FormatItem.bytes, List.cons_append] at hbytes hlen hfuel
      rw [List.length_cons, List.length_append] at hlen hfuel
      obtain ⟨fuel, rfl⟩ := Nat.exists_eq_succ_of_ne_zero (Nat.ne_of_gt (Nat.zero_lt_of_lt hfuel))
      obtain ⟨hafter, hoptions⟩ := spelled_options f (items.flatMap FormatItem.bytes ++ [0])
      set l := f.spelled ++ (items.flatMap FormatItem.bytes ++ [0]) with hl
      have hbytes' : BytesAt mem p.fmt (ascii '%' :: l) := by
        rw [hl, ← List.append_assoc]
        exact hbytes
      have hshort : l.length ≤ memorySize := by
        rw [hl, List.length_append, List.length_append, List.length_singleton]
        omega
      obtain ⟨hstep, hnext, -⟩ := run_conversion args fuel hbytes' hafter hshort
      set u := p.after (l.length - (items.flatMap FormatItem.bytes ++ [0]).length + 1) with hu
      have ht' : Prints mem f.type (args u.ap) t := by
        rw [← hap] at ht
        exact ht
      obtain ⟨q, hq, hprints⟩ := convert_passed (p := u) hp ht'
      rw [← hprints.fmt] at hnext
      have hfuel' : (items.flatMap FormatItem.bytes).length < fuel := by omega
      obtain ⟨r, out', hrun, hr, hcount, hfits, hlong⟩ := ih hprints.atCursor
        (hprints.ap.trans (congrArg (· + 1) hap)) hnext (by omega) hfuel'
      obtain ⟨hequal, hwider⟩ := printed_of_fits ht
      refine ⟨r, f.printed t ++ out', ?_, ?_, ?_, fun h => ?_, fun h => ?_⟩
      · rw [hstep, hoptions]
        change (Scan.convert mem args f.options u).bind _ = _
        rw [hq, Option.bind_some, hrun]
      · rw [hr, hprints.passed, List.map_append, List.append_assoc]
        rfl
      · rw [hcount, fieldCount]
        omega
      · rw [hequal (ht.fits_iff.mp h.1), hfits h.2]
      · rw [List.length_append, List.length_append]
        by_cases hfield : t.length ≤ 2 ^ 31 + f.width
        · have hrest := hlong fun hrest => h ⟨ht.fits_iff.mpr hfield, hrest⟩
          rw [hequal hfield]
          omega
        · have hfirst := hwider hfield
          by_cases hrest : LengthsFit mem args (n + 1) items
          · rw [hfits hrest]
            omega
          · have := hlong hrest
            omega

end Run

section Formats

variable {mem : Memory} {args : ℕ → UInt32} {fmt : UInt32} {items : List FormatItem}
  {out : List UInt8}

/-- Where the text has been printed, the lengths fit: else more would have been. -/
lemma lengthsFit_of_printed {buf : Memory} {s : Console} {r : Scan}
    (hfmt : StringAt mem fmt (items.flatMap FormatItem.bytes))
    (hformats : Formats mem args 0 items out) (hr : printf mem args fmt buf s = some r)
    (hpassed : r.passed = out.map Console.charToUInt32) : LengthsFit mem args 0 items := by
  obtain ⟨r', out', hrun, hr', -, -, hlong⟩ := run_formats (p := ⟨⟨s, []⟩, fmt, 0, -1, -1, buf, []⟩)
    hformats ⟨rfl, rfl⟩ rfl hfmt.2 hfmt.length_lt hfmt.length_lt
  have hsame : r = r' := Option.some.inj (hr.symm.trans hrun)
  by_contra hnot
  have hlonger := hlong hnot
  have hlength := congrArg List.length (hpassed.symm.trans (hsame ▸ hr'))
  rw [List.nil_append, List.length_map, List.length_map] at hlength
  omega

/-- **What `c_printf` prints**: the text that the format and its arguments stand for is passed to
`c_putchar`, and every conversion uses up one argument, exactly if the lengths of the strings
fit. -/
theorem printf_formats (hfmt : StringAt mem fmt (items.flatMap FormatItem.bytes))
    (hformats : Formats mem args 0 items out) (buf : Memory) (s : Console) :
    (∃ r, printf mem args fmt buf s = some r ∧ r.passed = out.map Console.charToUInt32
        ∧ r.ap = fieldCount items)
      ↔ LengthsFit mem args 0 items := by
  constructor
  · rintro ⟨r, hr, hpassed, -⟩
    exact lengthsFit_of_printed hfmt hformats hr hpassed
  · intro h
    obtain ⟨r, out', hrun, hr, hcount, hfits, -⟩ := run_formats
      (p := ⟨⟨s, []⟩, fmt, 0, -1, -1, buf, []⟩) hformats ⟨rfl, rfl⟩ rfl hfmt.2 hfmt.length_lt
      hfmt.length_lt
    rw [hfits h, List.nil_append] at hr
    exact ⟨r, hrun, hr, hcount.trans (Nat.zero_add _)⟩

end Formats

/-! ### A number and a long string -/

/-- `%3d`. -/
def threeDigits : FormatField where
  leftadjust := false
  zero := false
  digits := [3]
  type := .decimal
  digits_lt := by decide
  head_ne := by decide
  width_lt := by decide

/-- The format `"%3d"`. -/
def numberMemory : Memory := fun a =>
  if a = 0 then ascii '%' else if a = 1 then ascii '3' else if a = 2 then ascii 'd' else 0

lemma stringAt_number :
    StringAt numberMemory 0 ([FormatItem.field threeDigits].flatMap FormatItem.bytes) :=
  ⟨ne_zero_of_all rfl, rfl, rfl, rfl, rfl, trivial⟩

lemma formats_seven : Formats numberMemory (fun _ => 7) 0 [.field threeDigits]
    (threeDigits.padded [ascii '7'] ++ []) := by
  refine .field (fun buf => ?_) .nil
  have hstring := ((cvtdec_writes 7 0 buf).stringAt (by decide) (by decide) (by decide)
    (ne_zero_of_all rfl)).1
  have hdigits : numeral 10 (Int32.toInt 7).natAbs = [7] := numeral_of_lt (by decide)
  rw [hdigits] at hstring
  exact hstring

theorem printf_formats_seven :
    ∃ r, printf numberMemory (fun _ => 7) 0 (fun _ => 0) blankConsole = some r
      ∧ r.passed = (threeDigits.padded [ascii '7'] ++ []).map Console.charToUInt32
      ∧ r.ap = fieldCount [.field threeDigits] :=
  (printf_formats stringAt_number formats_seven _ _).mpr ⟨nofun, trivial⟩

/-- `%s`. -/
def plainString : FormatField where
  leftadjust := false
  zero := false
  digits := []
  type := .string
  digits_lt := by decide
  head_ne := by decide
  width_lt := by decide

/-- The format `"%s"`, and a string of `2 ^ 31 + 1` characters at address 16. -/
def longMemory : Memory := fun a =>
  if a = 0 then ascii '%' else if a = 1 then ascii 's'
    else if a.toNat < 16 ∨ 16 + 2 ^ 31 < a.toNat then 0 else ascii 'a'

/-- The string is too long for an `int`. -/
lemma exists_longString : ∃ t, StringAt longMemory 16 t ∧ ¬ t.length ≤ 2 ^ 31 := by
  have hend : longMemory (16 + UInt32.ofNat (2 ^ 31 + 1)) = 0 := by decide
  obtain ⟨t, ht, hle⟩ := exists_stringAt hend
  refine ⟨t, ht, fun hshort => ?_⟩
  have hnul := ht.2.getElem (i := t.length) (by simp)
  rw [List.getElem_append_right (Nat.le_refl _)] at hnul
  simp only [Nat.sub_self, List.getElem_cons_zero] at hnul
  have haddr : ((16 : UInt32) + UInt32.ofNat t.length).toNat = 16 + t.length := by
    rw [UInt32.toNat_add, toNat_ofNat_lt (by omega)]
    exact Nat.mod_eq_of_lt (by rw [show UInt32.toNat 16 = 16 from rfl]; omega)
  have hne : ∀ b : UInt32, b.toNat < 16 → (16 : UInt32) + UInt32.ofNat t.length ≠ b := by
    rintro b hb rfl
    omega
  rw [longMemory, if_neg (hne 0 (by decide)), if_neg (hne 1 (by decide)), haddr,
    if_neg (by omega)] at hnul
  exact absurd hnul (by decide)

/-- In front of a string of `2 ^ 31 + 1` characters fill characters are printed that nobody has
asked for. -/
theorem printf_overfills : ¬ ∀ mem args fmt items out buf s,
    StringAt mem fmt (items.flatMap FormatItem.bytes) → Formats mem args 0 items out →
      ∃ r, printf mem args fmt buf s = some r ∧ r.passed = out.map Console.charToUInt32
        ∧ r.ap = fieldCount items := by
  intro h
  obtain ⟨t, ht, hlong⟩ := exists_longString
  have hfmt : StringAt longMemory 0 ([FormatItem.field plainString].flatMap FormatItem.bytes) :=
    ⟨ne_zero_of_all rfl, rfl, rfl, rfl, trivial⟩
  have hformats : Formats longMemory (fun _ => 16) 0 [.field plainString]
      (plainString.padded t ++ []) := .field ht .nil
  obtain ⟨r, hr, hpassed, -⟩ := h _ _ _ _ _ (fun _ => 0) blankConsole hfmt hformats
  exact hlong ((lengthsFit_of_printed hfmt hformats hr hpassed).1 rfl t ht)

end Sp2
