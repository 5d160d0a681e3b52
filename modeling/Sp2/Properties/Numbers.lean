import Sp2.Devices.Printf
import Sp2.Lib.Address
import Sp2.Lib.Fields
import Sp2.Lib.Numerals

/-!
The characters of a number.

* `storeBytes`: memory after characters have been stored one after the other.
* `Writes`: a conversion stores some characters and a NUL, and returns their number.
* `cvtdec0_eq`, `cvthexLoop_eq`, `cvtoctLoop_eq`: the digits that the loops store.
* `numbers_written`: **`cvtdec` and `cvthex` store the canonical numerals**.
* `octal_written`: `cvtoct` does so **for 0 and 2³⁰ only**: it loses a bit after the first digit.
-/

namespace Sp2

open Numerals Address

/-! ### The statement -/

/-- Memory after the bytes have been stored one after the other. -/
def storeBytes (buf : UInt32) : List UInt8 → Memory → Memory
  | [], mem => mem
  | b :: bs, mem => storeBytes (buf + 1) bs (Function.update mem buf b)

/-- The character of a digit. -/
def digitChar (d : ℕ) : UInt8 :=
  if d < 10 then ascii '0' + d.toUInt8 else ascii 'A' + (d - 10).toUInt8

/-- The characters and a NUL are stored, nothing is stored after the first `size` bytes, and the
number of the characters is returned. -/
structure Writes (buf : UInt32) (mem : Memory) (size : ℕ) (str : List UInt8) (r : Int32 × Memory) :
    Prop where
  memory : r.2 = storeBytes buf (str ++ [0]) mem
  within : ∀ a, size ≤ (a - buf).toNat → r.2 a = mem a
  length : r.1.toInt = str.length

/-- The canonical numeral of a number is stored, after a sign, in at most `size` characters. -/
def WritesNumeral (base size : ℕ) (sign : List UInt8) (n : ℕ) (buf : UInt32) (mem : Memory)
    (r : Int32 × Memory) : Prop :=
  ∃ ds, Canonical base n ds ∧ Writes buf mem (size + 1) (sign ++ ds.map digitChar) r
    ∧ r.1.toInt ≤ size

/-! ### Bytes -/

section Bytes

variable {buf a : UInt32} {mem : Memory} {bs : List UInt8} {b : UInt8}

lemma storeBytes_append (bs' : List UInt8) :
    storeBytes buf (bs ++ bs') mem
      = storeBytes (buf + UInt32.ofNat bs.length) bs' (storeBytes buf bs mem) := by
  induction bs generalizing buf mem with
  | nil => simp [storeBytes]
  | cons b bs ih =>
      rw [List.cons_append, storeBytes, ih, storeBytes, List.length_cons, add_one_add_ofNat]

/-- Bytes before and after are left alone. -/
lemma storeBytes_of_le (h : bs.length ≤ (a - buf).toNat) : storeBytes buf bs mem a = mem a := by
  induction bs generalizing buf mem with
  | nil => rfl
  | cons b bs ih =>
      have hne : a ≠ buf := by
        rintro rfl
        rw [List.length_cons] at h
        simp at h
      have hsub := toNat_sub_add_one hne
      rw [List.length_cons] at h
      rw [storeBytes, ih (by omega), Function.update_of_ne hne]

/-- The bytes that have been stored. -/
lemma storeBytes_apply (hbs : bs.length ≤ 2 ^ 32) {i : ℕ} (hi : i < bs.length) :
    storeBytes buf bs mem (buf + UInt32.ofNat i) = bs[i] := by
  induction bs generalizing buf mem i with
  | nil => exact absurd hi (Nat.not_lt_zero i)
  | cons b bs ih =>
      rw [List.length_cons] at hbs hi
      cases i with
      | zero =>
          have hself : buf + UInt32.ofNat 0 = buf := by simp
          have hlast : (buf - (buf + 1)).toNat = 2 ^ 32 - 1 := by
            simp only [UInt32.toNat_sub, UInt32.toNat_add, UInt32.toNat_one]
            have := buf.toNat_lt
            omega
          rw [hself, storeBytes, storeBytes_of_le (by omega), Function.update_self]
          rfl
      | succ i =>
          rw [storeBytes, ← add_one_add_ofNat, ih (by omega) (by omega)]
          rfl

end Bytes

/-- A conversion that stores its characters and a NUL, and returns how far it has come. -/
lemma writesNumeral_of {base size n : ℕ} {sign : List UInt8} {buf : UInt32} {mem : Memory}
    {ds : List ℕ} {r : UInt32 × Memory} (hds : Canonical base n ds) (hsize : size < 2 ^ 31)
    (hlen : (sign ++ ds.map digitChar).length ≤ size)
    (hr : r = (buf + UInt32.ofNat (sign ++ ds.map digitChar).length,
      storeBytes buf (sign ++ ds.map digitChar) mem)) :
    WritesNumeral base size sign n buf mem ((r.1 - buf).toInt32, Function.update r.2 r.1 0) := by
  set str := sign ++ ds.map digitChar with hstr
  have hmemory : Function.update r.2 r.1 0 = storeBytes buf (str ++ [0]) mem := by
    rw [storeBytes_append, hr]
    rfl
  have hnat : (UInt32.ofNat str.length).toNat = str.length := toNat_ofNat_lt (by omega)
  have hcount : (r.1 - buf).toInt32.toInt = str.length := by
    have hbits : (r.1 - buf).toBitVec.toNat = str.length := by
      rw [hr, add_sub_cancel_left']
      exact hnat
    change (r.1 - buf).toBitVec.toInt = _
    rw [BitVec.toInt_eq_toNat_of_lt (by omega), hbits]
  refine ⟨ds, hds, ⟨hmemory, fun a ha => ?_, hcount⟩,
    hcount.trans_le (by exact_mod_cast hlen)⟩
  dsimp only
  rw [hmemory, storeBytes_of_le]
  rw [List.length_append, List.length_singleton]
  omega

/-! ### Decimal digits -/

section Decimal

variable {v : Int32} {buf : UInt32} {mem : Memory} {n : ℕ}

/-- A small number as a character. -/
lemma intToChar_eq (h : v.toInt = n) : intToChar v = n.toUInt8 := by
  have hnat : v.toUInt32.toNat = n := by
    have hnonneg : 0 ≤ v := by
      rw [Int32.le_iff_toInt_le, h]
      exact Int.natCast_nonneg n
    rw [Int32.toNat_toUInt32_of_le hnonneg, ← Int32.toNat_toInt, h, Int.toNat_natCast]
  rw [← UInt8.toNat_inj, intToChar, UInt32.toNat_toUInt8, hnat]
  exact (UInt8.toNat_ofNat' ..).symm

/-- The last digit. -/
lemma lastDigit_eq (h : v.toInt = n) : lastDigit v = digitChar (n % 10) := by
  have hmod : (v % 10).toInt = (n % 10 : ℕ) := by
    rw [Int32.toInt_mod, h]
    rfl
  have hadd : (v % 10 + 48).toInt = (n % 10 + 48 : ℕ) := by
    have hlt := Nat.mod_lt n (show 0 < 10 by decide)
    rw [Int32.toInt_add, hmod]
    change (((n % 10 : ℕ) : ℤ) + 48).bmod (2 ^ 32) = _
    rw [Int.bmod_eq_of_le (by omega) (by omega)]
    rfl
  have hlt := Nat.mod_lt n (show 0 < 10 by decide)
  rw [lastDigit, intToChar_eq hadd, digitChar, if_pos hlt, ← UInt8.toNat_inj]
  rw [UInt8.toNat_add]
  change (n % 10 + 48) % 256 = (48 + n % 10 % 256) % 256
  omega

/-- **The digits of a number that is not negative**, by induction on the number. -/
lemma cvtdec0_eq (buf : UInt32) (mem : Memory) (h : v.toInt = n) :
    cvtdec0 buf v mem = (buf + UInt32.ofNat (numeral 10 n).length,
      storeBytes buf ((numeral 10 n).map digitChar) mem) := by
  induction n using Nat.strong_induction_on generalizing v with
  | _ n ih =>
      have hdiv : (v / 10).toInt = (n / 10 : ℕ) := by
        rw [Int32.toInt_div_of_ne_right _ _ (by decide), h]
        rfl
      have hparts : decParts v = (v / 10, v) := by
        have hnonneg : ¬ v / 10 < 0 := by
          rw [Int32.lt_iff_toInt_lt, hdiv, Int32.toInt_zero]
          omega
        rw [decParts]
        exact if_neg hnonneg
      rw [cvtdec0, hparts, storeChar]
      dsimp only
      rw [lastDigit_eq h]
      by_cases hn : n < 10
      · have hzero : v / 10 = 0 := by
          rw [← Int32.toInt_inj, hdiv, Nat.div_eq_of_lt hn]
          rfl
        rw [if_neg (not_not.mpr hzero), numeral_of_lt hn, Nat.mod_eq_of_lt hn]
        rfl
      · have hne : v / 10 ≠ 0 := by
          intro hzero
          rw [hzero, Int32.toInt_zero] at hdiv
          have : n / 10 = 0 := by exact_mod_cast hdiv.symm
          omega
        rw [if_pos hne, ih (n / 10) (by omega) hdiv, numeral_step (by decide) (not_lt.mp hn),
          List.map_append, storeBytes_append, List.length_map, List.length_append,
          List.length_singleton, ← add_ofNat_add]
        rfl

/-- The number whose negation overflows. -/
lemma cvtdec0_min (buf : UInt32) (mem : Memory) :
    cvtdec0 buf (-2147483648) mem = (buf + UInt32.ofNat (numeral 10 (2 ^ 31)).length,
      storeBytes buf ((numeral 10 (2 ^ 31)).map digitChar) mem) := by
  have hparts : decParts (-2147483648) = (214748364, 8) := by decide
  rw [cvtdec0, hparts, storeChar]
  dsimp only
  rw [if_pos (by decide), cvtdec0_eq (n := 214748364) buf mem rfl,
    numeral_step (n := 2 ^ 31) (by decide) (by decide), List.map_append, storeBytes_append,
    List.length_map, List.length_append, List.length_singleton, ← add_ofNat_add]
  rfl

/-- The digits of a negative number. -/
lemma cvtdec0_neg (buf : UInt32) (mem : Memory) (h : v < 0) :
    cvtdec0 buf (-v) mem = (buf + UInt32.ofNat (numeral 10 v.toInt.natAbs).length,
      storeBytes buf ((numeral 10 v.toInt.natAbs).map digitChar) mem) := by
  rw [Int32.lt_iff_toInt_lt, Int32.toInt_zero] at h
  by_cases hmin : v = -2147483648
  · subst hmin
    exact cvtdec0_min buf mem
  · have hge := v.le_toInt
    have hne : v.toInt ≠ -2 ^ 31 := fun heq => hmin (Int32.toInt_inj.mp heq)
    refine cvtdec0_eq buf mem ?_
    rw [Int32.toInt_neg, Int.bmod_eq_of_le (by omega) (by omega)]
    omega

/-- **The decimal numeral** of any number. -/
lemma cvtdec_writes (v : Int32) (buf : UInt32) (mem : Memory) :
    WritesNumeral 10 11 (if v < 0 then [ascii '-'] else []) v.toInt.natAbs buf mem
      (cvtdec buf v mem) := by
  have hlen : (numeral 10 v.toInt.natAbs).length ≤ 10 := by
    refine length_numeral_le (by decide) (by decide) ?_
    have := v.toInt_lt
    have := v.le_toInt
    omega
  refine writesNumeral_of (canonical_numeral (by decide) _) (by decide) ?_ ?_
  · rw [List.length_append, List.length_map]
    split_ifs
    · rw [List.length_singleton]
      omega
    · rw [List.length_nil]
      omega
  · by_cases hneg : v < 0
    · rw [if_pos hneg, if_pos hneg, cvtdec0_neg _ _ hneg, List.length_append,
        List.length_singleton, List.length_map, ← add_ofNat_add]
      rfl
    · have hnat : v.toInt = (v.toInt.natAbs : ℕ) := by
        rw [Int32.lt_iff_toInt_lt, Int32.toInt_zero] at hneg
        omega
      rw [if_neg hneg, if_neg hneg, cvtdec0_eq _ _ hnat, List.nil_append, List.length_map]

end Decimal

/-! ### Hexadecimal digits -/

section Hexadecimal

variable {v val : Int32} {bp : UInt32} {mem : Memory} {d n w : ℕ} {ds : List ℕ} {stored : Bool}

/-- The digits that a loop stores: once it has stored one, all of them. -/
def shown (stored : Bool) (ds : List ℕ) : List ℕ := if stored = true then ds else trim ds

/-- This digit is stored, because it is the last one, or not zero, or not the first one. -/
lemma shown_cons (h : ds = [] ∨ d ≠ 0 ∨ stored = true) :
    shown stored (d :: ds) = d :: shown true ds := by
  rw [shown, shown, if_pos rfl]
  split_ifs with hstored
  · rfl
  · rcases h with rfl | hd | hstored'
    · rfl
    · exact trim_cons_of_ne hd ds
    · exact absurd hstored' hstored

/-- This digit is left out. -/
lemma shown_zero_cons (hds : ds ≠ []) (hstored : ¬ stored = true) :
    shown stored (0 :: ds) = shown stored ds := by
  rw [shown, shown, if_neg hstored, if_neg hstored, trim_zero_cons hds]

/-- One more digit is stored. -/
lemma storeBytes_digit (bp : UInt32) (mem : Memory) (d : ℕ) (ds : List ℕ) :
    (bp + 1 + UInt32.ofNat ds.length,
      storeBytes (bp + 1) (ds.map digitChar) (Function.update mem bp (digitChar d)))
      = (bp + UInt32.ofNat (d :: ds).length, storeBytes bp ((d :: ds).map digitChar) mem) := by
  rw [add_one_add_ofNat]
  rfl

lemma hexdigit_eq (h : val.toUInt32.toNat = d) (hd : d < 16) : hexdigit val = digitChar d := by
  have htable : ∀ d < 16, ((hexdigits[d]?).map ascii).getD 0 = digitChar d := by decide
  have hint : val.toInt.toNat = d := by
    change val.toBitVec.toInt.toNat = d
    have hbits : val.toBitVec.toNat = d := h
    rw [BitVec.toInt_eq_toNat_of_lt (by omega), hbits]
    rfl
  rw [hexdigit, hint, htable d hd]

lemma eq_zero_iff (val : Int32) : val = 0 ↔ val.toUInt32.toNat = 0 := by
  rw [← Int32.toBitVec_inj, ← BitVec.toNat_inj]
  rfl

/-- **The digits that `cvthex` stores**, by induction on the rounds left. -/
lemma cvthexLoop_eq (n : ℕ) (v : Int32) (stored : Bool) (bp : UInt32) (mem : Memory) :
    cvthexLoop n v stored bp mem
      = (bp + UInt32.ofNat (shown stored (topDigits 32 4 n v.toUInt32.toNat)).length,
        storeBytes bp ((shown stored (topDigits 32 4 n v.toUInt32.toNat)).map digitChar) mem) := by
  induction n generalizing v stored bp mem with
  | zero => cases stored <;> simp [cvthexLoop, topDigits, shown, trim, storeBytes]
  | succ n ih =>
      have hw := v.toUInt32.toNat_lt
      have hval : (v &&& 0xf0000000).toUInt32.toNat = v.toUInt32.toNat / 2 ^ 28 * 2 ^ 28 := by
        rw [← Fields.and_high (j := 4) (i := 28) _ hw]
        exact BitVec.toNat_and ..
      have hshift : (v <<< 4).toUInt32.toNat = v.toUInt32.toNat * 2 ^ 4 % 2 ^ 32 := by
        rw [← Nat.shiftLeft_eq]
        exact BitVec.toNat_shiftLeft ..
      have hdigit : hexdigit (((v &&& 0xf0000000) >>> 28) &&& 0xf)
          = digitChar (v.toUInt32.toNat / 2 ^ 28) := by
        refine hexdigit_eq ?_ (by omega)
        refine (Fields.toNat_sshiftRight_and (v &&& 0xf0000000).toBitVec (n := 28) (k := 4)
          (by decide) rfl).trans ?_
        change (v &&& 0xf0000000).toUInt32.toNat / 2 ^ 28 % 2 ^ 4 = _
        omega
      have hzero : v &&& 0xf0000000 = 0 ↔ v.toUInt32.toNat / 2 ^ 28 = 0 := by
        rw [eq_zero_iff, hval]
        omega
      have hnil : topDigits 32 4 n (v.toUInt32.toNat * 2 ^ 4 % 2 ^ 32) = [] ↔ n = 0 := by
        rw [← List.length_eq_zero_iff, length_topDigits]
      rw [cvthexLoop, topDigits]
      dsimp only
      by_cases h : n = 0 ∨ v &&& 0xf0000000 ≠ 0 ∨ stored = true
      · have hshown := h
        rw [← hnil, ne_eq, hzero] at hshown
        rw [if_pos h, ih, hshift, hdigit, shown_cons hshown, storeBytes_digit]
      · obtain ⟨hn, hd, hstored⟩ := not_or.mp h |>.imp_right not_or.mp
        rw [not_not, hzero] at hd
        rw [if_neg h, ih, hshift, hd, shown_zero_cons (mt hnil.mp hn) hstored]

/-- **The hexadecimal numeral** of any number modulo `2 ^ 32`. -/
lemma cvthex_writes (v : Int32) (buf : UInt32) (mem : Memory) :
    WritesNumeral 16 8 [] v.toUInt32.toNat buf mem (cvthex buf v mem) := by
  have hw := v.toUInt32.toNat_lt
  have hds : Canonical 16 v.toUInt32.toNat (trim (topDigits 32 4 8 v.toUInt32.toNat)) := by
    have h : Canonical (2 ^ 4) (value (2 ^ 4) (topDigits 32 4 8 v.toUInt32.toNat))
        (trim (topDigits 32 4 8 v.toUInt32.toNat)) :=
      canonical_trim (List.cons_ne_nil _ _) fun d hd => topDigits_lt (by decide) hw hd
    rwa [value_topDigits hw (by decide), Nat.sub_self, Nat.pow_zero, Nat.div_one] at h
  refine writesNumeral_of hds (by decide) ?_ ?_
  · rw [List.nil_append, List.length_map, hds.eq_numeral (by decide)]
    exact length_numeral_le (by decide) (by decide) hw
  · rw [cvthexLoop_eq, List.nil_append, List.length_map]
    rfl

end Hexadecimal

/-- **The numerals are canonical**: `cvtdec` stores the decimal numeral of the number, with a sign
if it is negative, and `cvthex` the hexadecimal one of the number modulo `2 ^ 32`. -/
theorem numbers_written (v : Int32) (buf : UInt32) (mem : Memory) :
    WritesNumeral 10 11 (if v < 0 then [ascii '-'] else []) v.toInt.natAbs buf mem
        (cvtdec buf v mem)
      ∧ WritesNumeral 16 8 [] v.toUInt32.toNat buf mem (cvthex buf v mem) :=
  ⟨cvtdec_writes v buf mem, cvthex_writes v buf mem⟩

/-! ### Octal digits -/

section Octal

variable {v val : Int32} {d n : ℕ}

/-- **The digits that `cvtoct` stores**, after the next one is taken, by induction on the rounds
left. -/
lemma cvtoctLoop_eq (n : ℕ) (v val : Int32) (stored : Bool) (bp : UInt32) (mem : Memory)
    (hval : (val &&& 0x7).toUInt32.toNat = d) (hzero : val = 0 ↔ d = 0) :
    cvtoctLoop (n + 1) v val stored bp mem
      = (bp + UInt32.ofNat
          (shown stored (d :: topDigits 32 3 n (v <<< 3).toUInt32.toNat)).length,
        storeBytes bp
          ((shown stored (d :: topDigits 32 3 n (v <<< 3).toUInt32.toNat)).map digitChar) mem) := by
  have hd : d < 8 := by
    rw [← hval]
    exact Nat.lt_succ_of_le Nat.and_le_right
  have hdigit : hexdigit (val &&& 0x7) = digitChar d := hexdigit_eq hval (by omega)
  induction n generalizing v val stored bp mem d with
  | zero =>
      have hlast : shown stored [d] = d :: shown true [] := shown_cons (Or.inl rfl)
      rw [cvtoctLoop, if_pos (Or.inl rfl), cvtoctLoop, topDigits, hlast, hdigit]
      rfl
  | succ n ih =>
      set u := v <<< 3 with hu
      have hw := u.toUInt32.toNat_lt
      have hmask : (u &&& 0xe0000000).toUInt32.toNat = u.toUInt32.toNat / 2 ^ 29 * 2 ^ 29 := by
        rw [← Fields.and_high (j := 3) (i := 29) _ hw]
        exact BitVec.toNat_and ..
      have hnext : (((u &&& 0xe0000000) >>> 29) &&& 0x7).toUInt32.toNat
          = u.toUInt32.toNat / 2 ^ 29 := by
        refine (Fields.toNat_sshiftRight_and (u &&& 0xe0000000).toBitVec (n := 29) (k := 3)
          (by decide) rfl).trans ?_
        change (u &&& 0xe0000000).toUInt32.toNat / 2 ^ 29 % 2 ^ 3 = _
        omega
      have hnext_zero : (u &&& 0xe0000000) >>> 29 = 0 ↔ u.toUInt32.toNat / 2 ^ 29 = 0 := by
        refine ⟨fun h => by rw [← hnext, h]; rfl, fun h => ?_⟩
        have hclear : u &&& 0xe0000000 = 0 := by rw [eq_zero_iff, hmask, h, Nat.zero_mul]
        rw [hclear]
        rfl
      have hshift : (u <<< 3).toUInt32.toNat = u.toUInt32.toNat * 2 ^ 3 % 2 ^ 32 := by
        rw [← Nat.shiftLeft_eq]
        exact BitVec.toNat_shiftLeft ..
      have hlt : u.toUInt32.toNat / 2 ^ 29 < 8 := by omega
      have ih := fun stored bp mem =>
        ih u ((u &&& 0xe0000000) >>> 29) stored bp mem hnext hnext_zero hlt
          (hexdigit_eq hnext (by omega))
      rw [hshift] at ih
      rw [cvtoctLoop, topDigits, ← hu]
      by_cases h : n + 1 = 0 ∨ val ≠ 0 ∨ stored = true
      · have hshown := h.resolve_left (Nat.succ_ne_zero n)
        rw [ne_eq, hzero] at hshown
        rw [if_pos h, ih, hdigit, shown_cons (Or.inr hshown), storeBytes_digit]
      · obtain ⟨hz, hstored⟩ := not_or.mp (not_or.mp h).2
        rw [not_not, hzero] at hz
        rw [if_neg h, ih, hz, shown_zero_cons (List.cons_ne_nil _ _) hstored]

/-- The number that `cvtoct` writes: the sign is copied into the first digit, and bit 29 is lost
with the two bits of this digit. -/
def octValue (w : ℕ) : ℕ := (w / 2 ^ 30 + if w < 2 ^ 31 then 0 else 4) * 2 ^ 30 + w * 2 % 2 ^ 30

/-- The first digit. -/
lemma first_octal (v : Int32) :
    (((v &&& 0xc0000000) >>> 30) &&& 0x7).toUInt32.toNat
        = v.toUInt32.toNat / 2 ^ 30 + (if v.toUInt32.toNat < 2 ^ 31 then 0 else 4)
      ∧ ((v &&& 0xc0000000) >>> 30 = 0 ↔
        v.toUInt32.toNat / 2 ^ 30 + (if v.toUInt32.toNat < 2 ^ 31 then 0 else 4) = 0) := by
  have hw := v.toUInt32.toNat_lt
  have hmask : (v &&& 0xc0000000).toUInt32.toNat = v.toUInt32.toNat / 2 ^ 30 * 2 ^ 30 := by
    rw [← Fields.and_high (j := 2) (i := 30) _ hw]
    exact BitVec.toNat_and ..
  have hcases : v.toUInt32.toNat / 2 ^ 30 = 0 ∨ v.toUInt32.toNat / 2 ^ 30 = 1
      ∨ v.toUInt32.toNat / 2 ^ 30 = 2 ∨ v.toUInt32.toNat / 2 ^ 30 = 3 := by omega
  have heq : ∀ c : Int32, c.toUInt32.toNat = v.toUInt32.toNat / 2 ^ 30 * 2 ^ 30 →
      v &&& 0xc0000000 = c := fun c hc => by
    rw [← Int32.toBitVec_inj, ← BitVec.toNat_inj]
    exact hmask.trans hc.symm
  rcases hcases with h | h | h | h
  · rw [h, if_pos (by omega), heq 0 (by rw [h]; rfl)]
    decide
  · rw [h, if_pos (by omega), heq 0x40000000 (by rw [h]; rfl)]
    decide
  · rw [h, if_neg (by omega), heq 0x80000000 (by rw [h]; rfl)]
    decide
  · rw [h, if_neg (by omega), heq 0xc0000000 (by rw [h]; rfl)]
    decide

/-- **What `cvtoct` writes**: the octal numeral of another number. -/
lemma cvtoct_writes (v : Int32) (buf : UInt32) (mem : Memory) :
    WritesNumeral 8 11 [] (octValue v.toUInt32.toNat) buf mem (cvtoct buf v mem) := by
  have hw := v.toUInt32.toNat_lt
  obtain ⟨hfirst, hzero⟩ := first_octal v
  set d := v.toUInt32.toNat / 2 ^ 30 + (if v.toUInt32.toNat < 2 ^ 31 then 0 else 4) with hd
  have hlt : d < 8 := by
    rw [hd]
    split_ifs <;> omega
  have hshift : (v <<< 3).toUInt32.toNat = v.toUInt32.toNat * 2 ^ 3 % 2 ^ 32 := by
    rw [← Nat.shiftLeft_eq]
    exact BitVec.toNat_shiftLeft ..
  set ds := d :: topDigits 32 3 10 (v <<< 3).toUInt32.toNat with hds
  have hvalue : value 8 ds = octValue v.toUInt32.toNat := by
    have htop := value_topDigits (W := 32) (n := 10) (k := 3) (v <<< 3).toUInt32.toNat_lt
      (by decide)
    rw [hds, value_cons, length_topDigits]
    change d * 8 ^ 10 + value (2 ^ 3) _ = _
    rw [htop, hshift, octValue, ← hd]
    omega
  have hcanonical : Canonical 8 (octValue v.toUInt32.toNat) (trim ds) := by
    rw [← hvalue]
    refine canonical_trim (List.cons_ne_nil _ _) fun x hx => ?_
    rcases List.mem_cons.mp hx with rfl | hx
    · exact hlt
    · exact topDigits_lt (W := 32) (k := 3) (by decide) (v <<< 3).toUInt32.toNat_lt hx
  refine writesNumeral_of hcanonical (by decide) ?_ ?_
  · rw [List.nil_append, List.length_map, hcanonical.eq_numeral (by decide)]
    refine length_numeral_le (by decide) (by decide) ?_
    rw [octValue, ← hd]
    omega
  · rw [cvtoctLoop_eq 10 v _ _ _ _ hfirst hzero, List.nil_append, List.length_map]
    rfl

/-! ### What has been written -/

/-- The characters that have been stored are determined. -/
lemma Writes.unique {buf : UInt32} {mem : Memory} {size size' : ℕ} {str str' : List UInt8}
    {r : Int32 × Memory} (h : Writes buf mem size str r) (h' : Writes buf mem size' str' r) :
    str = str' := by
  have hlen : str.length = str'.length := by exact_mod_cast h.length.symm.trans h'.length
  have hbound : str.length < 2 ^ 31 := by
    have := r.1.toInt_lt
    have hlength := h.length
    omega
  have hstored : ∀ {l : List UInt8} {i : ℕ}, l.length = str.length → (hi : i < l.length) →
      r.2 = storeBytes buf (l ++ [0]) mem → r.2 (buf + UInt32.ofNat i) = l[i] := by
    intro l i hl hi hr
    have hsize : (l ++ [0]).length = l.length + 1 := by simp
    rw [hr, storeBytes_apply (by omega) (by omega), List.getElem_append_left hi]
  refine List.ext_getElem hlen fun i hi hi' => ?_
  rw [← hstored rfl hi h.memory, hstored hlen.symm hi' h'.memory]

/-- Different digits are different characters. -/
lemma digitChar_inj {d e : ℕ} (hd : d < 16) (he : e < 16) (h : digitChar d = digitChar e) :
    d = e := by
  have hall : ∀ d < 16, ∀ e < 16, digitChar d = digitChar e → d = e := by decide
  exact hall d hd e he h

/-- The number whose numeral is stored is determined. -/
lemma WritesNumeral.unique {base size m : ℕ} {buf : UInt32} {mem : Memory} {r : Int32 × Memory}
    (hbase : base ≤ 16) (h : WritesNumeral base size [] m buf mem r)
    (h' : WritesNumeral base size [] n buf mem r) : m = n := by
  obtain ⟨ds, hds, hwrites, -⟩ := h
  obtain ⟨ds', hds', hwrites', -⟩ := h'
  have hmap : ds.map digitChar = ds'.map digitChar := hwrites.unique hwrites'
  have heq : ds = ds' := by
    have hlen : ds.length = ds'.length := by simpa using congrArg List.length hmap
    refine List.ext_getElem hlen fun i hi hi' => ?_
    have hchar : (ds.map digitChar)[i]? = (ds'.map digitChar)[i]? := by rw [hmap]
    rw [List.getElem?_map, List.getElem?_map, List.getElem?_eq_getElem hi,
      List.getElem?_eq_getElem hi', Option.map_some, Option.map_some, Option.some.injEq] at hchar
    exact digitChar_inj ((hds.digits _ (List.getElem_mem hi)).trans_le hbase)
      ((hds'.digits _ (List.getElem_mem hi')).trans_le hbase) hchar
  rw [← hds.value, ← hds'.value, heq]

/-- **The octal numeral** is canonical for 0 and `2 ^ 30` only. -/
theorem octal_written (v : Int32) (buf : UInt32) (mem : Memory) :
    WritesNumeral 8 11 [] v.toUInt32.toNat buf mem (cvtoct buf v mem)
      ↔ v = 0 ∨ v = 0x40000000 := by
  have hw := v.toUInt32.toNat_lt
  have hwrites := cvtoct_writes v buf mem
  have hvalue : octValue v.toUInt32.toNat = v.toUInt32.toNat
      ↔ v.toUInt32.toNat = 0 ∨ v.toUInt32.toNat = 2 ^ 30 := by
    rw [octValue]
    split_ifs <;> omega
  have hword : v.toUInt32.toNat = 2 ^ 30 ↔ v = 0x40000000 := by
    rw [← Int32.toBitVec_inj, ← BitVec.toNat_inj]
    exact Iff.rfl
  rw [eq_zero_iff v, ← hword, ← hvalue]
  refine ⟨fun h => hwrites.unique (by decide) h, fun heq => ?_⟩
  rw [heq] at hwrites
  exact hwrites

end Octal

/-- The octal digits of 1 are printed as `2`. -/
theorem octal_misprinted : ¬ ∀ v buf mem,
    WritesNumeral 8 11 [] v.toUInt32.toNat buf mem (cvtoct buf v mem) := by
  intro h
  have heq := (cvtoct_writes 1 0 fun _ => 0).unique (by decide) (h 1 0 fun _ => 0)
  exact absurd heq (by decide)

end Sp2
