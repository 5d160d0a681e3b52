import Mathlib.Data.Nat.Digits.Lemmas

/-!
Positional numerals, the highest digit first.

* `value`: the number that digits stand for.
* `Canonical`: the digits of a number without a leading zero; there is exactly one such list,
  `numeral`.
* `numeral_step`: the recursion by the last digit.
* `trim`: leading zeros are dropped, except for the last digit; `canonical_trim`.
* `topDigits`: the digits at the top of a word that is shifted; `value_topDigits`.
-/

namespace Numerals

variable {b n k d : ℕ} {ds es : List ℕ}

/-- The number that digits stand for. -/
def value (b : ℕ) (ds : List ℕ) : ℕ := ds.foldl (fun n d => n * b + d) 0

/-- The digits of a number, without a leading zero except for zero itself. -/
structure Canonical (b n : ℕ) (ds : List ℕ) : Prop where
  digits : ∀ d ∈ ds, d < b
  value : value b ds = n
  nonempty : ds ≠ []
  no_leading_zero : ds.head? = some 0 → ds = [0]

/-- The numeral of a number. -/
def numeral (b n : ℕ) : List ℕ := if n = 0 then [0] else (Nat.digits b n).reverse

/-! ### Values -/

@[simp] lemma value_singleton : value b [d] = d := by simp [value]

lemma value_append_singleton : value b (ds ++ [d]) = value b ds * b + d := by
  rw [value, List.foldl_append]
  rfl

lemma value_eq_ofDigits (ds : List ℕ) : value b ds = Nat.ofDigits b ds.reverse := by
  induction ds using List.reverseRecOn with
  | nil => rfl
  | append_singleton ds d ih =>
      rw [value_append_singleton, ih, List.reverse_append, List.reverse_singleton,
        List.singleton_append, Nat.ofDigits_cons, Nat.mul_comm, Nat.add_comm]

lemma value_cons : value b (d :: ds) = d * b ^ ds.length + value b ds := by
  rw [value_eq_ofDigits, value_eq_ofDigits, List.reverse_cons, Nat.ofDigits_append,
    List.length_reverse, Nat.ofDigits_singleton, Nat.add_comm, Nat.mul_comm]

/-! ### The canonical numeral -/

lemma canonical_numeral (hb : 1 < b) (n : ℕ) : Canonical b n (numeral b n) := by
  rw [numeral]
  split_ifs with hn
  · subst hn
    exact ⟨by simpa using Nat.zero_lt_of_lt hb, value_singleton, by simp, fun _ => rfl⟩
  · have hne : Nat.digits b n ≠ [] := Nat.digits_ne_nil_iff_ne_zero.mpr hn
    refine ⟨fun d hd => Nat.digits_lt_base hb (List.mem_reverse.mp hd), ?_, by simpa using hne,
      fun hhead => ?_⟩
    · rw [value_eq_ofDigits, List.reverse_reverse, Nat.ofDigits_digits]
    · rw [List.head?_reverse, List.getLast?_eq_some_getLast hne, Option.some.injEq] at hhead
      exact absurd hhead (Nat.getLast_digit_ne_zero b hn)

/-- A number has one canonical numeral. -/
lemma Canonical.eq_numeral (hb : 1 < b) (h : Canonical b n ds) : ds = numeral b n := by
  rw [numeral]
  split_ifs with hn
  · -- the head of the digits of zero is zero
    obtain ⟨d, es, rfl⟩ := List.exists_cons_of_ne_nil h.nonempty
    have hvalue := h.value
    rw [value_cons, hn] at hvalue
    have hpos : 0 < b ^ es.length := Nat.pow_pos (Nat.zero_lt_of_lt hb)
    have hd : d = 0 := by
      by_contra hne
      have := Nat.mul_pos (Nat.pos_of_ne_zero hne) hpos
      omega
    exact h.no_leading_zero (by rw [hd]; rfl)
  · have hlast : ∀ hne : ds.reverse ≠ [], ds.reverse.getLast hne ≠ 0 := by
      intro hne hzero
      have hhead : ds.head? = some 0 := by
        rw [← List.getLast?_reverse, List.getLast?_eq_some_getLast hne, hzero]
      have hvalue := h.value
      rw [h.no_leading_zero hhead, value_singleton] at hvalue
      exact hn hvalue.symm
    have hdigits := Nat.digits_ofDigits b hb ds.reverse
      (fun d hd => h.digits d (List.mem_reverse.mp hd)) hlast
    rw [← value_eq_ofDigits, h.value] at hdigits
    rw [hdigits, List.reverse_reverse]

lemma numeral_of_lt (h : n < b) : numeral b n = [n] := by
  rw [numeral]
  split_ifs with hn
  · rw [hn]
  · rw [Nat.digits_of_lt b n hn h]
    rfl

/-- The last digit of a numeral, and the numeral in front of it. -/
lemma numeral_step (hb : 1 < b) (h : b ≤ n) : numeral b n = numeral b (n / b) ++ [n % b] := by
  have hn : n ≠ 0 := by omega
  have hq : n / b ≠ 0 := (Nat.div_pos h (by omega)).ne'
  rw [numeral, numeral, if_neg hn, if_neg hq, Nat.digits_def' hb (Nat.pos_of_ne_zero hn),
    List.reverse_cons]

lemma length_numeral_le (hb : 1 < b) (hk : 0 < k) (h : n < b ^ k) : (numeral b n).length ≤ k := by
  rw [numeral]
  split_ifs with hn
  · exact hk
  · rw [List.length_reverse]
    exact (Nat.digits_length_le_iff hb n).mpr h

/-! ### Leading zeros -/

/-- The digits without leading zeros, but with the last one. -/
def trim : List ℕ → List ℕ
  | [] => []
  | [d] => [d]
  | d :: e :: ds => if d = 0 then trim (e :: ds) else d :: e :: ds

lemma trim_cons_of_ne (hd : d ≠ 0) : ∀ ds, trim (d :: ds) = d :: ds
  | [] => rfl
  | e :: ds => by rw [trim, if_neg hd]

lemma trim_zero_cons : ∀ {ds : List ℕ}, ds ≠ [] → trim (0 :: ds) = trim ds
  | [], h => absurd rfl h
  | e :: ds, _ => by rw [trim, if_pos rfl]

/-- **Without leading zeros** digits are a canonical numeral. -/
lemma canonical_trim (hne : ds ≠ []) (h : ∀ d ∈ ds, d < b) :
    Canonical b (value b ds) (trim ds) := by
  induction ds using trim.induct with
  | case1 => exact absurd rfl hne
  | case2 d => exact ⟨h, rfl, hne, fun hhead => by simpa [trim] using hhead⟩
  | case3 e ds ih =>
      have ih := ih (List.cons_ne_nil e ds) fun x hx => h x (List.mem_cons_of_mem 0 hx)
      rw [trim, if_pos rfl, value_cons, Nat.zero_mul, Nat.zero_add]
      exact ih
  | case4 d e ds hd =>
      rw [trim, if_neg hd]
      exact ⟨h, rfl, hne, fun hhead => absurd (Option.some.inj hhead) hd⟩

/-! ### The digits of a word -/

section Word

variable {W w : ℕ}

/-- So many digits of `k` bits at the top of a word of `W` bits, the word being shifted to the left
after each. -/
def topDigits (W k : ℕ) : ℕ → ℕ → List ℕ
  | 0, _ => []
  | n + 1, w => w / 2 ^ (W - k) :: topDigits W k n (w * 2 ^ k % 2 ^ W)

lemma length_topDigits (W k : ℕ) : ∀ n w, (topDigits W k n w).length = n
  | 0, _ => rfl
  | n + 1, w => by rw [topDigits, List.length_cons, length_topDigits]

lemma topDigits_lt (hk : k ≤ W) (hw : w < 2 ^ W) (hd : d ∈ topDigits W k n w) : d < 2 ^ k := by
  induction n generalizing w with
  | zero => exact absurd hd List.not_mem_nil
  | succ n ih =>
      rcases List.mem_cons.mp hd with rfl | hd
      · refine Nat.div_lt_of_lt_mul ?_
        rwa [← Nat.pow_add, Nat.sub_add_cancel hk]
      · exact ih (Nat.mod_lt _ (Nat.two_pow_pos W)) hd

/-- The digits stand for the bits they are taken from. -/
lemma value_topDigits (hw : w < 2 ^ W) (h : n * k ≤ W) :
    value (2 ^ k) (topDigits W k n w) = w / 2 ^ (W - n * k) := by
  induction n generalizing w with
  | zero =>
      rw [Nat.zero_mul, Nat.sub_zero, Nat.div_eq_of_lt hw]
      rfl
  | succ n ih =>
      rw [Nat.succ_mul] at h
      obtain ⟨e, rfl⟩ := Nat.exists_eq_add_of_le h
      have hpow : 2 ^ (n * k + k + e) = 2 ^ (n * k + e) * 2 ^ k := by
        rw [← Nat.pow_add]
        congr 1
        omega
      have hshift : w * 2 ^ k % 2 ^ (n * k + k + e) = w % 2 ^ (n * k + e) * 2 ^ k := by
        rw [hpow, Nat.mul_mod_mul_right]
      have hrest : w % 2 ^ (n * k + e) * 2 ^ k / 2 ^ (k + e) = w % 2 ^ (n * k + e) / 2 ^ e := by
        rw [Nat.add_comm k e, Nat.pow_add 2 e k, Nat.mul_div_mul_right _ _ (Nat.two_pow_pos k)]
      have hexp : n * k + k + e - n * k = k + e := by omega
      have htop : n * k + k + e - k = n * k + e := by omega
      have hlow : n * k + k + e - (n + 1) * k = e := by
        rw [Nat.succ_mul]
        omega
      rw [topDigits, value_cons, length_topDigits, ih (Nat.mod_lt _ (Nat.two_pow_pos _)) (by omega),
        hshift, hexp, hrest, htop, hlow, ← Nat.pow_mul, Nat.mul_comm k n]
      -- both parts of the word, without the bits below the digits
      calc w / 2 ^ (n * k + e) * 2 ^ (n * k) + w % 2 ^ (n * k + e) / 2 ^ e
          = (2 ^ e * (w / 2 ^ (n * k + e) * 2 ^ (n * k)) + w % 2 ^ (n * k + e)) / 2 ^ e := by
            rw [Nat.mul_add_div (Nat.two_pow_pos e)]
        _ = w / 2 ^ e := by
            rw [Nat.mul_left_comm, ← Nat.pow_add, Nat.add_comm e, Nat.mul_comm, Nat.div_add_mod]

end Word

end Numerals
