import Mathlib.Algebra.Ring.Nat
import Mathlib.Tactic.Common

/-!
Fields of machine words, as numbers.

* `or_eq_add`: the parts of a word that do not overlap add up.
* `toNat_and_mask`, `toNat_shiftRight`, `toNat_shiftLeft`: a mask is a remainder, a shift to the
  right a quotient, and one to the left that loses no bit a product.
* `toNat_byte_shiftRight`: a byte that is shifted by its width is zero.
* `toNat_sshiftRight_and`: after a shift that copies the sign, a mask keeps the field.
-/

namespace Fields

variable {a m s : UInt32} {k n i : ℕ}

/-- Two parts of a word that do not overlap. -/
lemma or_eq_add {x : ℕ} (h : x < 2 ^ i) (n : ℕ) : x ||| n * 2 ^ i = x + n * 2 ^ i := by
  rw [Nat.or_comm, ← Nat.shiftLeft_eq, ← Nat.shiftLeft_add_eq_or_of_lt h, Nat.add_comm]

/-- A field that starts above the bits that are shifted out. -/
lemma mul_two_pow_div (x : ℕ) {i j : ℕ} (h : j ≤ i) : x * 2 ^ i / 2 ^ j = x * 2 ^ (i - j) := by
  rw [Nat.mul_div_assoc _ (Nat.pow_dvd_pow 2 h), Nat.pow_div h (by decide)]

/-- A field of which the low bits are shifted out. -/
lemma mul_two_pow_div' (x : ℕ) {i j : ℕ} (h : i ≤ j) : x * 2 ^ i / 2 ^ j = x / 2 ^ (j - i) := by
  rw [← Nat.pow_sub_mul_pow 2 h, Nat.mul_div_mul_right _ _ (Nat.two_pow_pos i)]

/-- A field above the bits that are kept. -/
lemma mul_two_pow_mod (x : ℕ) {i j : ℕ} (h : j ≤ i) : x * 2 ^ i % 2 ^ j = 0 :=
  Nat.mod_eq_zero_of_dvd (Nat.dvd_trans (Nat.pow_dvd_pow 2 h) (Nat.dvd_mul_left _ _))

/-- A small mask sees the low bits only. -/
lemma and_small (x : ℕ) {y i : ℕ} (h : y < 2 ^ i) : x &&& y = x % 2 ^ i &&& y := by
  rw [← Nat.mod_eq_of_lt (Nat.and_lt_two_pow x h), Nat.and_mod_two_pow, Nat.mod_eq_of_lt h]

/-- A mask of high bits does not see the low ones. -/
lemma and_mul_two_pow (x m i : ℕ) : x &&& m * 2 ^ i = x / 2 ^ i * 2 ^ i &&& m * 2 ^ i := by
  have hsplit : x = x % 2 ^ i ||| x / 2 ^ i * 2 ^ i := by
    rw [or_eq_add (Nat.mod_lt _ (Nat.two_pow_pos i)), Nat.mod_add_div']
  have hlow : x % 2 ^ i &&& m * 2 ^ i = 0 := by
    rw [Nat.and_comm, and_small _ (Nat.mod_lt x (Nat.two_pow_pos i)), Nat.mul_mod_left,
      Nat.zero_and]
  conv_lhs => rw [hsplit]
  rw [Nat.and_or_distrib_right, hlow, Nat.zero_or]

/-- A mask of all high bits clears the low ones. -/
lemma and_high (x : ℕ) {i j : ℕ} (hx : x < 2 ^ (j + i)) :
    x &&& (2 ^ j - 1) * 2 ^ i = x / 2 ^ i * 2 ^ i := by
  have hquot : x / 2 ^ i < 2 ^ j := Nat.div_lt_of_lt_mul (by rwa [← Nat.pow_add, Nat.add_comm])
  rw [and_mul_two_pow, ← Nat.shiftLeft_eq, ← Nat.shiftLeft_eq, ← Nat.shiftLeft_and_distrib,
    Nat.and_two_pow_sub_one_eq_mod, Nat.mod_eq_of_lt hquot]

lemma toNat_and_mask (a : UInt32) (hm : m.toNat = 2 ^ k - 1) :
    (a &&& m).toNat = a.toNat % 2 ^ k := by
  rw [UInt32.toNat_and, hm, Nat.and_two_pow_sub_one_eq_mod]

/-- The low bits of a word are replaced. -/
lemma toNat_replace_low (a b : UInt32) {j i : ℕ} (hm : m.toNat = (2 ^ j - 1) * 2 ^ i)
    (hij : j + i = 32) (hb : b.toNat < 2 ^ i) :
    ((a &&& m) ||| b).toNat = a.toNat / 2 ^ i * 2 ^ i + b.toNat := by
  rw [UInt32.toNat_or, UInt32.toNat_and, hm, and_high _ (by rw [hij]; exact a.toNat_lt),
    Nat.or_comm, or_eq_add hb, Nat.add_comm]

lemma toNat_shiftRight (a : UInt32) (hs : s.toNat = n) (hn : n < 32) :
    (a >>> s).toNat = a.toNat / 2 ^ n := by
  rw [UInt32.toNat_shiftRight, hs, Nat.mod_eq_of_lt hn, Nat.shiftRight_eq_div_pow]

lemma toNat_shiftLeft (hs : s.toNat = n) (hn : n < 32) (ha : a.toNat * 2 ^ n < 2 ^ 32) :
    (a <<< s).toNat = a.toNat * 2 ^ n := by
  rw [UInt32.toNat_shiftLeft, hs, Nat.mod_eq_of_lt hn, Nat.shiftLeft_eq, Nat.mod_eq_of_lt ha]

/-- Nothing is left of a byte that is shifted by eight bits or more. -/
lemma toNat_byte_shiftRight (hs : s.toNat = n) (hn : n < 32) (h : 8 ≤ n) :
    (a.toUInt8.toUInt32 >>> s).toUInt8.toNat = 0 := by
  have hbyte : a.toUInt8.toNat < 2 ^ n :=
    Nat.lt_of_lt_of_le a.toUInt8.toNat_lt (Nat.pow_le_pow_right (by decide) h)
  rw [UInt32.toNat_toUInt8, toNat_shiftRight _ hs hn, UInt8.toNat_toUInt32,
    Nat.div_eq_of_lt hbyte]

/-- A field of a word that is shifted to the right with its sign. -/
lemma toNat_sshiftRight_and (x : BitVec 32) {m : BitVec 32} (h : n + k ≤ 32)
    (hm : m.toNat = 2 ^ k - 1) : (x.sshiftRight n &&& m).toNat = x.toNat / 2 ^ n % 2 ^ k := by
  refine Nat.eq_of_testBit_eq fun i => ?_
  rw [BitVec.testBit_toNat, BitVec.getLsbD_and, BitVec.getLsbD_sshiftRight,
    ← BitVec.testBit_toNat m, hm, Nat.testBit_two_pow_sub_one, Nat.testBit_mod_two_pow,
    Nat.testBit_div_two_pow, ← BitVec.testBit_toNat, Bool.and_comm, Nat.add_comm i n]
  by_cases hi : i < k
  · have hlow : n + i < 32 := by omega
    have hwidth : ¬ 32 ≤ i := by omega
    simp [hi, hlow, hwidth]
  · simp [hi]

end Fields
