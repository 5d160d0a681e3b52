import Mathlib.Algebra.Group.Nat.Defs
import Mathlib.Tactic.Common

/-!
Addresses as words of 32 bits: sums and differences of an address and an offset, and words as
numbers.

* `add_ofNat_add`, `add_one_add_ofNat`: offsets add up.
* `add_sub_cancel_left'`, `add_one_sub_add_one`, `add_add_sub`, ...: differences.
* `add_ofNat_inj`: different offsets below `2 ^ 32` give different addresses.
-/

namespace Address

variable {a b c : UInt32} {m n : ℕ}

lemma toNat_ofNat_lt (h : n < 2 ^ 32) : (UInt32.ofNat n).toNat = n := by
  rw [UInt32.toNat_ofNat']
  exact Nat.mod_eq_of_lt h

/-- A small word is the same number as a signed one. -/
lemma toNat_toInt32 (h : a.toNat < 2 ^ 31) : a.toInt32.toInt.toNat = a.toNat := by
  have hlt : 2 * a.toBitVec.toNat < 2 ^ 32 := by
    rw [UInt32.toNat_toBitVec]
    omega
  change a.toBitVec.toInt.toNat = _
  rw [BitVec.toInt_eq_toNat_of_lt hlt]
  rfl

/-- A counter that has not passed its limit does not wrap around. -/
lemma toNat_add_one (h : a ≤ b) (hb : b.toNat < 2 ^ 32 - 1) : (a + 1).toNat = a.toNat + 1 := by
  rw [UInt32.le_iff_toNat_le] at h
  rw [UInt32.toNat_add, UInt32.toNat_one]
  omega

/-! ### Offsets -/

lemma add_one_add_ofNat (a : UInt32) (n : ℕ) :
    a + 1 + UInt32.ofNat n = a + UInt32.ofNat (n + 1) := by
  rw [← UInt32.toNat_inj]
  simp only [UInt32.toNat_add, UInt32.toNat_ofNat', UInt32.toNat_one]
  omega

lemma add_ofNat_add (a : UInt32) (m n : ℕ) :
    a + UInt32.ofNat m + UInt32.ofNat n = a + UInt32.ofNat (m + n) := by
  rw [← UInt32.toNat_inj]
  simp only [UInt32.toNat_add, UInt32.toNat_ofNat']
  omega

lemma add_add_ofNat (a b : UInt32) (n : ℕ) :
    a + b + UInt32.ofNat n = a + UInt32.ofNat (b.toNat + n) := by
  rw [← add_ofNat_add, UInt32.ofNat_toNat]

lemma add_ofNat_inj (hm : m < 2 ^ 32) (hn : n < 2 ^ 32)
    (h : a + UInt32.ofNat m = a + UInt32.ofNat n) : m = n := by
  have h' := congrArg UInt32.toNat h
  simp only [UInt32.toNat_add, UInt32.toNat_ofNat'] at h'
  have := a.toNat_lt
  omega

/-! ### Differences -/

lemma sub_ofNat_sub (a : UInt32) (m n : ℕ) :
    a - UInt32.ofNat m - UInt32.ofNat n = a - UInt32.ofNat (m + n) := by
  rw [← UInt32.toNat_inj]
  simp only [UInt32.toNat_sub, UInt32.toNat_ofNat']
  have := a.toNat_lt
  omega

lemma add_ofNat_sub_ofNat (a : UInt32) (n : ℕ) : a + UInt32.ofNat n - UInt32.ofNat n = a := by
  rw [← UInt32.toNat_inj]
  simp only [UInt32.toNat_add, UInt32.toNat_sub, UInt32.toNat_ofNat']
  have := a.toNat_lt
  omega

/-- Going back by less than one has come. -/
lemma add_ofNat_sub (a : UInt32) (h : n ≤ m) :
    a + UInt32.ofNat m - UInt32.ofNat n = a + UInt32.ofNat (m - n) := by
  obtain ⟨k, rfl⟩ := Nat.exists_eq_add_of_le' h
  rw [← add_ofNat_add, add_ofNat_sub_ofNat, Nat.add_sub_cancel]

lemma sub_ofNat_add_ofNat (a : UInt32) (n : ℕ) : a - UInt32.ofNat n + UInt32.ofNat n = a := by
  rw [← UInt32.toNat_inj]
  simp only [UInt32.toNat_add, UInt32.toNat_sub, UInt32.toNat_ofNat']
  have := a.toNat_lt
  omega

lemma add_sub_cancel_left' (a b : UInt32) : a + b - a = b := by
  rw [← UInt32.toNat_inj]
  simp only [UInt32.toNat_sub, UInt32.toNat_add]
  have := a.toNat_lt
  have := b.toNat_lt
  omega

lemma add_one_sub_add_one (a b : UInt32) : a + 1 - (b + 1) = a - b := by
  rw [← UInt32.toNat_inj]
  simp only [UInt32.toNat_sub, UInt32.toNat_add, UInt32.toNat_one]
  have := a.toNat_lt
  have := b.toNat_lt
  omega

lemma toNat_sub_add_one (h : a ≠ b) : (a - (b + 1)).toNat + 1 = (a - b).toNat := by
  have hne : a.toNat ≠ b.toNat := fun heq => h (UInt32.toNat_inj.mp heq)
  simp only [UInt32.toNat_sub, UInt32.toNat_add, UInt32.toNat_one]
  have := a.toNat_lt
  have := b.toNat_lt
  omega

lemma add_one_add_sub (a b c : UInt32) : a + 1 + (c - (b + 1)) = a + (c - b) := by
  rw [← UInt32.toNat_inj]
  simp only [UInt32.toNat_sub, UInt32.toNat_add, UInt32.toNat_one]
  have := a.toNat_lt
  have := b.toNat_lt
  have := c.toNat_lt
  omega

lemma add_add_sub (a b c : UInt32) : a + b + (c - b) = a + c := by
  rw [← UInt32.toNat_inj]
  simp only [UInt32.toNat_sub, UInt32.toNat_add]
  have := a.toNat_lt
  have := b.toNat_lt
  have := c.toNat_lt
  omega

end Address
