import Mathlib.Logic.Function.Basic
import Sp2.Lib.Address

/-!
Words of 32 bits in a memory of bytes, the low byte first.

* `load32`, `store32`: reading and writing a word; `load32_store32`, and `load32_store32_apart`
  for two words that do not overlap.
* `Apart`: two ranges of bytes that do not overlap. `SameOn`: two memories that agree on a range
  of bytes; `SameOn.store32` for a store elsewhere.
* `WordsAt`: a row of words; `WordsAt.congr` for memories that agree on it, and `WordsAt.push`
  for a word stored right below.
-/

namespace Words

open Address

/-- Memory, byte by byte. -/
abbrev Bytes := UInt32 → UInt8

variable {mem mem' : Bytes} {a b v : UInt32} {m n i : ℕ} {ws : List UInt32}

/-! ### Words -/

/-- The word at an address. -/
def load32 (mem : Bytes) (a : UInt32) : UInt32 :=
  UInt32.ofNat ((mem a).toNat + 2 ^ 8 * (mem (a + 1)).toNat + 2 ^ 16 * (mem (a + 2)).toNat
    + 2 ^ 24 * (mem (a + 3)).toNat)

/-- Write the word at an address. -/
def store32 (a v : UInt32) (mem : Bytes) : Bytes := fun x =>
  if (x - a).toNat < 4 then UInt8.ofNat (v.toNat / 256 ^ (x - a).toNat) else mem x

/-- None of the `m` bytes at one address is one of the `n` bytes at the other. -/
def Apart (a : UInt32) (m : ℕ) (b : UInt32) (n : ℕ) : Prop :=
  ∀ i < m, ∀ j < n, a + UInt32.ofNat i ≠ b + UInt32.ofNat j

lemma Apart.symm (h : Apart a m b n) : Apart b n a m := fun i hi j hj heq => h j hj i hi heq.symm

/-- A part of the first range, which starts `k` bytes into it. -/
lemma Apart.sub_left {k l : ℕ} (h : Apart a m b n) (hk : k + l ≤ m) :
    Apart (a + UInt32.ofNat k) l b n := fun i hi j hj heq => by
  rw [add_ofNat_add] at heq
  exact h (k + i) (by omega) j hj heq

/-- A part of the second range. -/
lemma Apart.sub_right {k l : ℕ} (h : Apart a m b n) (hk : k + l ≤ n) :
    Apart a m (b + UInt32.ofNat k) l := (h.symm.sub_left hk).symm

/-- Two ranges one after the other. -/
lemma apart_of_le (h : a.toNat + m ≤ b.toNat) (hb : b.toNat + n ≤ 2 ^ 32) : Apart a m b n := by
  intro i hi j hj heq
  have h' := congrArg UInt32.toNat heq
  simp only [UInt32.toNat_add, UInt32.toNat_ofNat'] at h'
  omega

/-- Two memories with the same `n` bytes at an address. -/
def SameOn (mem' mem : Bytes) (a : UInt32) (n : ℕ) : Prop :=
  ∀ i < n, mem' (a + UInt32.ofNat i) = mem (a + UInt32.ofNat i)

lemma SameOn.rfl : SameOn mem mem a n := fun _ _ => Eq.refl _

lemma SameOn.trans {mem₂ : Bytes} (h : SameOn mem₂ mem' a n) (h' : SameOn mem' mem a n) :
    SameOn mem₂ mem a n := fun i hi => (h i hi).trans (h' i hi)

/-- A part of the range. -/
lemma SameOn.sub {k l : ℕ} (h : SameOn mem' mem a n) (hk : k + l ≤ n) :
    SameOn mem' mem (a + UInt32.ofNat k) l := fun i hi => by
  rw [add_ofNat_add]
  exact h (k + i) (by omega)

/-- The beginning of the range. -/
lemma SameOn.left (h : SameOn mem' mem a n) (hm : m ≤ n) : SameOn mem' mem a m :=
  fun i hi => h i (Nat.lt_of_lt_of_le hi hm)

/-- Only the four bytes matter. -/
lemma load32_congr (h : SameOn mem' mem a 4) : load32 mem' a = load32 mem a := by
  have h₀ : mem' a = mem a := by simpa using h 0 (by omega)
  have h₁ : mem' (a + 1) = mem (a + 1) := h 1 (by omega)
  have h₂ : mem' (a + 2) = mem (a + 2) := h 2 (by omega)
  have h₃ : mem' (a + 3) = mem (a + 3) := h 3 (by omega)
  rw [load32, load32, h₀, h₁, h₂, h₃]

/-- A byte of the word that is written. -/
lemma store32_apply (a v : UInt32) (mem : Bytes) (hi : i < 4) :
    store32 a v mem (a + UInt32.ofNat i) = UInt8.ofNat (v.toNat / 256 ^ i) := by
  have hoffset : (a + UInt32.ofNat i - a).toNat = i := by
    rw [add_sub_cancel_left', toNat_ofNat_lt (by omega)]
  rw [store32, hoffset, if_pos hi]

/-- A byte outside the word that is written. -/
lemma store32_of_apart (h : Apart a 4 b 1) : store32 a v mem b = mem b := by
  refine if_neg fun hlt => ?_
  have hne := h _ hlt 0 Nat.zero_lt_one
  rw [UInt32.ofNat_toNat] at hne
  refine hne ?_
  rw [← UInt32.toNat_inj]
  simp only [UInt32.toNat_add, UInt32.toNat_sub, UInt32.toNat_ofNat']
  have := a.toNat_lt
  have := b.toNat_lt
  omega

/-- What is written is read. -/
lemma load32_store32 : load32 (store32 a v mem) a = v := by
  have h₀ : store32 a v mem a = UInt8.ofNat (v.toNat / 256 ^ 0) := by
    have h := store32_apply a v mem (i := 0) (by omega)
    simpa using h
  have h₁ : store32 a v mem (a + 1) = UInt8.ofNat (v.toNat / 256 ^ 1) :=
    store32_apply a v mem (i := 1) (by omega)
  have h₂ : store32 a v mem (a + 2) = UInt8.ofNat (v.toNat / 256 ^ 2) :=
    store32_apply a v mem (i := 2) (by omega)
  have h₃ : store32 a v mem (a + 3) = UInt8.ofNat (v.toNat / 256 ^ 3) :=
    store32_apply a v mem (i := 3) (by omega)
  rw [load32, h₀, h₁, h₂, h₃, ← UInt32.toNat_inj]
  simp only [UInt32.toNat_ofNat', UInt8.toNat_ofNat']
  have := v.toNat_lt
  omega

/-- A store leaves what it does not overlap alone. -/
lemma SameOn.store32 (h : Apart a 4 b n) : SameOn (store32 a v mem) mem b n := by
  refine fun i hi => store32_of_apart fun j hj k hk => ?_
  obtain rfl : k = 0 := by omega
  have hne := h j hj i hi
  simpa using hne

lemma SameOn.update {w : UInt8} (h : Apart a 1 b n) : SameOn (Function.update mem a w) mem b n := by
  refine fun i hi => Function.update_of_ne (fun heq => ?_) _ _
  exact h 0 Nat.zero_lt_one i hi (by simpa using heq.symm)

/-- A word that does not overlap the one that is written. -/
lemma load32_store32_apart (h : Apart a 4 b 4) : load32 (store32 a v mem) b = load32 mem b :=
  load32_congr (SameOn.store32 h)

/-! ### Rows of words -/

/-- The words at an address and after it. -/
def WordsAt (mem : Bytes) : UInt32 → List UInt32 → Prop
  | _, [] => True
  | a, w :: ws => load32 mem a = w ∧ WordsAt mem (a + 4) ws

lemma WordsAt.congr (h : WordsAt mem a ws) (hsame : SameOn mem' mem a (4 * ws.length)) :
    WordsAt mem' a ws := by
  induction ws generalizing a with
  | nil => trivial
  | cons w ws ih =>
      obtain ⟨hw, hws⟩ := h
      rw [List.length_cons] at hsame
      refine ⟨(load32_congr (hsame.left (by omega))).trans hw, ih hws ?_⟩
      exact hsame.sub (k := 4) (by omega)

/-- The bytes below an address are apart from those above it. -/
lemma apart_below (h : m + n ≤ 2 ^ 32) : Apart (a - UInt32.ofNat m) m a n := by
  intro i hi j hj heq
  have h' := congrArg UInt32.toNat heq
  simp only [UInt32.toNat_add, UInt32.toNat_sub, UInt32.toNat_ofNat'] at h'
  have := a.toNat_lt
  omega

/-- Two ranges behind the same address, one after the other. -/
lemma apart_offset (h : m + n ≤ 2 ^ 32) : Apart a m (a + UInt32.ofNat m) n := by
  have hbelow := apart_below (a := a + UInt32.ofNat m) h
  rwa [add_ofNat_sub_ofNat] at hbelow

/-- A word stored right below a row of words. -/
lemma WordsAt.push (h : WordsAt mem a ws) (hlen : 4 * (ws.length + 1) ≤ 2 ^ 32) :
    WordsAt (Words.store32 (a - 4) v mem) (a - 4) (v :: ws) := by
  have hnext : a - 4 + 4 = a := by
    rw [← UInt32.toNat_inj]
    simp only [UInt32.toNat_add, UInt32.toNat_sub, UInt32.reduceToNat]
    have := a.toNat_lt
    omega
  refine ⟨load32_store32, ?_⟩
  rw [hnext]
  exact h.congr (SameOn.store32 (apart_below (m := 4) (by omega)))

/-- The first words of a row. -/
lemma WordsAt.left {ws' : List UInt32} (h : WordsAt mem a (ws ++ ws')) : WordsAt mem a ws := by
  induction ws generalizing a with
  | nil => trivial
  | cons w ws ih => exact ⟨h.1, ih h.2⟩

/-- A row of zeros. -/
lemma WordsAt.replicate (h : ∀ i < 4 * n, mem (a + UInt32.ofNat i) = 0) :
    WordsAt mem a (List.replicate n 0) := by
  induction n generalizing a with
  | zero => trivial
  | succ n ih =>
      refine ⟨?_, ih fun i hi => ?_⟩
      · have h₀ : mem a = 0 := by simpa using h 0 (by omega)
        have h₁ : mem (a + 1) = 0 := h 1 (by omega)
        have h₂ : mem (a + 2) = 0 := h 2 (by omega)
        have h₃ : mem (a + 3) = 0 := h 3 (by omega)
        rw [load32, h₀, h₁, h₂, h₃]
        rfl
      · have hnext : a + 4 + UInt32.ofNat i = a + UInt32.ofNat (4 + i) := add_ofNat_add a 4 i
        rw [hnext]
        exact h (4 + i) (by omega)

/-- One word of a row is stored anew. -/
lemma WordsAt.set (h : WordsAt mem a ws) (hlen : 4 * ws.length ≤ 2 ^ 32) (hi : i < ws.length) :
    WordsAt (Words.store32 (a + UInt32.ofNat (4 * i)) v mem) a (ws.set i v) := by
  induction ws generalizing a i with
  | nil => exact absurd hi (Nat.not_lt_zero i)
  | cons w ws ih =>
      obtain ⟨hw, hws⟩ := h
      rw [List.length_cons] at hlen hi
      cases i with
      | zero =>
          rw [show a + UInt32.ofNat (4 * 0) = a from UInt32.add_zero a]
          exact ⟨load32_store32, hws.congr (SameOn.store32 (apart_offset (m := 4) (by omega)))⟩
      | succ i =>
          have hnext : a + UInt32.ofNat (4 * (i + 1)) = a + 4 + UInt32.ofNat (4 * i) := by
            rw [Nat.mul_succ, Nat.add_comm (4 * i) 4]
            exact (add_ofNat_add a 4 (4 * i)).symm
          rw [hnext]
          refine ⟨?_, ih hws (by omega) (by omega)⟩
          rw [load32_store32_apart, hw]
          exact ((apart_offset (m := 4) (n := 4 * ws.length) (by omega)).sub_right (by omega)).symm

/-- The `i`-th word of a row. -/
lemma WordsAt.get (h : WordsAt mem a ws) (hi : i < ws.length) :
    load32 mem (a + UInt32.ofNat (4 * i)) = ws[i] := by
  induction ws generalizing a i with
  | nil => exact absurd hi (Nat.not_lt_zero i)
  | cons w ws ih =>
      cases i with
      | zero => simpa using h.1
      | succ i =>
          have hnext : a + 4 + UInt32.ofNat (4 * i) = a + UInt32.ofNat (4 * (i + 1)) := by
            rw [Nat.mul_succ, Nat.add_comm (4 * i) 4]
            exact add_ofNat_add a 4 (4 * i)
          rw [← hnext]
          exact ih h.2 (by simpa using hi)

end Words
