import Mathlib.Tactic.Common
import Mathlib.Order.Nat

/-!
Blocks of an arena that is given out from its beginning to its end.

* `Block`: the addresses from `start` up to `start + size`.
* `Block.Disjoint`, `Block.Within`: blocks that share no address, and that lie in a range.
* `Packed lo hi l`: the blocks `l` lie between `lo` and `hi`, any two of them apart.
* `Packed.push`: **the arena rule**, what is taken at the end is apart from what was taken.
-/

namespace Arena

/-- The addresses from `start` up to `start + size`. -/
structure Block where
  start : ℕ
  size : ℕ
  deriving DecidableEq

/-- An address in a block. -/
def Block.Has (b : Block) (x : ℕ) : Prop := b.start ≤ x ∧ x < b.start + b.size

/-- Two blocks of which one ends where the other begins or before. -/
def Block.Disjoint (b c : Block) : Prop := b.start + b.size ≤ c.start ∨ c.start + c.size ≤ b.start

/-- A block between two addresses. -/
def Block.Within (b : Block) (lo hi : ℕ) : Prop := lo ≤ b.start ∧ b.start + b.size ≤ hi

variable {b c : Block} {l : List Block} {lo hi hi' n x : ℕ}

instance (b : Block) (x : ℕ) : Decidable (b.Has x) :=
  inferInstanceAs (Decidable (b.start ≤ x ∧ x < b.start + b.size))

instance (b c : Block) : Decidable (b.Disjoint c) :=
  inferInstanceAs (Decidable (b.start + b.size ≤ c.start ∨ c.start + c.size ≤ b.start))

instance (b : Block) (lo hi : ℕ) : Decidable (b.Within lo hi) :=
  inferInstanceAs (Decidable (lo ≤ b.start ∧ b.start + b.size ≤ hi))

lemma Block.Disjoint.symm (h : b.Disjoint c) : c.Disjoint b := Or.symm h

/-- Blocks that are apart share no address. -/
lemma Block.Disjoint.not_has (h : b.Disjoint c) (hx : b.Has x) : ¬ c.Has x := by
  obtain ⟨hlo, hhi⟩ := hx
  rintro ⟨hlo', hhi'⟩
  rcases h with h | h <;> omega

lemma Block.Within.mono (h : b.Within lo hi) (hle : hi ≤ hi') : b.Within lo hi' :=
  ⟨h.1, h.2.trans hle⟩

/-- A block is apart from one that begins at the end of its range. -/
lemma Block.Within.apart (h : b.Within lo hi) : b.Disjoint ⟨hi, n⟩ := Or.inl h.2

/-- The blocks lie between `lo` and `hi`, any two of them apart. -/
structure Packed (lo hi : ℕ) (l : List Block) : Prop where
  le : lo ≤ hi
  within : ∀ b ∈ l, b.Within lo hi
  apart : l.Pairwise Block.Disjoint

lemma packed_nil (lo : ℕ) : Packed lo lo [] := ⟨le_rfl, by simp, List.Pairwise.nil⟩

lemma Packed.mono (h : Packed lo hi l) (hle : hi ≤ hi') : Packed lo hi' l :=
  ⟨h.le.trans hle, fun b hb => (h.within b hb).mono hle, h.apart⟩

/-- **The arena rule**: a block taken at the end is apart from all others. -/
theorem Packed.push (h : Packed lo hi l) (n : ℕ) : Packed lo (hi + n) (l ++ [⟨hi, n⟩]) := by
  refine ⟨h.le.trans (Nat.le_add_right hi n), ?_, ?_⟩
  · rw [List.forall_mem_append]
    refine ⟨fun b hb => (h.within b hb).mono (Nat.le_add_right hi n), fun b hb => ?_⟩
    rw [List.mem_singleton.mp hb]
    exact ⟨h.le, le_rfl⟩
  · rw [List.pairwise_append]
    refine ⟨h.apart, List.pairwise_singleton _ _, fun b hb c hc => ?_⟩
    rw [List.mem_singleton.mp hc]
    exact (h.within b hb).apart

end Arena
