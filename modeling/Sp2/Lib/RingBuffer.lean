import Mathlib.Logic.Function.Basic
import Mathlib.Tactic.Common

/-!
Ring buffers.

A ring of `n` slots has a place to take from and a place to put to. It is empty if they are equal,
and so one slot always stays free.

* `next n i`: the slot after `i`.
* `dist n i j`: how many steps lead from `i` to `j`.
* `contents n data i j`: what is in the slots from `i` up to `j`.
* `contents_take`, `contents_put`: taking removes the first value, putting appends one.
* `full_iff`: there is no free slot exactly if `n - 1` values are waiting.
-/

namespace RingBuffer

variable {α : Type*} {n i j k : ℕ} {data : ℕ → α} {a : α}

/-- The slot after `i`. -/
def next (n i : ℕ) : ℕ := if i + 1 ≥ n then 0 else i + 1

/-- The number of steps from `i` to `j`. -/
def dist (n i j : ℕ) : ℕ := if i ≤ j then j - i else j + n - i

/-- The values in so many slots, from `i` on. -/
def walk (n : ℕ) (data : ℕ → α) : ℕ → ℕ → List α
  | 0, _ => []
  | k + 1, i => data i :: walk n data k (next n i)

/-- The values in the slots from `i` up to `j`. -/
def contents (n : ℕ) (data : ℕ → α) (i j : ℕ) : List α := walk n data (dist n i j) i

lemma next_lt (hn : 0 < n) : next n i < n := by
  rw [next]
  split_ifs <;> omega

lemma dist_self (n i : ℕ) : dist n i i = 0 := by
  rw [dist, if_pos (Nat.le_refl i), Nat.sub_self]

/-- Two slots have different slots after them. -/
lemma next_inj (hi : i < n) (hj : j < n) (h : next n i = next n j) : i = j := by
  rw [next, next] at h
  split_ifs at h <;> omega

/-- A step from `i` comes closer to `j`. -/
lemma dist_next_left (hi : i < n) (hj : j < n) (hne : i ≠ j) :
    dist n i j = dist n (next n i) j + 1 := by
  rw [dist, dist, next]
  split_ifs <;> omega

/-- There is no free slot exactly if `n - 1` values are waiting. -/
lemma full_iff (hi : i < n) (hj : j < n) : next n j = i ↔ dist n i j = n - 1 := by
  rw [dist, next]
  split_ifs <;> omega

@[simp] lemma length_walk : (walk n data k i).length = k := by
  induction k generalizing i with
  | zero => rfl
  | succ k ih => rw [walk, List.length_cons, ih]

lemma length_contents : (contents n data i j).length = dist n i j := length_walk

lemma contents_self (n : ℕ) (data : ℕ → α) (i : ℕ) : contents n data i i = [] := by
  rw [contents, dist_self]
  rfl

/-- **Taking** removes the first value. -/
lemma contents_take (hi : i < n) (hj : j < n) (hne : i ≠ j) :
    contents n data i j = data i :: contents n data (next n i) j := by
  rw [contents, dist_next_left hi hj hne]
  rfl

/-- **Putting** appends a value where there is a free slot, by induction on the values that are
waiting. -/
lemma contents_put (hi : i < n) (hj : j < n) (hfree : next n j ≠ i) :
    contents n (Function.update data j a) i (next n j) = contents n data i j ++ [a] := by
  have hnext : next n j < n := next_lt (Nat.zero_lt_of_lt hj)
  induction hd : dist n i j generalizing i with
  | zero =>
      have hij : i = j := by
        by_contra hne
        have := dist_next_left hi hj hne
        omega
      subst hij
      rw [contents_take hi hnext hfree.symm, contents_self, contents_self, Function.update_self]
      rfl
  | succ d ih =>
      have hne : i ≠ j := by
        rintro rfl
        rw [dist_self] at hd
        omega
      have hcloser := dist_next_left hi hj hne
      have hfree' : next n j ≠ next n i := fun h => hne (next_inj hj hi h).symm
      rw [contents_take hi hnext hfree.symm, contents_take hi hj hne, Function.update_of_ne hne,
        ih (next_lt (Nat.zero_lt_of_lt hi)) hfree' (by omega)]
      rfl

end RingBuffer
