import Mathlib.Data.List.Basic
import Mathlib.Data.List.Count
import Mathlib.Data.List.TakeWhile
import Mathlib.Tactic.Common

/-!
Lists of keyed entries kept in ascending order of their keys.

* `Sorted`: the keys never decrease along the list.
* `stableInsert k d l`: the entry `(k, d)` goes behind every entry at the front whose
  key is at most `k`; `stableInsert_split` says where it lands and `sorted_stableInsert`
  that the order is kept, so equal keys leave first in, first out.
  `pairwise_stableInsert` is the same for any relation along the list.
* `due t l`: the entries at the front whose key is at most `t`, the ones a scan that
  stops at the first larger key takes; in a sorted list they are all of them
  (`mem_due_iff`).
-/

namespace Keyed

variable {κ δ : Type*} [LE κ] {k t : κ} {d : δ} {e : κ × δ} {l l₁ l₂ : List (κ × δ)}

/-- The keys never decrease along the list. -/
def Sorted (l : List (κ × δ)) : Prop := l.Pairwise fun x y => x.1 ≤ y.1

@[simp] lemma sorted_nil : Sorted ([] : List (κ × δ)) := List.Pairwise.nil

lemma sorted_cons : Sorted (e :: l) ↔ (∀ x ∈ l, e.1 ≤ x.1) ∧ Sorted l := List.pairwise_cons

lemma sorted_append :
    Sorted (l₁ ++ l₂) ↔ Sorted l₁ ∧ Sorted l₂ ∧ ∀ x ∈ l₁, ∀ y ∈ l₂, x.1 ≤ y.1 :=
  List.pairwise_append

lemma Sorted.tail (h : Sorted (e :: l)) : Sorted l := (sorted_cons.mp h).2

variable [DecidableLE κ]

/-- The entry goes behind every entry at the front whose key is at most its own. -/
def stableInsert (k : κ) (d : δ) (l : List (κ × δ)) : List (κ × δ) :=
  l.takeWhile (·.1 ≤ k) ++ (k, d) :: l.dropWhile (·.1 ≤ k)

/-- The entries a scan takes that stops at the first key above `t`. -/
def due (t : κ) (l : List (κ × δ)) : List (κ × δ) := l.takeWhile (·.1 ≤ t)

/-- The entries such a scan leaves. -/
def later (t : κ) (l : List (κ × δ)) : List (κ × δ) := l.dropWhile (·.1 ≤ t)

lemma due_append_later : due t l ++ later t l = l := List.takeWhile_append_dropWhile

lemma stableInsert_eq : stableInsert k d l = due k l ++ (k, d) :: later k l := rfl

lemma key_le_of_mem_due (h : e ∈ due t l) : e.1 ≤ t := by
  simpa using List.mem_takeWhile_imp h

lemma mem_of_mem_due (h : e ∈ due t l) : e ∈ l :=
  (List.takeWhile_prefix _).subset h

lemma mem_of_mem_later (h : e ∈ later t l) : e ∈ l :=
  (List.dropWhile_suffix _).subset h

@[simp] lemma due_nil : due t ([] : List (κ × δ)) = [] := rfl

@[simp] lemma later_nil : later t ([] : List (κ × δ)) = [] := rfl

lemma due_cons_of_le (h : e.1 ≤ t) : due t (e :: l) = e :: due t l := by
  simp [due, h]

lemma later_cons_of_le (h : e.1 ≤ t) : later t (e :: l) = later t l := by
  simp [later, h]

lemma due_cons_of_not_le (h : ¬ e.1 ≤ t) : due t (e :: l) = [] := by
  simp [due, h]

lemma later_cons_of_not_le (h : ¬ e.1 ≤ t) : later t (e :: l) = e :: l := by
  simp [later, h]

/-! ### Stable insertion -/

@[simp] lemma mem_stableInsert : e ∈ stableInsert k d l ↔ e = (k, d) ∨ e ∈ l := by
  conv_rhs => rw [← due_append_later (t := k) (l := l)]
  simp only [stableInsert_eq, List.mem_append, List.mem_cons]
  tauto

@[simp] lemma length_stableInsert : (stableInsert k d l).length = l.length + 1 := by
  conv_rhs => rw [← due_append_later (t := k) (l := l)]
  simp only [stableInsert_eq, List.length_append, List.length_cons]
  omega

lemma count_map_stableInsert [DecidableEq δ] (x : δ) :
    ((stableInsert k d l).map Prod.snd).count x
      = (l.map Prod.snd).count x + if d = x then 1 else 0 := by
  conv_rhs => rw [← due_append_later (t := k) (l := l)]
  simp only [stableInsert_eq, List.map_append, List.map_cons, List.count_append,
    List.count_cons, beq_iff_eq]
  omega

/-- In a sorted list the scan takes the entries whose key is at most `t`, in order. -/
lemma due_eq_filter [Std.IsLinearOrder κ] (hl : Sorted l) : due t l = l.filter (·.1 ≤ t) := by
  induction l with
  | nil => rfl
  | cons x l ih =>
      by_cases hx : x.1 ≤ t
      · rw [due_cons_of_le hx, ih hl.tail, List.filter_cons_of_pos (by simpa using hx)]
      · have hnone : l.filter (·.1 ≤ t) = [] := List.filter_eq_nil_iff.mpr fun y hy hle =>
          hx (Std.le_trans ((sorted_cons.mp hl).1 y hy) (by simpa using hle))
        rw [due_cons_of_not_le hx, List.filter_cons_of_neg (by simpa using hx), hnone]

section Order

variable [LT κ] [Std.IsLinearOrder κ] [Std.LawfulOrderLT κ]

/-- In a sorted list the scan leaves only larger keys. -/
lemma key_lt_of_mem_later (hl : Sorted l) (h : e ∈ later t l) : t < e.1 := by
  induction l with
  | nil => simp at h
  | cons x l ih =>
      by_cases hx : x.1 ≤ t
      · rw [later_cons_of_le hx] at h
        exact ih hl.tail h
      · rw [later_cons_of_not_le hx] at h
        have hlt : t < x.1 := Std.not_le.mp hx
        rcases List.mem_cons.mp h with rfl | h
        · exact hlt
        · exact Std.lt_of_lt_of_le hlt ((sorted_cons.mp hl).1 e h)

/-- In a sorted list the scan takes every entry whose key is at most `t`. -/
lemma mem_due_iff (hl : Sorted l) : e ∈ due t l ↔ e ∈ l ∧ e.1 ≤ t := by
  refine ⟨fun h => ⟨mem_of_mem_due h, key_le_of_mem_due h⟩, fun ⟨h, hk⟩ => ?_⟩
  rw [← due_append_later (t := t) (l := l), List.mem_append] at h
  refine h.resolve_right fun h => ?_
  exact Std.not_le.mpr (key_lt_of_mem_later hl h) hk

lemma mem_later_iff (hl : Sorted l) : e ∈ later t l ↔ e ∈ l ∧ ¬ e.1 ≤ t := by
  refine ⟨fun h => ⟨mem_of_mem_later h, Std.not_le.mpr (key_lt_of_mem_later hl h)⟩,
    fun ⟨h, hk⟩ => ?_⟩
  rw [← due_append_later (t := t) (l := l), List.mem_append] at h
  exact h.resolve_left fun h => hk (key_le_of_mem_due h)

/-- It leaves those whose key is larger, in order. -/
lemma later_eq_filter [DecidableLT κ] (hl : Sorted l) : later t l = l.filter (t < ·.1) := by
  induction l with
  | nil => rfl
  | cons x l ih =>
      by_cases hx : x.1 ≤ t
      · rw [later_cons_of_le hx, ih hl.tail,
          List.filter_cons_of_neg (by simpa using Std.not_lt.mpr hx)]
      · have hlt : t < x.1 := Std.not_le.mp hx
        have hall : l.filter (t < ·.1) = l := List.filter_eq_self.mpr fun y hy => by
          simpa using Std.lt_of_lt_of_le hlt ((sorted_cons.mp hl).1 y hy)
        rw [later_cons_of_not_le hx, List.filter_cons_of_pos (by simpa using hlt), hall]

/-- Stable insertion keeps the keys in order. -/
lemma sorted_stableInsert (hl : Sorted l) : Sorted (stableInsert k d l) := by
  have hsplit : Sorted (due k l ++ later k l) := by rwa [due_append_later]
  obtain ⟨h₁, h₂, h₁₂⟩ := sorted_append.mp hsplit
  rw [stableInsert_eq]
  refine sorted_append.mpr ⟨h₁, sorted_cons.mpr ⟨fun x hx => ?_, h₂⟩, fun x hx y hy => ?_⟩
  · exact Std.le_of_lt (key_lt_of_mem_later hl hx)
  · rcases List.mem_cons.mp hy with rfl | hy
    · exact key_le_of_mem_due hx
    · exact h₁₂ x hx y hy

/-- A relation that holds pairwise along the list holds after a stable insertion, if the new entry
is related to those in front of it and behind it. -/
lemma pairwise_stableInsert {R : κ × δ → κ × δ → Prop} (hl : Sorted l) (h : l.Pairwise R)
    (hfront : ∀ x ∈ l, x.1 ≤ k → R x (k, d)) (hback : ∀ x ∈ l, k < x.1 → R (k, d) x) :
    (stableInsert k d l).Pairwise R := by
  rw [← due_append_later (t := k) (l := l)] at h
  obtain ⟨h₁, h₂, h₁₂⟩ := List.pairwise_append.mp h
  rw [stableInsert_eq]
  refine List.pairwise_append.mpr ⟨h₁, List.pairwise_cons.mpr ⟨fun x hx => ?_, h₂⟩,
    fun x hx y hy => ?_⟩
  · exact hback x (mem_of_mem_later hx) (key_lt_of_mem_later hl hx)
  · rcases List.mem_cons.mp hy with rfl | hy
    · exact hfront x (mem_of_mem_due hx) (key_le_of_mem_due hx)
    · exact h₁₂ x hx y hy

/-- **Where a stable insertion lands**: behind every entry with a key at most the new
one and ahead of every entry with a larger key. -/
theorem stableInsert_split (hl : Sorted l) (k : κ) (d : δ) :
    ∃ pre post, l = pre ++ post ∧ stableInsert k d l = pre ++ (k, d) :: post
      ∧ (∀ x ∈ pre, x.1 ≤ k) ∧ ∀ x ∈ post, k < x.1 :=
  ⟨due k l, later k l, due_append_later.symm, rfl, fun _ => key_le_of_mem_due,
    fun _ => key_lt_of_mem_later hl⟩

end Order

end Keyed
