import Mathlib.Data.List.Rotate
import Mathlib.Logic.Function.Iterate

/-!
Processes that take turns.

* `Turns`: one process holds the resource and has some time left, the others wait in a queue.
* `Turns.next`: one unit of time; at the end of a turn the holder goes to the end of the queue and
  the first one in the queue gets a turn.
* `Turns.order`: the holder and the queue behind it; `order_next` says that the end of a turn
  rotates it by one.
* `holder_iterate`: **who holds the resource after any time**: the turns go round, and all are
  equally long.
* `existsUnique_turn`: in as many turns as there are processes each one has its turn once.
-/

namespace RoundRobin

variable {α : Type*}

/-- One process holds the resource, the others wait. -/
structure Turns (α : Type*) where
  holder : α
  left : ℕ
  waiting : List α

/-- The processes in the order of their next turns. -/
def Turns.order (t : Turns α) : List α := t.holder :: t.waiting

/-- One unit of time, a turn lasting `q` units and the one in which it ends. -/
def Turns.next (q : ℕ) (t : Turns α) : Turns α :=
  match t.left with
  | left + 1 => { t with left := left }
  | 0 =>
      match t.waiting with
      | [] => { t with left := q }
      | p :: waiting => ⟨p, q, waiting ++ [t.holder]⟩

section Next

variable {q left : ℕ} {t t' : Turns α}

lemma eq_of_order (horder : t.order = t'.order) (hleft : t.left = t'.left) : t = t' := by
  obtain ⟨holder, left, waiting⟩ := t
  obtain ⟨hholder, hwaiting⟩ := List.cons.inj horder
  obtain rfl : left = t'.left := hleft
  obtain rfl : holder = t'.holder := hholder
  obtain rfl : waiting = t'.waiting := hwaiting
  rfl

lemma next_of_left (h : t.left = left + 1) : t.next q = { t with left := left } := by
  rw [Turns.next, h]

/-- The end of a turn, in one equation for the order. -/
lemma order_next (h : t.left = 0) :
    (t.next q).order = t.waiting ++ [t.holder] ∧ (t.next q).left = q := by
  rw [Turns.next, h]
  cases hw : t.waiting with
  | nil => exact ⟨by simp [Turns.order], rfl⟩
  | cons p waiting => exact ⟨rfl, rfl⟩

lemma order_next_eq_rotate (h : t.left = 0) : (t.next q).order = t.order.rotate 1 := by
  rw [(order_next h).1, Turns.order, List.rotate_cons_succ, List.rotate_zero]

end Next

/-! ### Many units of time -/

section Iterate

variable {q n : ℕ} {t : Turns α}

/-- Within a turn only the time left changes. -/
lemma iterate_left : ∀ {n : ℕ} {t : Turns α}, n ≤ t.left →
    (Turns.next q)^[n] t = { t with left := t.left - n }
  | 0, _, _ => rfl
  | n + 1, t, h => by
      obtain ⟨left, hleft⟩ : ∃ left, t.left = left + 1 := ⟨t.left - 1, by omega⟩
      have hrest : n ≤ ({ t with left := left } : Turns α).left := by
        change n ≤ left
        omega
      rw [Function.iterate_succ_apply, next_of_left hleft, iterate_left hrest, hleft]
      simp

/-- A whole turn. -/
lemma iterate_turn (h : t.left = q) :
    ((Turns.next q)^[q + 1] t).order = t.order.rotate 1 ∧ ((Turns.next q)^[q + 1] t).left = q := by
  have hend : (Turns.next q)^[q] t = { t with left := 0 } := by
    rw [iterate_left h.ge, h, Nat.sub_self]
  rw [Function.iterate_succ_apply', hend]
  exact ⟨order_next_eq_rotate rfl, (order_next rfl).2⟩

/-- Several whole turns, by induction on their number. -/
lemma iterate_turns (h : t.left = q) (k : ℕ) :
    ((Turns.next q)^[(q + 1) * k] t).order = t.order.rotate k
      ∧ ((Turns.next q)^[(q + 1) * k] t).left = q := by
  induction k with
  | zero => exact ⟨(List.rotate_zero _).symm, h⟩
  | succ k ih =>
      have hturn := iterate_turn ih.2
      rw [Nat.mul_succ, Nat.add_comm, Function.iterate_add_apply, ← List.rotate_rotate, ← ih.1]
      exact hturn

/-- **The turns go round**: after `n` units of time it is the turn `n / (q + 1)`, and the processes
have their turns in their order. -/
theorem holder_iterate (h : t.left = q) (n : ℕ) :
    some ((Turns.next q)^[n] t).holder = t.order[n / (q + 1) % t.order.length]? := by
  have hn : n = n % (q + 1) + (q + 1) * (n / (q + 1)) := (Nat.mod_add_div n (q + 1)).symm
  obtain ⟨horder, hleft⟩ := iterate_turns h (n / (q + 1))
  set u := (Turns.next q)^[(q + 1) * (n / (q + 1))] t with hu
  have hrest : n % (q + 1) ≤ u.left := by
    rw [hleft]
    exact Nat.lt_succ_iff.mp (Nat.mod_lt _ (Nat.succ_pos q))
  have hhead : some u.holder = u.order.head? := rfl
  calc some ((Turns.next q)^[n] t).holder
      = some u.holder := by
        conv_lhs => rw [hn, Function.iterate_add_apply, ← hu, iterate_left hrest]
    _ = (t.order.rotate (n / (q + 1) % t.order.length)).head? := by
        rw [hhead, horder, List.rotate_mod]
    _ = t.order[n / (q + 1) % t.order.length]? :=
        List.head?_rotate (Nat.mod_lt _ (Nat.succ_pos _))

end Iterate

/-! ### Fairness -/

/-- **Each process once**: in any `l.length` turns one after the other each process has one. -/
theorem existsUnique_turn {l : List α} {p : α} (hnd : l.Nodup) (hp : p ∈ l) (k : ℕ) :
    ∃! i, i < l.length ∧ l[(k + i) % l.length]? = some p := by
  have hrotate : ∀ i < l.length, l[(k + i) % l.length]? = (l.rotate k)[i]? := fun i hi => by
    rw [List.getElem?_rotate hi, Nat.add_comm]
  obtain ⟨i, hi, hget⟩ := List.mem_iff_getElem.mp (List.mem_rotate.mpr hp : p ∈ l.rotate k)
  have hlen := l.length_rotate k
  refine ⟨i, ⟨by omega, ?_⟩, fun j hj => ?_⟩
  · rw [hrotate i (by omega), List.getElem?_eq_getElem hi, hget]
  · obtain ⟨hjl, hjp⟩ := hj
    rw [hrotate j hjl] at hjp
    obtain ⟨hj', hgetj⟩ := List.getElem?_eq_some_iff.mp hjp
    exact (List.nodup_rotate.mpr hnd).getElem_inj_iff.mp (hgetj.trans hget.symm)

end RoundRobin
