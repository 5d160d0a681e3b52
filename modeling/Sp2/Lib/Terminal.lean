import Mathlib.Order.Nat
import Mathlib.Tactic.Common

/-!
A terminal that keeps every row ever written, seen through a window.

* `Term`: the rows, all blank in the beginning, the cursor, and the row at the top of the
  window.
* `follow`, `type`, `output`: a key is typed after the window has moved down to the row of the
  cursor if that is below it: the scroll is delayed until the next output.
* `Valid`: the cursor is in the window or in the first column of the fresh row below it, and
  nothing is written below the window; `Valid.output` keeps that.
* `Op`, `operate`: besides the output of keys, the cursor is moved in the window, the window is
  cleared, or it moves down; `Valid.move`, `Valid.clear`, `Valid.scroll`.
-/

namespace Terminal

/-- What is output: a cell, or one of the two movements. -/
inductive Key (α : Type*)
  | put (a : α)
  | newline
  | ret

/-- The rows written so far, the cursor and the top of the window. -/
structure Term (α : Type*) where
  rows : ℕ → ℕ → α
  row : ℕ
  col : ℕ
  top : ℕ

namespace Term

variable {α : Type*} {W H : ℕ} {blank : α} {t : Term α} {k : Key α}

/-- The empty terminal. -/
def start (blank : α) : Term α := ⟨fun _ _ => blank, 0, 0, 0⟩

/-- The window moves down if the cursor is below it. -/
def follow (H : ℕ) (t : Term α) : Term α :=
  if t.row < t.top + H then t else { t with top := t.row + 1 - H }

/-- A key is typed at the cursor, rows being `W` columns wide. -/
def type (W : ℕ) (blank : α) (k : Key α) (t : Term α) : Term α :=
  match k with
  | .put a =>
      let t := { t with
        rows := Function.update t.rows t.row (Function.update (t.rows t.row) t.col a) }
      if t.col + 1 < W then { t with col := t.col + 1 } else { t with row := t.row + 1, col := 0 }
  | .newline =>
      { t with
        rows := fun r j => if r = t.row ∧ t.col ≤ j then blank else t.rows r j
        row := t.row + 1
        col := 0 }
  | .ret => { t with col := 0 }

/-- Output a key. -/
def output (W H : ℕ) (blank : α) (t : Term α) (k : Key α) : Term α := (t.follow H).type W blank k

/-- The terminal after a sequence of keys. -/
def after (W H : ℕ) (blank : α) (ks : List (Key α)) : Term α :=
  ks.foldl (output W H blank) (start blank)

/-- The cursor is where it may be, and nothing is written below the window. -/
structure Valid (W H : ℕ) (blank : α) (t : Term α) : Prop where
  col_lt : t.col < W
  top_le : t.top ≤ t.row
  row_le : t.row ≤ t.top + H
  fresh : t.row = t.top + H → t.col = 0
  below : ∀ r j, t.top + H ≤ r → t.rows r j = blank

lemma valid_start (hW : 0 < W) (hH : 0 < H) : (start blank).Valid W H blank :=
  ⟨hW, le_rfl, Nat.zero_le _, fun h => absurd h (by simp only [start]; omega), fun _ _ _ => rfl⟩

lemma follow_of_lt (h : t.row < t.top + H) : t.follow H = t := if_pos h

/-- The window moves down by one row. -/
lemma follow_of_below (h : t.row = t.top + H) :
    t.follow H = { t with top := t.top + 1 } := by
  rw [follow, if_neg (by omega)]
  congr 1
  omega

lemma Valid.follow (h : t.Valid W H blank) (hH : 0 < H) :
    (t.follow H).Valid W H blank ∧ (t.follow H).row < (t.follow H).top + H := by
  rcases Nat.lt_or_eq_of_le h.row_le with hlt | heq
  · rw [follow_of_lt hlt]
    exact ⟨h, hlt⟩
  · rw [follow_of_below heq]
    have hrow : t.row < t.top + 1 + H := by omega
    refine ⟨⟨h.col_lt, ?_, hrow.le, fun hr => absurd hr hrow.ne, fun r j hr => ?_⟩, hrow⟩
    · dsimp only
      omega
    · dsimp only at hr
      exact h.below r j (by omega)

/-- Typing in the window writes nothing below it. -/
lemma Valid.type (h : t.Valid W H blank) (hlt : t.row < t.top + H) :
    (t.type W blank k).Valid W H blank := by
  have hW : 0 < W := Nat.zero_lt_of_lt h.col_lt
  cases k with
  | put a =>
      have hbelow : ∀ r j, t.top + H ≤ r →
          Function.update t.rows t.row (Function.update (t.rows t.row) t.col a) r j = blank := by
        intro r j hr
        rw [Function.update_of_ne (by omega)]
        exact h.below r j hr
      rw [Term.type]
      dsimp only
      split_ifs with hcol
      · exact ⟨hcol, h.top_le, h.row_le, fun hr => absurd hr hlt.ne, hbelow⟩
      · exact ⟨hW, Nat.le_succ_of_le h.top_le, hlt, fun _ => rfl, hbelow⟩
  | newline =>
      refine ⟨hW, Nat.le_succ_of_le h.top_le, hlt, fun _ => rfl, fun r j hr => ?_⟩
      simp only [Term.type] at hr ⊢
      rw [if_neg (by omega)]
      exact h.below r j hr
  | ret => exact ⟨hW, h.top_le, h.row_le, fun _ => rfl, h.below⟩

/-- **Output keeps the terminal valid.** -/
theorem Valid.output (h : t.Valid W H blank) (hH : 0 < H) :
    (t.output W H blank k).Valid W H blank :=
  (h.follow hH).1.type (h.follow hH).2

/-! ### Operations -/

/-- The terminal whose window shows a page, with the cursor at its top left. -/
def page (H : ℕ) (blank : α) (cells : ℕ → ℕ → α) : Term α :=
  ⟨fun r j => if r < H then cells r j else blank, 0, 0, 0⟩

/-- The cursor is moved to a place in the window, or as far as there is one. -/
def move (W H col row : ℕ) (t : Term α) : Term α :=
  { t with row := t.top + min row (H - 1), col := min col (W - 1) }

/-- The rows in the window are blank. -/
def clear (blank : α) (t : Term α) : Term α :=
  { t with rows := fun r j => if r < t.top then t.rows r j else blank }

/-- The window moves down, and the cursor with it. If nothing stays in view then the window is on a
fresh page, with the cursor at its top left. -/
def scroll (H n : ℕ) (t : Term α) : Term α :=
  if n < H then { t with row := t.row + n, top := t.top + n }
  else { t with row := t.top + H, col := 0, top := t.top + H }

lemma valid_page (cells : ℕ → ℕ → α) (hW : 0 < W) :
    (page H blank cells).Valid W H blank := by
  refine ⟨hW, le_rfl, Nat.zero_le _, fun _ => rfl, fun r j hr => if_neg ?_⟩
  simpa [page] using hr

lemma Valid.move (h : t.Valid W H blank) (hH : 0 < H) (col row : ℕ) :
    (t.move W H col row).Valid W H blank := by
  have hW := h.col_lt
  have hlast : H - 1 < H := Nat.sub_one_lt_of_lt hH
  refine ⟨?_, Nat.le_add_right _ _, ?_, fun hrow => ?_, h.below⟩
  · simp only [Term.move]
    omega
  · simp only [Term.move]
    omega
  · simp only [Term.move] at hrow
    omega

lemma Valid.clear (h : t.Valid W H blank) : (t.clear blank).Valid W H blank := by
  refine ⟨h.col_lt, h.top_le, h.row_le, h.fresh, fun r j hr => if_neg ?_⟩
  simp only [Term.clear] at hr
  omega

lemma Valid.scroll (h : t.Valid W H blank) (n : ℕ) :
    (t.scroll H n).Valid W H blank := by
  have htop := h.top_le
  have hrow := h.row_le
  rw [Term.scroll]
  split_ifs
  · refine ⟨h.col_lt, Nat.add_le_add_right htop n, ?_, fun heq => h.fresh ?_, fun r j hr => ?_⟩
    · dsimp only
      omega
    · dsimp only at heq
      omega
    · dsimp only at hr
      exact h.below r j (by omega)
  · refine ⟨Nat.zero_lt_of_lt h.col_lt, le_rfl, Nat.le_add_right _ _, fun _ => rfl,
      fun r j hr => h.below r j ?_⟩
    dsimp only at hr
    omega

end Term

/-- What is done to a terminal. -/
inductive Op (α : Type*)
  | key (k : Key α)
  | move (col row : ℕ)
  | clear
  | scroll (n : ℕ)

/-- The terminal after an operation. -/
def Term.operate {α : Type*} (W H : ℕ) (blank : α) (t : Term α) : Op α → Term α
  | .key k => t.output W H blank k
  | .move col row => t.move W H col row
  | .clear => t.clear blank
  | .scroll n => t.scroll H n

end Terminal
