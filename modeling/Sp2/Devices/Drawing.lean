import Sp2.Devices.Console
import Sp2.Lib.Address

/-!
What the stores of the console do to the screen.

* `cellAddr`: the address of the cell in a column and a line; cells of the screen are distinct.
* `Draws A`: only addresses of `A` are stored through, and the rest of the screen stays.
* `clearLines_draws`, `copyLines_draws`, ...: each loop draws in the lines it is about.
* `clearLines_apply`, `copyLines_apply`: what the lines have in them afterwards.
-/

namespace Sp2

open Address

/-! ### Cells -/

/-- The address of a cell. -/
def cellAddr (x y : ℕ) : UInt32 := videoBaseAddr + UInt32.ofNat (2 * (y * 80 + x))

/-- The cells of the columns `x₀` to `x₁` and the lines `y₀` to `y₁`. -/
def InArea (x₀ y₀ x₁ y₁ : ℕ) (a : UInt32) : Prop :=
  ∃ x y, (x₀ ≤ x ∧ x ≤ x₁) ∧ (y₀ ≤ y ∧ y ≤ y₁) ∧ a = cellAddr x y

/-- The cells of the screen. -/
def OnScreen : UInt32 → Prop := InArea 0 0 79 24

/-- The cells of the scroll region. -/
def Window.Region (w : Window) : UInt32 → Prop :=
  InArea w.scrollMinX.toNat w.scrollMinY.toNat w.scrollMaxX.toNat w.scrollMaxY.toNat

section Cells

variable {x y x' y' i j n : ℕ} {a b : UInt32}

lemma videoAddr_eq (x y : UInt32) : videoAddr x y = cellAddr x.toNat y.toNat := by
  have h : 2 * (y * screenXSize + x) = UInt32.ofNat (2 * (y.toNat * 80 + x.toNat)) := by
    rw [← UInt32.toNat_inj]
    simp only [screenXSize, UInt32.toNat_mul, UInt32.toNat_add, UInt32.toNat_ofNat',
      UInt32.reduceToNat]
    omega
  rw [videoAddr, h]
  rfl

lemma cellAddr_add (x y i : ℕ) : cellAddr x y + UInt32.ofNat (2 * i) = cellAddr (x + i) y := by
  rw [cellAddr, cellAddr, add_ofNat_add]
  congr 2
  omega

/-- Different cells of the screen have different addresses. -/
lemma cellAddr_inj (hx : x < 80) (hy : y < 25) (hx' : x' < 80) (hy' : y' < 25)
    (h : cellAddr x y = cellAddr x' y') : x = x' ∧ y = y' := by
  have := add_ofNat_inj (by omega) (by omega) h
  omega

end Cells

/-! ### Stores -/

/-- Only addresses of `A` are stored through, and the rest of the screen stays. -/
structure Draws (A : UInt32 → Prop) (s s' : Screen) : Prop where
  video : ∀ a, ¬ A a → s'.video a = s.video a
  stores : ∃ new, s'.stores = new ++ s.stores ∧ ∀ a ∈ new, A a

section Draws

variable {A B : UInt32 → Prop} {s s' s'' : Screen} {a dst src : UInt32} {v : UInt16} {n i : ℕ}

lemma Draws.refl (A : UInt32 → Prop) (s : Screen) : Draws A s s :=
  ⟨fun _ _ => rfl, [], rfl, by simp⟩

lemma Draws.trans (h : Draws A s s') (h' : Draws A s' s'') : Draws A s s'' := by
  obtain ⟨new, hnew, hA⟩ := h.stores
  obtain ⟨new', hnew', hA'⟩ := h'.stores
  refine ⟨fun a ha => (h'.video a ha).trans (h.video a ha), new' ++ new, ?_, ?_⟩
  · rw [hnew', hnew, List.append_assoc]
  · exact List.forall_mem_append.mpr ⟨hA', hA⟩

lemma Draws.mono (h : Draws A s s') (hAB : ∀ a, A a → B a) : Draws B s s' := by
  obtain ⟨new, hnew, hA⟩ := h.stores
  exact ⟨fun a ha => h.video a (mt (hAB a) ha), new, hnew, fun a ha => hAB a (hA a ha)⟩

lemma store_draws (ha : A a) : Draws A s (s.store a v) := by
  refine ⟨fun b hb => Function.update_of_ne ?_ _ _, [a], rfl, by simpa using ha⟩
  rintro rfl
  exact hb ha

/-- The `i`-th cell from an address. -/
lemma two_add_ofNat (dst : UInt32) (i : ℕ) :
    dst + 2 + UInt32.ofNat (2 * i) = dst + UInt32.ofNat (2 * (i + 1)) := by
  have h := add_ofNat_add dst 2 (2 * i)
  rw [Nat.mul_succ, Nat.add_comm (2 * i) 2]
  exact h

lemma fillCells_draws (hA : ∀ i < n, A (dst + UInt32.ofNat (2 * i))) :
    Draws A s (fillCells dst n s) := by
  induction n generalizing dst s with
  | zero => exact Draws.refl A s
  | succ n ih =>
      have h₀ : A dst := by simpa using hA 0 (Nat.succ_pos n)
      refine (store_draws h₀).trans (ih fun i hi => ?_)
      rw [two_add_ofNat]
      exact hA (i + 1) (Nat.succ_lt_succ hi)

lemma copyCells_draws (hA : ∀ i < n, A (dst + UInt32.ofNat (2 * i))) :
    Draws A s (copyCells dst src n s) := by
  induction n generalizing dst src s with
  | zero => exact Draws.refl A s
  | succ n ih =>
      have h₀ : A dst := by simpa using hA 0 (Nat.succ_pos n)
      refine (store_draws h₀).trans (ih fun i hi => ?_)
      rw [two_add_ofNat]
      exact hA (i + 1) (Nat.succ_lt_succ hi)

/-- The cell `i` places on is not the first one. -/
lemma ne_add_ofNat (hi : 2 * (i + 1) < 2 ^ 32) : dst ≠ dst + UInt32.ofNat (2 * (i + 1)) := by
  intro h
  have h₀ : dst + UInt32.ofNat 0 = dst + UInt32.ofNat (2 * (i + 1)) := by simpa using h
  have := add_ofNat_inj (by omega) hi h₀
  omega

lemma fillCells_apply (hn : 2 * n < 2 ^ 32) (hi : i < n) :
    (fillCells dst n s).video (dst + UInt32.ofNat (2 * i)) = blankCell := by
  induction n generalizing dst s i with
  | zero => exact absurd hi (Nat.not_lt_zero i)
  | succ n ih =>
      rw [fillCells]
      cases i with
      | zero =>
          have hdraws : Draws (· ≠ dst) (s.store dst blankCell)
              (fillCells (dst + 2) n (s.store dst blankCell)) :=
            fillCells_draws fun j hj => by
              rw [two_add_ofNat]
              exact (ne_add_ofNat (by omega)).symm
          have h := hdraws.video dst (by simp)
          simpa [Screen.store] using h
      | succ i =>
          rw [← two_add_ofNat]
          exact ih (by omega) (by omega)

/-- A row is copied when no cell is read after it has been written. -/
lemma copyCells_apply (dst src : UInt32) (hn : 2 * n < 2 ^ 32)
    (hsep : ∀ i < n, ∀ j < i, dst + UInt32.ofNat (2 * j) ≠ src + UInt32.ofNat (2 * i))
    (hi : i < n) : (copyCells dst src n s).video (dst + UInt32.ofNat (2 * i))
      = s.video (src + UInt32.ofNat (2 * i)) := by
  induction n generalizing dst src s i with
  | zero => exact absurd hi (Nat.not_lt_zero i)
  | succ n ih =>
      rw [copyCells]
      cases i with
      | zero =>
          have hdraws : Draws (· ≠ dst) (s.store dst (s.video src))
              (copyCells (dst + 2) (src + 2) n (s.store dst (s.video src))) :=
            copyCells_draws fun j hj => by
              rw [two_add_ofNat]
              exact (ne_add_ofNat (by omega)).symm
          have h := hdraws.video dst (by simp)
          simpa [Screen.store] using h
      | succ i =>
          have hkeep : dst ≠ src + UInt32.ofNat (2 * (i + 1)) := by
            simpa using hsep (i + 1) hi 0 (Nat.succ_pos i)
          rw [← two_add_ofNat, ih (dst + 2) (src + 2) (by omega) (fun k hk j hj => ?_) (by omega),
            two_add_ofNat]
          · exact Function.update_of_ne hkeep.symm _ _
          · rw [two_add_ofNat, two_add_ofNat]
            exact hsep (k + 1) (by omega) (j + 1) (by omega)

end Draws

/-! ### The loops -/

namespace Window

variable {w : Window} {A : UInt32 → Prop} {s : Screen} {x y c l limit lines : UInt32}
  {n fuel i j : ℕ}

lemma putcharAt_draws (hA : x ≤ w.maxX → y ≤ w.maxY → A (cellAddr x.toNat y.toNat)) :
    Draws A s (w.putcharAt x y c s) := by
  rw [putcharAt]
  by_cases h : x ≤ w.maxX ∧ y ≤ w.maxY
  · rw [if_pos h]
    refine store_draws ?_
    rw [videoAddr_eq]
    exact hA h.1 h.2
  · rw [if_neg h]
    exact Draws.refl A s

lemma blanksAt_draws (hA : ∀ x, x ≤ w.maxX → y ≤ w.maxY → A (cellAddr x.toNat y.toNat)) :
    Draws A s (w.blanksAt y limit fuel x s) := by
  induction fuel generalizing x s with
  | zero => exact Draws.refl A s
  | succ fuel ih =>
      rw [blanksAt]
      split_ifs
      · exact (putcharAt_draws (hA x)).trans ih
      · exact Draws.refl A s

lemma clearLines_draws (hmax : w.scrollMaxY.toNat < 2 ^ 32 - 1)
    (hA : ∀ l' i, l.toNat ≤ l' → l' ≤ w.scrollMaxY.toNat → i < n →
      A (cellAddr (w.scrollMinX.toNat + i) l')) :
    Draws A s (w.clearLines n fuel l s) := by
  induction fuel generalizing l s with
  | zero => exact Draws.refl A s
  | succ fuel ih =>
      rw [clearLines]
      split_ifs with h
      · have hnext := toNat_add_one h hmax
        refine Draws.trans (fillCells_draws fun i hi => ?_) (ih fun l' i hl => ?_)
        · rw [videoAddr_eq, cellAddr_add]
          exact hA l.toNat i (Nat.le_refl _) (UInt32.le_iff_toNat_le.mp h) hi
        · exact hA l' i (by omega)
      · exact Draws.refl A s

lemma copyLines_draws (fuel : ℕ) (hmax : w.scrollMaxY.toNat < 2 ^ 32 - 1)
    (hlines : lines ≤ w.scrollMaxY)
    (hA : ∀ l' i, l.toNat ≤ l' → l' + lines.toNat ≤ w.scrollMaxY.toNat → i < n →
      A (cellAddr (w.scrollMinX.toNat + i) l')) :
    l.toNat ≤ (w.copyLines lines n fuel l s).1.toNat ∧
      Draws A s (w.copyLines lines n fuel l s).2 := by
  have hsub := UInt32.toNat_sub_of_le _ _ hlines
  rw [UInt32.le_iff_toNat_le] at hlines
  induction fuel generalizing l s with
  | zero => exact ⟨Nat.le_refl _, Draws.refl A s⟩
  | succ fuel ih =>
      rw [copyLines]
      split_ifs with h
      · have hnext := toNat_add_one h (by omega)
        rw [UInt32.le_iff_toNat_le] at h
        obtain ⟨hl, hdraws⟩ := ih (l := l + 1)
          (s := copyCells (videoAddr w.scrollMinX l) (videoAddr w.scrollMinX (l + lines)) n s)
          fun l' i hl => hA l' i (by omega)
        refine ⟨by omega, Draws.trans (copyCells_draws fun i hi => ?_) hdraws⟩
        rw [videoAddr_eq, cellAddr_add]
        exact hA l.toNat i (Nat.le_refl _) (by omega) hi
      · exact ⟨Nat.le_refl _, Draws.refl A s⟩

/-! ### What the lines have in them -/

section Contents

variable (hx : w.scrollMinX.toNat + n ≤ 80) (hmax : w.scrollMaxY.toNat < 25)

include hx hmax

/-- The lines that are cleared are blank. -/
lemma clearLines_apply (hi : i < n) (hl : l.toNat ≤ j) (hj : j ≤ w.scrollMaxY.toNat)
    (hfuel : w.scrollMaxY.toNat < l.toNat + fuel) :
    (w.clearLines n fuel l s).video (cellAddr (w.scrollMinX.toNat + i) j) = blankCell := by
  induction fuel generalizing l s with
  | zero => omega
  | succ fuel ih =>
      have hle : l ≤ w.scrollMaxY := UInt32.le_iff_toNat_le.mpr (by omega)
      have hnext := toNat_add_one hle (by omega)
      rw [clearLines, if_pos hle]
      rcases Nat.eq_or_lt_of_le hl with rfl | hlt
      · -- this line; the later ones leave it alone
        have hdraws : Draws (· ≠ cellAddr (w.scrollMinX.toNat + i) l.toNat)
            (fillCells (videoAddr w.scrollMinX l) n s)
            (w.clearLines n fuel (l + 1) (fillCells (videoAddr w.scrollMinX l) n s)) :=
          clearLines_draws (by omega) fun l' i' hl' hl'' hi' heq => by
            have := cellAddr_inj (by omega) (by omega) (by omega) (by omega) heq
            omega
        rw [hdraws.video _ (by simp), ← cellAddr_add, videoAddr_eq]
        exact fillCells_apply (by omega) hi
      · exact ih (by omega) (by omega)

/-- The lines that stay in view get what is in the lines below them: no line is read after it has
been overwritten. -/
lemma copyLines_apply (fuel : ℕ) (hlines : lines ≤ w.scrollMaxY)
    (hl : l.toNat + lines.toNat ≤ w.scrollMaxY.toNat + 1)
    (hfuel : w.scrollMaxY.toNat + 1 ≤ l.toNat + lines.toNat + fuel) :
    (w.copyLines lines n fuel l s).1.toNat + lines.toNat = w.scrollMaxY.toNat + 1 ∧
      ∀ i j, i < n → l.toNat ≤ j → j + lines.toNat ≤ w.scrollMaxY.toNat →
        (w.copyLines lines n fuel l s).2.video (cellAddr (w.scrollMinX.toNat + i) j)
          = s.video (cellAddr (w.scrollMinX.toNat + i) (j + lines.toNat)) := by
  have hsub := UInt32.toNat_sub_of_le _ _ hlines
  have hlines' := UInt32.le_iff_toNat_le.mp hlines
  induction fuel generalizing l s with
  | zero => exact ⟨by rw [copyLines]; dsimp only; omega, fun i j _ _ _ => by omega⟩
  | succ fuel ih =>
      rw [copyLines]
      by_cases h : l ≤ w.scrollMaxY - lines
      · have hnext := toNat_add_one h (by omega)
        have hl' := UInt32.le_iff_toNat_le.mp h
        have hfrom : (l + lines).toNat = l.toNat + lines.toNat := by
          rw [UInt32.toNat_add]
          omega
        rw [if_pos h]
        -- this line is copied from the one so many lines below
        set s₁ := copyCells (videoAddr w.scrollMinX l) (videoAddr w.scrollMinX (l + lines)) n s
          with hs₁
        have hcopied : ∀ i < n, s₁.video (cellAddr (w.scrollMinX.toNat + i) l.toNat)
            = s.video (cellAddr (w.scrollMinX.toNat + i) (l.toNat + lines.toNat)) := fun i hi => by
          have hc := copyCells_apply (videoAddr w.scrollMinX l)
            (videoAddr w.scrollMinX (l + lines)) (s := s) (n := n) (by omega)
            (fun i hi j hj heq => by
              rw [videoAddr_eq, videoAddr_eq, cellAddr_add, cellAddr_add] at heq
              have := cellAddr_inj (by omega) (by omega) (by omega) (by omega) heq
              omega) hi
          rw [videoAddr_eq, videoAddr_eq, cellAddr_add, cellAddr_add, hfrom] at hc
          rwa [hs₁, videoAddr_eq, videoAddr_eq, hfrom]
        have hkeep : ∀ i j, i < n → l.toNat < j → j < 25 →
            s₁.video (cellAddr (w.scrollMinX.toNat + i) j)
              = s.video (cellAddr (w.scrollMinX.toNat + i) j) := fun i j hi hj hj' => by
          have hdraws : Draws (· ≠ cellAddr (w.scrollMinX.toNat + i) j) s s₁ :=
            copyCells_draws fun k hk heq => by
              rw [videoAddr_eq, cellAddr_add] at heq
              have := cellAddr_inj (by omega) (by omega) (by omega) (by omega) heq
              omega
          exact hdraws.video _ (by simp)
        -- the later ones leave it alone and read lines that are still as they were
        obtain ⟨hend, hlater⟩ := ih (l := l + 1) (s := s₁) (by omega) (by omega)
        refine ⟨hend, fun i j hi hlj hj => ?_⟩
        rcases Nat.eq_or_lt_of_le hlj with rfl | hlt
        · have hdraws : Draws (· ≠ cellAddr (w.scrollMinX.toNat + i) l.toNat) s₁
              (w.copyLines lines n fuel (l + 1) s₁).2 :=
            (copyLines_draws fuel (by omega) hlines fun l' i' hl₁ hl₂ hi' heq => by
              have := cellAddr_inj (by omega) (by omega) (by omega) (by omega) heq
              omega).2
          rw [hdraws.video _ (by simp)]
          exact hcopied i hi
        · rw [hlater i j hi (by omega) hj]
          exact hkeep i (j + lines.toNat) hi (by omega) (by omega)
      · rw [if_neg h]
        rw [UInt32.le_iff_toNat_le] at h
        exact ⟨by dsimp only; omega, fun i j _ _ _ => by omega⟩

end Contents

end Window

end Sp2
