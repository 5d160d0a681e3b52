import Sp2.Devices.Drawing

/-!
Scrolling.

* `Window.InScreen`: the scroll region lies on the screen.
* `clearscroll_draws`, `scroll_draws`: only cells of the region are stored into.
* `clearscroll_cells`, `scroll_cells`: what the cells of the region have in them afterwards.
* `region_scrolled`: **the lines of the region move up**, for every region and number of lines.
-/

namespace Sp2

open Address

/-- The scroll region lies on the screen. -/
structure Window.InScreen (w : Window) : Prop where
  width : w.scrollMinX ≤ w.scrollMaxX
  right : w.scrollMaxX ≤ screenMaxX
  height : w.scrollMinY ≤ w.scrollMaxY
  bottom : w.scrollMaxY ≤ screenMaxY

/-- A cell of the scroll region. -/
structure Window.InRegion (w : Window) (x y : ℕ) : Prop where
  left : w.scrollMinX.toNat ≤ x
  right : x ≤ w.scrollMaxX.toNat
  top : w.scrollMinY.toNat ≤ y
  bottom : y ≤ w.scrollMaxY.toNat

section Region

variable {w : Window} {x y n i : ℕ}

/-- The bounds as numbers. -/
lemma Window.InScreen.numbers (h : w.InScreen) :
    w.scrollMinX.toNat ≤ w.scrollMaxX.toNat ∧ w.scrollMaxX.toNat ≤ 79
      ∧ w.scrollMinY.toNat ≤ w.scrollMaxY.toNat ∧ w.scrollMaxY.toNat ≤ 24 :=
  ⟨UInt32.le_iff_toNat_le.mp h.width, UInt32.le_iff_toNat_le.mp h.right,
    UInt32.le_iff_toNat_le.mp h.height, UInt32.le_iff_toNat_le.mp h.bottom⟩

/-- The number of columns of the scroll region. -/
lemma Window.InScreen.ncols (h : w.InScreen) : (w.scrollMaxX - w.scrollMinX + 1).toNat
    = w.scrollMaxX.toNat - w.scrollMinX.toNat + 1 := by
  obtain ⟨-, hright, -, -⟩ := h.numbers
  rw [UInt32.toNat_add, UInt32.toNat_sub_of_le _ _ h.width, UInt32.toNat_one]
  omega

/-- The number of columns as an `int`. -/
lemma Window.InScreen.ncols_int (h : w.InScreen) :
    (w.scrollMaxX - w.scrollMinX + 1).toInt32.toInt.toNat
      = w.scrollMaxX.toNat - w.scrollMinX.toNat + 1 := by
  have hn := h.ncols
  obtain ⟨-, hright, -, -⟩ := h.numbers
  rw [toNat_toInt32 (by omega), hn]

lemma Window.InRegion.cell (h : w.InRegion x y) : w.Region (cellAddr x y) :=
  ⟨x, y, ⟨h.left, h.right⟩, ⟨h.top, h.bottom⟩, rfl⟩

/-- The cells of one line of the region. -/
lemma Window.InScreen.line (h : w.InScreen) (hn : n = w.scrollMaxX.toNat - w.scrollMinX.toNat + 1)
    (hi : i < n) (hy : w.scrollMinY.toNat ≤ y) (hy' : y ≤ w.scrollMaxY.toNat) :
    w.InRegion (w.scrollMinX.toNat + i) y := by
  obtain ⟨hwidth, -, -, -⟩ := h.numbers
  exact ⟨Nat.le_add_right _ _, by omega, hy, hy'⟩

end Region

namespace Console

section Scroll

variable {s : Console} {lines : UInt32} {x y : ℕ}

/-! ### Where the stores go -/

lemma clearscroll_draws (h : s.InScreen) : Draws s.Region s.toScreen s.clearscroll.toScreen := by
  obtain ⟨-, -, -, hbottom⟩ := h.numbers
  exact Window.clearLines_draws (by omega) fun l i hl hl' hi => (h.line h.ncols hi hl hl').cell

/-- A scroll by no more than the region leaves lines in view. -/
lemma lines_le (h : s.InScreen) (hlines : ¬ lines > s.scrollMaxY - s.scrollMinY) :
    lines ≤ s.scrollMaxY ∧ s.scrollMinY.toNat + lines.toNat ≤ s.scrollMaxY.toNat := by
  obtain ⟨-, -, hheight, -⟩ := h.numbers
  rw [gt_iff_lt, UInt32.lt_iff_toNat_lt, UInt32.toNat_sub_of_le _ _ h.height] at hlines
  rw [UInt32.le_iff_toNat_le]
  omega

lemma scroll_draws (lines : UInt32) (h : s.InScreen) :
    Draws s.Region s.toScreen (s.scroll lines).toScreen := by
  obtain ⟨-, -, -, hbottom⟩ := h.numbers
  rw [scroll]
  split_ifs with hlines
  · exact clearscroll_draws h
  · obtain ⟨hend, hcopy⟩ := Window.copyLines_draws (w := s.toWindow) (A := s.Region)
      (l := s.scrollMinY) (s := s.toScreen)
      (n := (s.scrollMaxX - s.scrollMinX + 1).toInt32.toInt.toNat) (s.scrollMaxY.toNat + 1)
      (by omega) (lines_le h hlines).1
      fun l i hl hl' hi => (h.line h.ncols_int hi hl (by omega)).cell
    exact hcopy.trans (Window.clearLines_draws (by omega) fun l i hl hl' hi =>
      (h.line h.ncols_int hi (by omega) hl').cell)

/-! ### What the cells have in them -/

lemma clearscroll_cells (h : s.InScreen) (hcell : s.InRegion x y) :
    s.clearscroll.video (cellAddr x y) = blankCell := by
  obtain ⟨hwidth, hright, hheight, hbottom⟩ := h.numbers
  obtain ⟨i, rfl⟩ := Nat.exists_eq_add_of_le hcell.left
  have hi := hcell.right
  exact Window.clearLines_apply (w := s.toWindow) (by rw [h.ncols]; omega) (by omega)
    (by rw [h.ncols]; omega) hcell.top hcell.bottom (by omega)

/-- **A cell after a scroll**: what was so many lines below it, or a blank. -/
lemma scroll_cells (h : s.InScreen) (hcell : s.InRegion x y) :
    (s.scroll lines).video (cellAddr x y)
      = if y + lines.toNat ≤ s.scrollMaxY.toNat then s.video (cellAddr x (y + lines.toNat))
        else blankCell := by
  obtain ⟨hwidth, hright, hheight, hbottom⟩ := h.numbers
  have htop := hcell.top
  rw [scroll]
  by_cases hlines : lines > s.scrollMaxY - s.scrollMinY
  · -- nothing stays in view
    rw [if_pos hlines]
    rw [gt_iff_lt, UInt32.lt_iff_toNat_lt, UInt32.toNat_sub_of_le _ _ h.height] at hlines
    rw [if_neg (by omega)]
    exact clearscroll_cells h hcell
  · obtain ⟨hle, hview⟩ := lines_le h hlines
    have hncols := h.ncols_int
    obtain ⟨i, rfl⟩ := Nat.exists_eq_add_of_le hcell.left
    have hi := hcell.right
    rw [if_neg hlines]
    set n := (s.scrollMaxX - s.scrollMinX + 1).toInt32.toInt.toNat with hn
    obtain ⟨hend, hcopy⟩ := Window.copyLines_apply (w := s.toWindow) (s := s.toScreen) (n := n)
      (l := s.scrollMinY) (by omega) (by omega) (s.scrollMaxY.toNat + 1) hle (by omega) (by omega)
    set r := s.toWindow.copyLines lines n (s.scrollMaxY.toNat + 1) s.scrollMinY s.toScreen with hr
    change (s.toWindow.clearLines n (s.scrollMaxY.toNat + 1) r.1 r.2).video _ = _
    by_cases hy : y + lines.toNat ≤ s.scrollMaxY.toNat
    · -- a line that has been copied is left alone by the clearing
      have hdraws : Draws (· ≠ cellAddr (s.scrollMinX.toNat + i) y) r.2
          (s.toWindow.clearLines n (s.scrollMaxY.toNat + 1) r.1 r.2) :=
        Window.clearLines_draws (by omega) fun l k hl hl' hk heq => by
          have := cellAddr_inj (by omega) (by omega) (by omega) (by omega) heq
          omega
      rw [if_pos hy, hdraws.video _ (by simp)]
      exact hcopy i y (by omega) htop hy
    · rw [if_neg hy]
      exact Window.clearLines_apply (w := s.toWindow) (by omega) (by omega) (by omega) (by omega)
        hcell.bottom (by omega)

/-- The cursor goes home when nothing stays in view. -/
lemma scroll_home (h : s.InScreen)
    (hlines : s.scrollMaxY.toNat - s.scrollMinY.toNat < lines.toNat) :
    (s.scroll lines).currX = s.scrollMinX ∧ (s.scroll lines).currY = s.scrollMinY := by
  have hall : lines > s.scrollMaxY - s.scrollMinY := by
    rwa [gt_iff_lt, UInt32.lt_iff_toNat_lt, UInt32.toNat_sub_of_le _ _ h.height]
  rw [scroll, if_pos hall]
  exact ⟨rfl, rfl⟩

end Scroll

end Console

/-- **The region is scrolled**: a cell gets what was so many lines below it, or a blank; nothing
else is changed; and where nothing stays in view, the cursor is at the top left. -/
theorem region_scrolled (s : Console) (h : s.InScreen) (lines : UInt32) :
    let s' := s.scroll lines
    (∀ x y, s.InRegion x y → s'.video (cellAddr x y)
      = if y + lines.toNat ≤ s.scrollMaxY.toNat then s.video (cellAddr x (y + lines.toNat))
        else blankCell)
    ∧ (∀ a, ¬ s.Region a → s'.video a = s.video a)
    ∧ (s.scrollMaxY.toNat - s.scrollMinY.toNat < lines.toNat →
        (∀ x y, s.InRegion x y → s'.video (cellAddr x y) = blankCell)
          ∧ s'.currX = s.scrollMinX ∧ s'.currY = s.scrollMinY) := by
  intro s'
  refine ⟨fun x y hcell => Console.scroll_cells h hcell, (Console.scroll_draws lines h).video,
    fun hlines => ⟨fun x y hcell => ?_, Console.scroll_home h hlines⟩⟩
  have htop := hcell.top
  rw [Console.scroll_cells h hcell, if_neg (by omega)]

/-- Lines 1 to 23 of the screen, which is filled with the numbers of its cells. -/
def middleLines : Console where
  toWindow := ⟨0, 1, 79, 23, 0, 1, 0, 0, 79, 24, 0⟩
  toScreen := ⟨fun a => a.toUInt16, []⟩

theorem region_scrolled_middle :
    let s' := middleLines.scroll 3
    (∀ x y, middleLines.InRegion x y → s'.video (cellAddr x y)
      = if y + UInt32.toNat 3 ≤ middleLines.scrollMaxY.toNat
        then middleLines.video (cellAddr x (y + UInt32.toNat 3)) else blankCell)
    ∧ (∀ a, ¬ middleLines.Region a → s'.video a = middleLines.video a)
    ∧ (middleLines.scrollMaxY.toNat - middleLines.scrollMinY.toNat < UInt32.toNat 3 →
        (∀ x y, middleLines.InRegion x y → s'.video (cellAddr x y) = blankCell)
          ∧ s'.currX = middleLines.scrollMinX ∧ s'.currY = middleLines.scrollMinY) :=
  region_scrolled middleLines ⟨by decide, by decide, by decide, by decide⟩ 3

end Sp2
