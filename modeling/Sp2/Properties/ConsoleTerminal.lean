import Sp2.Lib.Terminal
import Sp2.Properties.ConsoleBounds

/-!
The scroll region shows an unbounded terminal.

* `Console.key`: the key of the terminal that a character is.
* `Shows`: the cells of the region are the rows in the window of the terminal, and the cursor
  is where it is there.
* `Shows.follow`, `Shows.type`: the delayed scroll moves the window down, and a character is
  typed.
* `console_shows`: **every sequence of characters**, from a blank region.
-/

namespace Sp2

open Terminal Address

namespace Console

/-- The cell `__c_putchar_at` stores for a character. -/
def cell (c : UInt32) : UInt16 := if c > 0xff then c.toUInt16 else c.toUInt16 ||| 0x0700

/-- The key of the terminal that a character is. -/
def key (c : UInt32) : Key UInt16 :=
  if c &&& 0xff = 0x0a then .newline else if c &&& 0xff = 0x0d then .ret else .put (cell c)

/-- The number of columns of the scroll region. -/
def width (s : Console) : ℕ := s.scrollMaxX.toNat - s.scrollMinX.toNat + 1

/-- The number of lines of the scroll region. -/
def height (s : Console) : ℕ := s.scrollMaxY.toNat - s.scrollMinY.toNat + 1

/-- A cell of the scroll region, by its line and column there. -/
def regionCell (s : Console) (i j : ℕ) : UInt16 :=
  s.video (cellAddr (s.scrollMinX.toNat + j) (s.scrollMinY.toNat + i))

/-- The scroll region shows the window of the terminal, with its cursor. -/
structure Shows (s : Console) (t : Term UInt16) : Prop where
  bounded : s.Bounded
  valid : t.Valid s.width s.height blankCell
  cells : ∀ i j, i < s.height → j < s.width → s.regionCell i j = t.rows (t.top + i) j
  col : s.currX.toNat = s.scrollMinX.toNat + t.col
  row : s.currY.toNat + t.top = s.scrollMinY.toNat + t.row

section Simulation

variable {s s' : Console} {t : Term UInt16} {c : UInt32} {i j : ℕ}

lemma size_congr (h : s'.corners = s.corners) : s'.width = s.width ∧ s'.height = s.height := by
  simp only [Window.corners, Prod.mk.injEq] at h
  rw [width, height, width, height, h.1.1, h.1.2, h.2.1, h.2.2]
  exact ⟨rfl, rfl⟩

/-! ### The delayed scroll -/

/-- Scrolling by one line. -/
lemma scroll_one (h : s.Bounded) (hi : i < s.height) (hj : j < s.width) :
    (s.scroll 1).video (cellAddr (s.scrollMinX.toNat + j) (s.scrollMinY.toNat + i))
      = if i + 1 < s.height then s.regionCell (i + 1) j else blankCell := by
  have hH : s.height = s.scrollMaxY.toNat - s.scrollMinY.toNat + 1 := rfl
  have hheight := h.numbers.height
  have hcell := h.inScreen.line rfl hj (Nat.le_add_right s.scrollMinY.toNat i) (by omega)
  have hview : s.scrollMinY.toNat + i + UInt32.toNat 1 ≤ s.scrollMaxY.toNat
      ↔ i + 1 < s.height := by
    rw [UInt32.toNat_one]
    omega
  rw [scroll_cells h.inScreen hcell, regionCell, ← Nat.add_assoc]
  exact if_congr hview rfl rfl

/-- The region after the delayed scroll. -/
lemma madeUp_cells (h : s.Bounded) (hbelow : s.currY > s.scrollMaxY) (hi : i < s.height)
    (hj : j < s.width) : s.madeUp.regionCell i j
      = if i + 1 < s.height then s.regionCell (i + 1) j else blankCell := by
  have hone : s.currY - s.scrollMaxY = 1 := by
    have hle := h.numbers.currY_le
    rw [gt_iff_lt, UInt32.lt_iff_toNat_lt] at hbelow
    rw [← UInt32.toNat_inj, UInt32.toNat_sub_of_le _ _ (UInt32.le_iff_toNat_le.mpr (by omega)),
      UInt32.toNat_one]
    omega
  have hcorners := (madeUp_spec h).2.2.1
  simp only [Window.corners, Prod.mk.injEq] at hcorners
  rw [regionCell, hcorners.1.1, hcorners.1.2, ← scroll_one h hi hj, madeUp, if_pos hbelow, hone]

/-- The cursor after the delayed scroll. -/
lemma madeUp_cursor (h : s.Bounded) (hbelow : s.currY > s.scrollMaxY) :
    (s.madeUp.currX = s.currX ∨ s.madeUp.currX = s.scrollMinX) ∧
      s.madeUp.currY = s.scrollMaxY := by
  have hcorners := (madeUp_spec h).2.2.1
  have hw := (scroll_spec (s.currY - s.scrollMaxY) h).2
  have hY : s.madeUp.currY = s.madeUp.scrollMaxY := by
    rw [madeUp, if_pos hbelow]
  simp only [Window.corners, Prod.mk.injEq] at hcorners
  refine ⟨?_, hY.trans hcorners.2.2⟩
  rw [madeUp, if_pos hbelow]
  dsimp only
  exact hw.imp (fun hw => by rw [hw]) fun hw => by rw [hw]; rfl

/-- **The delayed scroll moves the window down.** -/
lemma Shows.follow (h : s.Shows t) :
    s.madeUp.Shows (t.follow s.height) ∧ s.madeUp.currY ≤ s.madeUp.scrollMaxY := by
  obtain ⟨hb, hy, hcorners, -⟩ := madeUp_spec h.bounded
  obtain ⟨hwidth, hheight⟩ := size_congr hcorners
  have hpos : 0 < s.height := Nat.succ_pos _
  have hvalid := (h.valid.follow hpos).1
  have hn := h.bounded.numbers
  have hH : s.height = s.scrollMaxY.toNat - s.scrollMinY.toNat + 1 := rfl
  have hrow := h.row
  refine ⟨?_, hy⟩
  rw [← hwidth, ← hheight] at hvalid
  by_cases hbelow : s.currY > s.scrollMaxY
  · -- the cursor is in the fresh row below the window
    have heq : t.row = t.top + s.height := by
      have h₁ := hn.currY_le
      have h₂ := hn.height
      rw [gt_iff_lt, UInt32.lt_iff_toNat_lt] at hbelow
      omega
    obtain ⟨hcurrX, hcurrY⟩ := madeUp_cursor h.bounded hbelow
    have hcol := h.valid.fresh heq
    have hX : s.madeUp.currX = s.scrollMinX := by
      rcases hcurrX with hX | hX
      · rw [hX, ← UInt32.toNat_inj, h.col, hcol, Nat.add_zero]
      · exact hX
    rw [hheight] at hvalid
    rw [Term.follow_of_below heq] at hvalid ⊢
    simp only [Window.corners, Prod.mk.injEq] at hcorners
    refine ⟨hb, by rwa [hheight], fun i j hi hj => ?_, ?_, ?_⟩
    · rw [hheight] at hi
      rw [hwidth] at hj
      rw [madeUp_cells h.bounded hbelow hi hj]
      dsimp only
      split_ifs with hi'
      · rw [h.cells (i + 1) j hi' hj]
        congr 1
        omega
      · exact (h.valid.below _ j (by omega)).symm
    · rw [hX, hcorners.1.1]
      simp [hcol]
    · rw [hcurrY, hcorners.1.2]
      have h₂ := hn.height
      dsimp only
      omega
  · -- the cursor is in the window
    have hlt : t.row < t.top + s.height := by
      rw [gt_iff_lt, UInt32.lt_iff_toNat_lt] at hbelow
      omega
    have hmade : s.madeUp = s := if_neg hbelow
    rw [Term.follow_of_lt hlt, hmade]
    exact h

/-! ### A character -/

/-- The cell a character is put into. -/
lemma putcharAt_apply {w : Window} {x y : UInt32} {s : Screen} (hx : x ≤ w.maxX)
    (hy : y ≤ w.maxY) : (w.putcharAt x y c s).video (cellAddr x.toNat y.toNat) = cell c := by
  rw [Window.putcharAt, if_pos ⟨hx, hy⟩, ← videoAddr_eq]
  exact Function.update_self _ _ _

/-- The line of the cursor, erased from there on. -/
lemma eraseLine_apply {fuel x : ℕ} (hright : s.scrollMaxX.toNat < 80) (hy : s.currY.toNat < 25)
    (hmaxX : s.maxX.toNat = 79) (hmaxY : s.maxY.toNat = 24) (hx : s.currX.toNat ≤ x)
    (hx' : x ≤ s.scrollMaxX.toNat) (hfuel : s.scrollMaxX.toNat < s.currX.toNat + fuel) :
    (s.eraseLine fuel).video (cellAddr x s.currY.toNat) = blankCell := by
  induction fuel generalizing s with
  | zero => omega
  | succ fuel ih =>
      have hle : s.currX ≤ s.scrollMaxX := UInt32.le_iff_toNat_le.mpr (by omega)
      have hnext := toNat_add_one hle (by omega)
      rw [eraseLine, if_pos hle]
      -- the loop after the first cell
      let s₁ : Console := { s with
        toScreen := s.toWindow.putcharAt s.currX s.currY 0x20 s.toScreen
        currX := s.currX + 1 }
      change (s₁.eraseLine fuel).video _ = _
      rcases Nat.eq_or_lt_of_le hx with rfl | hlt
      · -- this column; the later ones leave it alone
        have hdraws : Draws (· ≠ cellAddr s.currX.toNat s.currY.toNat) s₁.toScreen
            (s₁.eraseLine fuel).toScreen :=
          eraseLine_draws _ (fun x hx hx' heq => by
            change (s.currX + 1).toNat ≤ x at hx
            change x ≤ s.scrollMaxX.toNat at hx'
            have := cellAddr_inj (by omega) (by omega) (by omega) (by omega) heq
            omega) (by change s.scrollMaxX.toNat < _; omega)
        rw [hdraws.video _ (by simp)]
        exact putcharAt_apply (UInt32.le_iff_toNat_le.mpr (by omega))
          (UInt32.le_iff_toNat_le.mpr (by omega))
      · exact ih (s := s₁) hright hy hmaxX hmaxY (by change (s.currX + 1).toNat ≤ x; omega) hx'
          (by change s.scrollMaxX.toNat < (s.currX + 1).toNat + fuel; omega)

/-- A cell of the region is the one at the cursor exactly if it is so in the terminal. -/
lemma Shows.cursor_cell (h : s.Shows t) (hi : i < s.height) (hj : j < s.width)
    (hy : s.currY ≤ s.scrollMaxY) :
    cellAddr (s.scrollMinX.toNat + j) (s.scrollMinY.toNat + i)
      = cellAddr s.currX.toNat s.currY.toNat ↔ t.top + i = t.row ∧ j = t.col := by
  have hn := h.bounded.numbers
  have hright := hn.right
  have hbottom := hn.bottom
  have hX := hn.currX_le
  have hwidth := hn.width
  have hheight := hn.height
  have hcol := h.col
  have hrow := h.row
  rw [UInt32.le_iff_toNat_le] at hy
  rw [width] at hj
  rw [height] at hi
  constructor
  · intro heq
    have := cellAddr_inj (by omega) (by omega) (by omega) (by omega) heq
    omega
  · rintro ⟨hr, rfl⟩
    congr 1
    · omega
    · omega

/-- The next line and the next column, as numbers. -/
lemma Shows.next (h : s.Shows t) (hy : s.currY ≤ s.scrollMaxY) :
    (s.currY + 1).toNat = s.currY.toNat + 1 ∧ (s.currX + 1).toNat = s.currX.toNat + 1 := by
  have hn := h.bounded.numbers
  have hright := hn.right
  have hbottom := hn.bottom
  exact ⟨toNat_add_one hy (by omega), toNat_add_one h.bounded.currX_le (by omega)⟩

/-- What is to be shown after a character, in the coordinates of before. -/
lemma Shows.typed_of (h : s.Shows t) (hy : s.currY ≤ s.scrollMaxY)
    (hcells : ∀ i j, i < s.height → j < s.width →
      (s.typed c).video (cellAddr (s.scrollMinX.toNat + j) (s.scrollMinY.toNat + i))
        = (t.type s.width blankCell (key c)).rows (t.top + i) j)
    (hcol : (s.typed c).currX.toNat
      = s.scrollMinX.toNat + (t.type s.width blankCell (key c)).col)
    (hrow : (s.typed c).currY.toNat + t.top
      = s.scrollMinY.toNat + (t.type s.width blankCell (key c)).row) :
    (s.typed c).Shows (t.type s.width blankCell (key c)) := by
  obtain ⟨hb, hcorners, -⟩ := typed_spec (c := c) h.bounded hy
  obtain ⟨hwidth, hheight⟩ := size_congr hcorners
  have hlt : t.row < t.top + s.height := by
    have hheight := h.bounded.numbers.height
    have hrow := h.row
    rw [UInt32.le_iff_toNat_le] at hy
    rw [height]
    omega
  have hvalid := h.valid.type (k := key c) hlt
  have htop : (t.type s.width blankCell (key c)).top = t.top := by
    cases key c with
    | put a =>
        rw [Term.type]
        dsimp only
        split_ifs <;> rfl
    | newline => rfl
    | ret => rfl
  simp only [Window.corners, Prod.mk.injEq] at hcorners
  obtain ⟨⟨hminX, hminY⟩, -⟩ := hcorners
  refine ⟨hb, by rwa [hwidth, hheight], fun i j hi hj => ?_, ?_, ?_⟩
  · rw [hheight] at hi
    rw [hwidth] at hj
    rw [regionCell, hminX, hminY, htop]
    exact hcells i j hi hj
  · rw [hminX]
    exact hcol
  · rw [hminY, htop]
    exact hrow

lemma Shows.type_newline (h : s.Shows t) (hy : s.currY ≤ s.scrollMaxY)
    (hlf : c &&& 0xff = 0x0a) : (s.typed c).Shows (t.type s.width blankCell (key c)) := by
  have hn := h.bounded.numbers
  have hright := hn.right
  have hbottom := hn.bottom
  have hX := hn.currX_le
  have hcol := h.col
  have hrow := h.row
  have hW : s.width = s.scrollMaxX.toNat - s.scrollMinX.toNat + 1 := rfl
  have hkey : key c = .newline := if_pos hlf
  have hY := UInt32.le_iff_toNat_le.mp hy
  refine h.typed_of hy (fun i j hi hj => ?_) ?_ ?_
  · have hH : s.height = s.scrollMaxY.toNat - s.scrollMinY.toNat + 1 := rfl
    have hwidth := hn.width
    have hheight := hn.height
    rw [typed_newline hlf, hkey]
    dsimp only [Term.type]
    split_ifs with hin
    · -- in the rest of the line
      have hline : s.scrollMinY.toNat + i = s.currY.toNat := by omega
      rw [hline]
      exact eraseLine_apply (by omega) (by omega) hn.maxX hn.maxY (by omega) (by omega) (by omega)
    · -- anywhere else
      have hdraws : Draws (· ≠ cellAddr (s.scrollMinX.toNat + j) (s.scrollMinY.toNat + i))
          s.toScreen (s.eraseLine (s.scrollMaxX.toNat + 1)).toScreen :=
        eraseLine_draws _ (fun x hx hx' heq => by
          have := cellAddr_inj (by omega) (by omega) (by omega) (by omega) heq
          omega) (by omega)
      rw [hdraws.video _ (by simp)]
      exact h.cells i j hi hj
  · rw [typed_newline hlf, hkey]
    rfl
  · rw [typed_newline hlf, hkey]
    change (s.currY + 1).toNat + t.top = s.scrollMinY.toNat + (t.row + 1)
    rw [(h.next hy).1]
    omega

lemma Shows.type_return (h : s.Shows t) (hy : s.currY ≤ s.scrollMaxY)
    (hcr : c &&& 0xff = 0x0d) : (s.typed c).Shows (t.type s.width blankCell (key c)) := by
  have hkey : key c = .ret := by
    rw [key, if_neg (by rw [hcr]; decide), if_pos hcr]
  refine h.typed_of hy (fun i j hi hj => ?_) ?_ ?_
  · rw [typed_return hcr, hkey]
    exact h.cells i j hi hj
  · rw [typed_return hcr, hkey]
    rfl
  · rw [typed_return hcr, hkey]
    exact h.row

/-- The cells after a character has been put at the cursor. -/
lemma Shows.put_cells (h : s.Shows t) (hy : s.currY ≤ s.scrollMaxY) (hi : i < s.height)
    (hj : j < s.width) : (s.toWindow.putcharAt s.currX s.currY c s.toScreen).video
        (cellAddr (s.scrollMinX.toNat + j) (s.scrollMinY.toNat + i))
      = Function.update t.rows t.row (Function.update (t.rows t.row) t.col (cell c))
        (t.top + i) j := by
  have hat := h.cursor_cell hi hj hy
  by_cases hcursor : t.top + i = t.row ∧ j = t.col
  · rw [hat.mpr hcursor, putcharAt_apply (UInt32.le_trans h.bounded.currX_le h.bounded.right)
      (UInt32.le_trans hy h.bounded.bottom), hcursor.1, hcursor.2]
    simp
  · have hdraws : Draws (· ≠ cellAddr (s.scrollMinX.toNat + j) (s.scrollMinY.toNat + i)) s.toScreen
        (s.toWindow.putcharAt s.currX s.currY c s.toScreen) :=
      Window.putcharAt_draws fun _ _ heq => hcursor (hat.mp heq.symm)
    rw [hdraws.video _ (by simp)]
    refine (h.cells i j hi hj).trans ?_
    by_cases hr : t.top + i = t.row
    · have hc : j ≠ t.col := fun hc => hcursor ⟨hr, hc⟩
      rw [hr, Function.update_self, Function.update_of_ne hc]
    · rw [Function.update_of_ne hr]

lemma Shows.type_put (h : s.Shows t) (hy : s.currY ≤ s.scrollMaxY) (hlf : c &&& 0xff ≠ 0x0a)
    (hcr : c &&& 0xff ≠ 0x0d) : (s.typed c).Shows (t.type s.width blankCell (key c)) := by
  have hkey : key c = .put (cell c) := by rw [key, if_neg hlf, if_neg hcr]
  have hnext := h.next hy
  have hcol := h.col
  have hrow := h.row
  have hwidth := h.bounded.numbers.width
  have hW : s.width = s.scrollMaxX.toNat - s.scrollMinX.toNat + 1 := rfl
  by_cases hwrap : s.currX + 1 > s.scrollMaxX
  · -- the last column
    have hlast : ¬ t.col + 1 < s.width := by
      rw [gt_iff_lt, UInt32.lt_iff_toNat_lt] at hwrap
      omega
    refine h.typed_of hy (fun i j hi hj => ?_) ?_ ?_
    all_goals
      rw [typed_wrap hlf hcr hwrap, hkey, Term.type]
      dsimp only
      rw [if_neg hlast]
    · exact h.put_cells hy hi hj
    · rfl
    · dsimp only
      rw [hnext.1]
      omega
  · -- another column
    have hmore : t.col + 1 < s.width := by
      rw [gt_iff_lt, UInt32.lt_iff_toNat_lt] at hwrap
      omega
    refine h.typed_of hy (fun i j hi hj => ?_) ?_ ?_
    all_goals
      rw [typed_next hlf hcr hwrap, hkey, Term.type]
      dsimp only
      rw [if_pos hmore]
    · exact h.put_cells hy hi hj
    · dsimp only
      omega
    · exact hrow

/-- **A character typed on the screen is typed in the terminal.** -/
lemma Shows.type (h : s.Shows t) (hy : s.currY ≤ s.scrollMaxY) :
    (s.typed c).Shows (t.type s.width blankCell (key c)) := by
  by_cases hlf : c &&& 0xff = 0x0a
  · exact h.type_newline hy hlf
  · by_cases hcr : c &&& 0xff = 0x0d
    · exact h.type_return hy hcr
    · exact h.type_put hy hlf hcr

/-- The cursor on the screen has no part in what is shown. -/
lemma Shows.setcursor (h : s.Shows t) :
    Shows { s with toWindow := s.setcursor } t :=
  ⟨h.bounded.setcursor, h.valid, h.cells, h.col, h.row⟩

/-- **`c_putchar` is output to the terminal.** -/
theorem Shows.putchar (h : s.Shows t) :
    (s.putchar c).Shows (t.output s.width s.height blankCell (key c)) := by
  obtain ⟨hfollow, hy⟩ := h.follow
  have hcorners := (madeUp_spec h.bounded).2.2.1
  have htype := (hfollow.type (c := c) hy).setcursor
  rwa [(size_congr hcorners).1] at htype

/-- **A run of `c_putchar`**, by induction on the characters. -/
lemma Shows.run (h : s.Shows t) (cs : List UInt32) :
    (cs.foldl (fun s c => s.putchar c) s).corners = s.corners ∧
      (cs.foldl (fun s c => s.putchar c) s).Shows
        ((cs.map key).foldl (Term.output s.width s.height blankCell) t) := by
  induction cs generalizing s t with
  | nil => exact ⟨rfl, h⟩
  | cons c cs ih =>
      have hcorners := (putchar_spec (c := c) h.bounded).2.1
      obtain ⟨hcorners', hshows⟩ := ih h.putchar
      rw [(size_congr hcorners).1, (size_congr hcorners).2] at hshows
      exact ⟨hcorners'.trans hcorners, hshows⟩

end Simulation

end Console

/-- **The scroll region shows the terminal**, whatever is put on it from a blank region with the
cursor at its top left. -/
theorem console_shows (s : Console) (hbounded : s.Bounded)
    (hblank : ∀ i j, i < s.height → j < s.width → s.regionCell i j = blankCell)
    (hcurrX : s.currX = s.scrollMinX) (hcurrY : s.currY = s.scrollMinY) (cs : List UInt32) :
    let s' := cs.foldl (fun s c => s.putchar c) s
    let t := Term.after s.width s.height blankCell (cs.map Console.key)
    s'.corners = s.corners ∧ s'.Shows t ∧ ∀ i j, i < s.height → j < s.width →
      s'.video (cellAddr (s.scrollMinX.toNat + j) (s.scrollMinY.toNat + i))
        = t.rows (t.top + i) j := by
  intro s' t
  have hstart : s.Shows (Term.start blankCell) :=
    ⟨hbounded, Term.valid_start (Nat.succ_pos _) (Nat.succ_pos _),
      by simpa [Term.start] using hblank, by rw [hcurrX]; rfl, by rw [hcurrY]; rfl⟩
  obtain ⟨hcorners, hshows⟩ := hstart.run cs
  refine ⟨hcorners, hshows, fun i j hi hj => ?_⟩
  obtain ⟨hwidth, hheight⟩ := Console.size_congr hcorners
  have hcell := hshows.cells i j (by rwa [hheight]) (by rwa [hwidth])
  have hcorners' := hcorners
  simp only [Window.corners, Prod.mk.injEq] at hcorners'
  rwa [Console.regionCell, hcorners'.1.1, hcorners'.1.2] at hcell

/-- The console after `c_io_init`, the screen being blank. -/
def blankConsole : Console :=
  Console.ioInit
    { toWindow := ⟨0, 0, 0, 0, 0, 0, 0, 0, 0, 0, 0⟩
      toScreen := ⟨fun _ => blankCell, []⟩ }

/-- The last two lines of the screen as the scroll region. -/
def lastTwoLines : Console := blankConsole.setscroll 0 23 79 24

/-- Three lines on a region of two: the third one makes it scroll. -/
theorem console_shows_typed :
    let cs : List UInt32 := [0x61, 0x0a, 0x62, 0x0a, 0x63]
    let s' := cs.foldl (fun s c => Console.putchar c s) lastTwoLines
    let t := Term.after lastTwoLines.width lastTwoLines.height blankCell (cs.map Console.key)
    t.top = 1 ∧ s'.corners = lastTwoLines.corners ∧ s'.Shows t ∧
      ∀ i j, i < lastTwoLines.height → j < lastTwoLines.width →
      s'.video (cellAddr (lastTwoLines.scrollMinX.toNat + j) (lastTwoLines.scrollMinY.toNat + i))
        = t.rows (t.top + i) j := by
  have hbounded : lastTwoLines.Bounded :=
    (bounded_ioInit _).call (c := .setscroll 0 23 79 24)
  exact ⟨rfl, console_shows lastTwoLines hbounded (fun _ _ _ _ => rfl) rfl rfl _⟩

end Sp2
