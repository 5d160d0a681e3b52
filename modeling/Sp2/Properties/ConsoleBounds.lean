import Sp2.Properties.ConsoleScroll

/-!
The console keeps its cursor and its stores where they belong.

* `Window.Bounded`: the scroll region lies on the screen and the cursor in the region, or one
  line below it.
* `Draws` for each routine: `scroll_draws`, `putchar_draws`, `putsAt_draws`, ...
* `Window.Bounded.call`: a call keeps the bounds.
* `console_bounded`: **so does every sequence of calls, and every store is where it may be**.
-/

namespace Sp2

open Address

/-! ### The statement -/

/-- The bounds on the variables of the module. -/
structure Window.Bounded (w : Window) : Prop where
  screenX : w.minX = 0 ∧ w.maxX = 79
  screenY : w.minY = 0 ∧ w.maxY = 24
  left : w.minX ≤ w.scrollMinX
  width : w.scrollMinX ≤ w.scrollMaxX
  right : w.scrollMaxX ≤ w.maxX
  top : w.minY ≤ w.scrollMinY
  height : w.scrollMinY ≤ w.scrollMaxY
  bottom : w.scrollMaxY ≤ w.maxY
  currX_ge : w.scrollMinX ≤ w.currX
  currX_le : w.currX ≤ w.scrollMaxX
  currY_ge : w.scrollMinY ≤ w.currY
  currY_le : w.currY ≤ w.scrollMaxY + 1

/-- A call of one of the output routines. -/
inductive ConsoleCall
  | setscroll (sMinX sMinY sMaxX sMaxY : UInt32)
  | moveto (x y : UInt32)
  | putchar (c : UInt32)
  | puts (str : List UInt8)
  | scroll (lines : UInt32)
  | clearscroll
  | putcharAt (x y c : UInt32)
  | putsAt (x y : UInt32) (str : List UInt8)
  | clearscreen

namespace ConsoleCall

/-- What the call does. -/
def run (s : Console) : ConsoleCall → Console
  | setscroll sMinX sMinY sMaxX sMaxY => s.setscroll sMinX sMinY sMaxX sMaxY
  | moveto x y => s.moveto x y
  | putchar c => s.putchar c
  | puts str => s.puts str
  | scroll lines => s.scroll lines
  | clearscroll => s.clearscroll
  | putcharAt x y c => s.putcharAt x y c
  | putsAt x y str => s.putsAt x y str
  | clearscreen => s.clearscreen

/-- The scrolling routines. -/
def Scrolling : ConsoleCall → Prop
  | putchar _ | puts _ | scroll _ | clearscroll => True
  | _ => False

/-- The routines that are given a place on the screen. -/
def Placed : ConsoleCall → Prop
  | putcharAt .. | putsAt .. => True
  | _ => False

/-- Where a call stores, and which calls move the cursor or the region. -/
structure Safe (c : ConsoleCall) (s : Console) : Prop where
  on_screen : Draws OnScreen s.toScreen (c.run s).toScreen
  in_region : c.Scrolling → Draws s.Region s.toScreen (c.run s).toScreen
  placed : c.Placed → (c.run s).toWindow = s.toWindow

end ConsoleCall

/-! ### Bounds -/

/-- The corners of the scroll region. -/
def Window.corners (w : Window) : (UInt32 × UInt32) × UInt32 × UInt32 :=
  ((w.scrollMinX, w.scrollMinY), w.scrollMaxX, w.scrollMaxY)

section Bounds

variable {w w' : Window} {x y l h : UInt32} {i j : ℕ} {a : UInt32}

lemma bound_mem (hle : l ≤ h) (v : UInt32) : l ≤ bound l v h ∧ bound l v h ≤ h := by
  simp only [UInt32.le_iff_toNat_le, bound, gt_iff_lt, UInt32.lt_iff_toNat_lt] at *
  split_ifs <;> omega

lemma Window.region_congr (h : w'.corners = w.corners) : w'.Region = w.Region := by
  simp only [corners, Prod.mk.injEq] at h
  rw [Region, Region, h.1.1, h.1.2, h.2.1, h.2.2]

/-- The bounds as numbers. -/
structure Window.Numbers (w : Window) : Prop where
  maxX : w.maxX.toNat = 79
  maxY : w.maxY.toNat = 24
  width : w.scrollMinX.toNat ≤ w.scrollMaxX.toNat
  right : w.scrollMaxX.toNat ≤ 79
  height : w.scrollMinY.toNat ≤ w.scrollMaxY.toNat
  bottom : w.scrollMaxY.toNat ≤ 24
  currX_ge : w.scrollMinX.toNat ≤ w.currX.toNat
  currX_le : w.currX.toNat ≤ w.scrollMaxX.toNat
  currY_ge : w.scrollMinY.toNat ≤ w.currY.toNat
  currY_le : w.currY.toNat ≤ w.scrollMaxY.toNat + 1

namespace Window.Bounded

lemma numbers (h : w.Bounded) : w.Numbers := by
  have hmaxX : w.maxX.toNat = 79 := congrArg UInt32.toNat h.screenX.2
  have hmaxY : w.maxY.toNat = 24 := congrArg UInt32.toNat h.screenY.2
  have hright := UInt32.le_iff_toNat_le.mp h.right
  have hbottom := UInt32.le_iff_toNat_le.mp h.bottom
  have hcurrY := UInt32.le_iff_toNat_le.mp h.currY_le
  have hnext : (w.scrollMaxY + 1).toNat = w.scrollMaxY.toNat + 1 := by
    rw [UInt32.toNat_add, UInt32.toNat_one]
    omega
  exact ⟨hmaxX, hmaxY, UInt32.le_iff_toNat_le.mp h.width, by omega,
    UInt32.le_iff_toNat_le.mp h.height, by omega, UInt32.le_iff_toNat_le.mp h.currX_ge,
    UInt32.le_iff_toNat_le.mp h.currX_le, UInt32.le_iff_toNat_le.mp h.currY_ge, by omega⟩

/-- The cursor may be moved within its bounds. -/
lemma move (h : w.Bounded) (hx : w.scrollMinX ≤ x) (hx' : x ≤ w.scrollMaxX)
    (hy : w.scrollMinY ≤ y) (hy' : y ≤ w.scrollMaxY + 1) :
    Bounded { w with currX := x, currY := y } :=
  ⟨h.screenX, h.screenY, h.left, h.width, h.right, h.top, h.height, h.bottom, hx, hx', hy, hy'⟩

/-- The cursor on the screen has no part in the bounds. -/
lemma locate (h : w.Bounded) (location : UInt16) : Bounded { w with location := location } :=
  ⟨h.screenX, h.screenY, h.left, h.width, h.right, h.top, h.height, h.bottom, h.currX_ge,
    h.currX_le, h.currY_ge, h.currY_le⟩

lemma setcursor (h : w.Bounded) : w.setcursor.Bounded := h.locate _

/-- The line below the region. -/
lemma le_below (h : w.Bounded) (hy : y ≤ w.scrollMaxY) : y + 1 ≤ w.scrollMaxY + 1 := by
  have := h.numbers.bottom
  simp only [UInt32.le_iff_toNat_le, UInt32.toNat_add, UInt32.toNat_one] at *
  omega

lemma max_le_below (h : w.Bounded) : w.scrollMaxY ≤ w.scrollMaxY + 1 := by
  have hbottom := h.numbers.bottom
  rw [UInt32.le_iff_toNat_le, toNat_add_one (UInt32.le_refl _) (by omega)]
  exact Nat.le_succ _

/-- The home position of the cursor. -/
lemma home (h : w.Bounded) : Bounded { w with currX := w.scrollMinX, currY := w.scrollMinY } :=
  h.move (UInt32.le_refl _) h.width (UInt32.le_refl _) (UInt32.le_trans h.height h.max_le_below)

/-- The scroll region is on the screen. -/
lemma onScreen (h : w.Bounded) (ha : w.Region a) : OnScreen a := by
  obtain ⟨x, y, hx, hy, rfl⟩ := ha
  have hright := h.numbers.right
  have hbottom := h.numbers.bottom
  exact ⟨x, y, ⟨Nat.zero_le _, by omega⟩, ⟨Nat.zero_le _, by omega⟩, rfl⟩

lemma inScreen (h : w.Bounded) : w.InScreen := by
  have hright := h.right
  have hbottom := h.bottom
  rw [h.screenX.2] at hright
  rw [h.screenY.2] at hbottom
  exact ⟨h.width, hright, h.height, hbottom⟩

end Window.Bounded

end Bounds

/-! ### The routines -/

namespace Console

variable {s : Console} {x y c lines : UInt32} {fuel : ℕ} {str : List UInt8} {A : UInt32 → Prop}

/-- A cell of the screen. -/
lemma onScreen_cell (h : s.Bounded) (hx : x ≤ s.maxX) (hy : y ≤ s.maxY) :
    OnScreen (cellAddr x.toNat y.toNat) := by
  have hmaxX := h.numbers.maxX
  have hmaxY := h.numbers.maxY
  rw [UInt32.le_iff_toNat_le] at hx hy
  exact ⟨_, _, ⟨Nat.zero_le _, by omega⟩, ⟨Nat.zero_le _, by omega⟩, rfl⟩

lemma putcharAt_draws (h : s.Bounded) :
    Draws OnScreen s.toScreen (s.putcharAt x y c).toScreen := by
  rw [putcharAt]
  by_cases hc : c &&& 0x7f = 0x0a
  · rw [if_pos hc]
    exact Window.blanksAt_draws fun _ => onScreen_cell h
  · rw [if_neg hc]
    exact Window.putcharAt_draws (onScreen_cell h)

lemma putcharAt_window : (s.putcharAt x y c).toWindow = s.toWindow := by
  rw [putcharAt]
  split_ifs <;> rfl

lemma putsAt_spec (x y : UInt32) (str : List UInt8) (h : s.Bounded) :
    Draws OnScreen s.toScreen (s.putsAt x y str).toScreen ∧
    (s.putsAt x y str).toWindow = s.toWindow := by
  induction str generalizing s x with
  | nil => exact ⟨Draws.refl _ _, rfl⟩
  | cons ch str ih =>
      rw [putsAt]
      split_ifs
      · have hwindow := putcharAt_window (s := s) (x := x) (y := y) (c := charToUInt32 ch)
        obtain ⟨hdraws, hwindow'⟩ := ih (s := s.putcharAt x y (charToUInt32 ch)) (x + 1)
          (by rwa [hwindow])
        exact ⟨(putcharAt_draws h).trans hdraws, hwindow'.trans hwindow⟩
      · exact ⟨Draws.refl _ _, rfl⟩

/-- A scroll stores in the region, and moves the cursor at most to its home position. -/
lemma scroll_spec (lines : UInt32) (h : s.Bounded) :
    Draws s.Region s.toScreen (s.scroll lines).toScreen ∧
    ((s.scroll lines).toWindow = s.toWindow ∨ (s.scroll lines).toWindow
      = Window.setcursor { s.toWindow with currX := s.scrollMinX, currY := s.scrollMinY }) := by
  refine ⟨scroll_draws lines h.inScreen, ?_⟩
  rw [scroll]
  split_ifs with hlines
  · exact Or.inr rfl
  · exact Or.inl rfl

/-! ### `c_putchar` -/

/-- `c_putchar` after the scroll that was delayed. -/
def madeUp (s : Console) : Console :=
  if s.currY > s.scrollMaxY then
    let s := s.scroll (s.currY - s.scrollMaxY)
    { s with currY := s.scrollMaxY }
  else s

/-- `c_putchar` on a line of the region, but for the cursor on the screen. -/
def typed (c : UInt32) (s : Console) : Console :=
  if c &&& 0xff = 0x0a then
    let s := s.eraseLine (s.scrollMaxX.toNat + 1)
    { s with currX := s.scrollMinX, currY := s.currY + 1 }
  else if c &&& 0xff = 0x0d then { s with currX := s.scrollMinX }
  else
    let s := { s with toScreen := s.toWindow.putcharAt s.currX s.currY c s.toScreen }
    let s := { s with currX := s.currX + 1 }
    if s.currX > s.scrollMaxX then { s with currX := s.scrollMinX, currY := s.currY + 1 } else s

/-- The loop moves nothing but the column of the cursor. -/
lemma eraseLine_window (fuel : ℕ) :
    ∃ x, (s.eraseLine fuel).toWindow = { s.toWindow with currX := x } := by
  induction fuel generalizing s with
  | zero => exact ⟨s.currX, rfl⟩
  | succ fuel ih =>
      rw [eraseLine]
      split_ifs
      · exact ih
      · exact ⟨s.currX, rfl⟩

lemma putchar_eq : s.putchar c = { s.madeUp.typed c with
    toWindow := (s.madeUp.typed c).toWindow.setcursor } := rfl

/-- A cell of the region. -/
lemma region_curr (h : s.Bounded) (hx : s.scrollMinX.toNat ≤ x.toNat)
    (hx' : x.toNat ≤ s.scrollMaxX.toNat) (hy : s.currY ≤ s.scrollMaxY) :
    s.Region (cellAddr x.toNat s.currY.toNat) :=
  ⟨_, _, ⟨hx, hx'⟩, ⟨h.numbers.currY_ge, UInt32.le_iff_toNat_le.mp hy⟩, rfl⟩

/-- The loop stores in the line of the cursor. -/
lemma eraseLine_draws (fuel : ℕ) (hA : ∀ x, s.currX.toNat ≤ x → x ≤ s.scrollMaxX.toNat →
      A (cellAddr x s.currY.toNat)) (hmax : s.scrollMaxX.toNat < 2 ^ 32 - 1) :
    Draws A s.toScreen (s.eraseLine fuel).toScreen := by
  induction fuel generalizing s with
  | zero => exact Draws.refl _ _
  | succ fuel ih =>
      rw [eraseLine]
      split_ifs with h
      · have hnext := toNat_add_one h hmax
        rw [UInt32.le_iff_toNat_le] at h
        refine Draws.trans (Window.putcharAt_draws fun _ _ => hA _ (Nat.le_refl _) h)
          (ih (s := { s with
            toScreen := s.toWindow.putcharAt s.currX s.currY 0x20 s.toScreen
            currX := s.currX + 1 }) (fun x hx => hA x ?_) hmax)
        change (s.currX + 1).toNat ≤ x at hx
        omega
      · exact Draws.refl _ _

/-- The scroll that was delayed leaves the cursor on a line of the region. -/
lemma madeUp_spec (h : s.Bounded) : s.madeUp.Bounded ∧ s.madeUp.currY ≤ s.madeUp.scrollMaxY ∧
    s.madeUp.corners = s.corners ∧ Draws s.Region s.toScreen s.madeUp.toScreen := by
  rw [madeUp]
  by_cases hc : s.currY > s.scrollMaxY
  · rw [if_pos hc]
    -- the cursor is in its line, or in the first column
    obtain ⟨s₁, hs₁⟩ : ∃ s₁, s₁ = s.scroll (s.currY - s.scrollMaxY) := ⟨_, rfl⟩
    obtain ⟨hdraws, hw⟩ := scroll_spec (s.currY - s.scrollMaxY) h
    rw [← hs₁] at hdraws hw ⊢
    have hcorners : s₁.corners = s.corners := by
      rcases hw with hw | hw
      · rw [hw]
      · rw [hw]
        rfl
    refine ⟨?_, UInt32.le_refl _, hcorners, hdraws⟩
    · rcases hw with hw | hw
      · have hmove := h.move h.currX_ge h.currX_le h.height h.max_le_below
        change Window.Bounded { s₁.toWindow with currY := s₁.toWindow.scrollMaxY }
        rw [hw]
        exact hmove
      · have hmove := h.move (UInt32.le_refl _) h.width h.height h.max_le_below
        change Window.Bounded { s₁.toWindow with currY := s₁.toWindow.scrollMaxY }
        rw [hw]
        exact hmove.locate _
  · rw [if_neg hc]
    exact ⟨h, UInt32.not_lt.mp hc, rfl, Draws.refl _ _⟩

/-- A newline. -/
lemma typed_newline (hlf : c &&& 0xff = 0x0a) : s.typed c =
    { s.eraseLine (s.scrollMaxX.toNat + 1) with currX := s.scrollMinX, currY := s.currY + 1 } := by
  obtain ⟨x, hw⟩ := eraseLine_window (s := s) (s.scrollMaxX.toNat + 1)
  rw [typed, if_pos hlf]
  dsimp only
  rw [hw]

/-- A carriage return. -/
lemma typed_return (hcr : c &&& 0xff = 0x0d) : s.typed c = { s with currX := s.scrollMinX } := by
  rw [typed, if_neg (by rw [hcr]; decide), if_pos hcr]

/-- Another character, in the last column. -/
lemma typed_wrap (hlf : c &&& 0xff ≠ 0x0a) (hcr : c &&& 0xff ≠ 0x0d)
    (hwrap : s.currX + 1 > s.scrollMaxX) : s.typed c =
    { s with
      toScreen := s.toWindow.putcharAt s.currX s.currY c s.toScreen
      currX := s.scrollMinX
      currY := s.currY + 1 } := by
  rw [typed, if_neg hlf, if_neg hcr]
  exact if_pos hwrap

/-- Another character, in a column before. -/
lemma typed_next (hlf : c &&& 0xff ≠ 0x0a) (hcr : c &&& 0xff ≠ 0x0d)
    (hwrap : ¬ s.currX + 1 > s.scrollMaxX) : s.typed c =
    { s with
      toScreen := s.toWindow.putcharAt s.currX s.currY c s.toScreen
      currX := s.currX + 1 } := by
  rw [typed, if_neg hlf, if_neg hcr]
  exact if_neg hwrap

/-- A character on a line of the region. -/
lemma typed_spec (h : s.Bounded) (hy : s.currY ≤ s.scrollMaxY) : (s.typed c).Bounded ∧
    (s.typed c).corners = s.corners ∧ Draws s.Region s.toScreen (s.typed c).toScreen := by
  have hn := h.numbers
  have hright := hn.right
  have hnextY := h.le_below hy
  have hnextY_ge : s.scrollMinY ≤ s.currY + 1 := by
    have hbottom := hn.bottom
    rw [UInt32.le_iff_toNat_le, toNat_add_one hy (by omega)]
    exact Nat.le_succ_of_le hn.currY_ge
  have hcell := Window.putcharAt_draws (w := s.toWindow) (s := s.toScreen) (c := c)
    fun _ _ => region_curr h hn.currX_ge hn.currX_le hy
  by_cases hlf : c &&& 0xff = 0x0a
  · rw [typed_newline hlf]
    obtain ⟨x, hw⟩ := eraseLine_window (s := s) (s.scrollMaxX.toNat + 1)
    have hdraws := eraseLine_draws (s := s) (A := s.Region) (s.scrollMaxX.toNat + 1)
      (fun x hx hx' => ⟨_, _, ⟨Nat.le_trans hn.currX_ge hx, hx'⟩,
        ⟨hn.currY_ge, UInt32.le_iff_toNat_le.mp hy⟩, rfl⟩) (by omega)
    dsimp only
    rw [hw]
    exact ⟨h.move (UInt32.le_refl _) h.width hnextY_ge hnextY, rfl, hdraws⟩
  · by_cases hcr : c &&& 0xff = 0x0d
    · rw [typed_return hcr]
      exact ⟨h.move (UInt32.le_refl _) h.width h.currY_ge h.currY_le, rfl, Draws.refl _ _⟩
    · by_cases hwrap : s.currX + 1 > s.scrollMaxX
      · rw [typed_wrap hlf hcr hwrap]
        exact ⟨h.move (UInt32.le_refl _) h.width hnextY_ge hnextY, rfl, hcell⟩
      · rw [typed_next hlf hcr hwrap]
        have hge : s.scrollMinX ≤ s.currX + 1 := by
          rw [UInt32.le_iff_toNat_le, toNat_add_one h.currX_le (by omega)]
          exact Nat.le_succ_of_le hn.currX_ge
        exact ⟨h.move hge (UInt32.not_lt.mp hwrap) h.currY_ge h.currY_le, rfl, hcell⟩

lemma putchar_spec (h : s.Bounded) : (s.putchar c).Bounded ∧
    (s.putchar c).corners = s.corners ∧ Draws s.Region s.toScreen (s.putchar c).toScreen := by
  obtain ⟨hb, hy, hcorners, hdraws⟩ := madeUp_spec h
  obtain ⟨hb', hcorners', hdraws'⟩ := typed_spec (c := c) hb hy
  rw [putchar_eq]
  refine ⟨hb'.setcursor, hcorners'.trans hcorners, hdraws.trans ?_⟩
  rwa [Window.region_congr hcorners] at hdraws'

lemma puts_spec (str : List UInt8) (h : s.Bounded) :
    (s.puts str).Bounded ∧ (s.puts str).corners = s.corners ∧
    Draws s.Region s.toScreen (s.puts str).toScreen := by
  induction str generalizing s with
  | nil => exact ⟨h, rfl, Draws.refl _ _⟩
  | cons ch str ih =>
      rw [puts]
      split_ifs
      · obtain ⟨hb, hcorners, hdraws⟩ := putchar_spec (c := charToUInt32 ch) h
        obtain ⟨hb', hcorners', hdraws'⟩ := ih hb
        rw [Window.region_congr hcorners] at hdraws'
        exact ⟨hb', hcorners'.trans hcorners, hdraws.trans hdraws'⟩
      · exact ⟨h, rfl, Draws.refl _ _⟩

end Console

/-! ### Calls -/

section Calls

variable {s : Console} {c : ConsoleCall}

/-- The variables after `c_io_init`. -/
def initWindow : Window := Window.setcursor ⟨0, 0, 79, 24, 0, 0, 0, 0, 79, 24, 0⟩

lemma bounded_ioInit (s : Console) : s.ioInit.Bounded := by
  have hinit : s.ioInit.toWindow = initWindow := rfl
  rw [hinit]
  constructor <;> decide

/-- The whole screen is filled. -/
lemma clearscreen_draws (h : s.Bounded) : Draws OnScreen s.toScreen s.clearscreen.toScreen := by
  obtain ⟨hminX, hmaxX⟩ := h.screenX
  obtain ⟨hminY, hmaxY⟩ := h.screenY
  refine fillCells_draws fun i hi => ?_
  rw [hminX, hmaxX, hminY, hmaxY] at hi
  have hi' : i < 2000 := hi
  rw [videoAddr_eq, cellAddr_add, hminX, hminY]
  refine ⟨i % 80, i / 80, ⟨Nat.zero_le _, by omega⟩, ⟨Nat.zero_le _, by omega⟩, ?_⟩
  rw [cellAddr, cellAddr]
  congr 2
  simp only [UInt32.toNat_zero]
  omega

/-- **A call keeps the bounds.** -/
lemma Window.Bounded.call (h : s.Bounded) : (c.run s).Bounded := by
  cases c with
  | setscroll sMinX sMinY sMaxX sMaxY =>
      have hX : s.minX ≤ s.maxX := by
        rw [h.screenX.1]
        exact UInt32.zero_le
      have hY : s.minY ≤ s.maxY := by
        rw [h.screenY.1]
        exact UInt32.zero_le
      obtain ⟨hleft, hleft'⟩ := bound_mem hX sMinX
      obtain ⟨htop, htop'⟩ := bound_mem hY sMinY
      obtain ⟨hwidth, hright⟩ := bound_mem hleft' sMaxX
      obtain ⟨hheight, hbottom⟩ := bound_mem htop' sMaxY
      have hnext : bound s.minY sMinY s.maxY
          ≤ bound (bound s.minY sMinY s.maxY) sMaxY s.maxY + 1 := by
        rw [h.screenY.2, UInt32.le_iff_toNat_le] at hbottom
        have hlt : (24 : UInt32).toNat < 2 ^ 32 - 1 := by decide
        rw [h.screenY.2, UInt32.le_iff_toNat_le,
          toNat_add_one (UInt32.le_refl _) (by omega)]
        rw [h.screenY.2, UInt32.le_iff_toNat_le] at hheight
        exact Nat.le_succ_of_le hheight
      exact Window.Bounded.setcursor ⟨h.screenX, h.screenY, hleft, hwidth, hright, htop, hheight,
        hbottom, UInt32.le_refl _, hwidth, UInt32.le_refl _, hnext⟩
  | moveto x y =>
      obtain ⟨hx, hx'⟩ := bound_mem h.width (x + s.scrollMinX)
      obtain ⟨hy, hy'⟩ := bound_mem h.height (y + s.scrollMinY)
      exact (h.move hx hx' hy (UInt32.le_trans hy' h.max_le_below)).setcursor
  | putchar c => exact (Console.putchar_spec h).1
  | puts str => exact (Console.puts_spec str h).1
  | scroll lines =>
      change (s.scroll lines).Bounded
      rcases (Console.scroll_spec lines h).2 with hw | hw
      · rwa [hw]
      · rw [hw]
        exact h.home.setcursor
  | clearscroll => exact h
  | putcharAt x y c =>
      change (s.putcharAt x y c).Bounded
      rwa [Console.putcharAt_window]
  | putsAt x y str =>
      change (s.putsAt x y str).Bounded
      rwa [(Console.putsAt_spec x y str h).2]
  | clearscreen => exact h

/-- A call draws where it may. -/
lemma ConsoleCall.safe (h : s.Bounded) : c.Safe s := by
  have hregion {s' : Screen} (hdraws : Draws s.Region s.toScreen s') :
      Draws OnScreen s.toScreen s' := hdraws.mono fun _ => h.onScreen
  cases c with
  | setscroll sMinX sMinY sMaxX sMaxY => exact ⟨Draws.refl _ _, False.elim, False.elim⟩
  | moveto x y => exact ⟨Draws.refl _ _, False.elim, False.elim⟩
  | putchar c =>
      have hdraws := (Console.putchar_spec (c := c) h).2.2
      exact ⟨hregion hdraws, fun _ => hdraws, False.elim⟩
  | puts str =>
      have hdraws := (Console.puts_spec str h).2.2
      exact ⟨hregion hdraws, fun _ => hdraws, False.elim⟩
  | scroll lines =>
      have hdraws := (Console.scroll_spec lines h).1
      exact ⟨hregion hdraws, fun _ => hdraws, False.elim⟩
  | clearscroll =>
      have hdraws := Console.clearscroll_draws h.inScreen
      exact ⟨hregion hdraws, fun _ => hdraws, False.elim⟩
  | putcharAt x y c =>
      exact ⟨Console.putcharAt_draws h, False.elim, fun _ => Console.putcharAt_window⟩
  | putsAt x y str =>
      have hspec := Console.putsAt_spec x y str h
      exact ⟨hspec.1, False.elim, fun _ => hspec.2⟩
  | clearscreen => exact ⟨clearscreen_draws h, False.elim, False.elim⟩

end Calls

/-- The state after `c_io_init` and a sequence of calls. -/
def consoleRun (s : Console) (calls : List ConsoleCall) : Console :=
  calls.foldl ConsoleCall.run s.ioInit

/-- **The console stays within its bounds**, after any calls and in the next one. -/
theorem console_bounded (s : Console) (calls : List ConsoleCall) (c : ConsoleCall) :
    (consoleRun s calls).Bounded ∧ c.Safe (consoleRun s calls) := by
  have hbounded : (consoleRun s calls).Bounded := by
    refine List.foldlRecOn calls ConsoleCall.run (motive := fun s => s.Bounded)
      (bounded_ioInit s) ?_
    exact fun s h c _ => h.call
  exact ⟨hbounded, ConsoleCall.safe hbounded⟩

end Sp2
