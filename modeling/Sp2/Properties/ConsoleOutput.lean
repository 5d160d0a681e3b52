import Sp2.Properties.ConsoleTerminal
import Sp2.Properties.FormatOutput

/-!
The console as a whole: every sequence of calls of the output routines, `c_printf` with them.

* `OutputCall`: the calls; `Does`: what a call does to the terminal in the scroll region.
* `printf_drawn`: the console after `c_printf`, by the characters passed to `c_putchar`.
* `Shows.moveto`, `Shows.scroll`, ...: the routines that are not output of characters.
* `SameBeside`: the screen beside the scroll region.
* `output_shows`: **the region shows the terminal, and the rest of the screen what has been put
  there**, whatever is called in between.
-/

namespace Sp2

open Terminal Address

/-! ### The statement -/

/-- A call of an output routine, with the memory that it reads. -/
inductive OutputCall
  | putchar (c : UInt32)
  | puts (mem : Memory) (str : UInt32)
  | printf (mem : Memory) (args : ℕ → UInt32) (fmt : UInt32) (buf : Memory)
  | moveto (x y : UInt32)
  | scroll (lines : UInt32)
  | clearscroll
  | putcharAt (x y c : UInt32)
  | putsAt (x y : UInt32) (mem : Memory) (str : UInt32)
  | clearscreen

namespace OutputCall

/-- What the call does, if the loops that read memory come to an end. -/
def run (s : Console) : OutputCall → Option Console
  | putchar c => some (s.putchar c)
  | puts mem str => (stringAt mem memorySize str).map fun str => Console.puts str s
  | printf mem args fmt buf => (Sp2.printf mem args fmt buf s).map fun r => r.toConsole
  | moveto x y => some (s.moveto x y)
  | scroll lines => some (s.scroll lines)
  | clearscroll => some s.clearscroll
  | putcharAt x y c => some (s.putcharAt x y c)
  | putsAt x y mem str => (stringAt mem memorySize str).map fun str => s.putsAt x y str
  | clearscreen => some s.clearscreen

/-- The routines that draw beside the scroll region. -/
def drawsBeside : OutputCall → Bool
  | putcharAt .. | putsAt .. | clearscreen => true
  | _ => false

end OutputCall

/-- A line above or below the scroll region. -/
def Window.LineBeside (w : Window) (y : UInt32) : Prop := y < w.scrollMinY ∨ w.scrollMaxY < y

/-- The keys of a text. -/
def textKeys (t : List UInt8) : List (Op UInt16) :=
  t.map fun ch => .key (Console.key (Console.charToUInt32 ch))

/-- What a call does to the terminal: output at a place beside the region does nothing to it. -/
inductive Does (w : Window) : OutputCall → List (Op UInt16) → Prop
  | putchar {c : UInt32} : Does w (.putchar c) [.key (Console.key c)]
  | puts {mem : Memory} {str : UInt32} {t : List UInt8} (hstr : StringAt mem str t) :
      Does w (.puts mem str) (textKeys t)
  | printf {mem : Memory} {args : ℕ → UInt32} {fmt : UInt32} {buf : Memory}
      {items : List FormatItem} {out : List UInt8}
      (hfmt : StringAt mem fmt (items.flatMap FormatItem.bytes))
      (hformats : Formats mem args 0 items out) (hfits : LengthsFit mem args 0 items) :
      Does w (.printf mem args fmt buf) (textKeys out)
  | moveto {x y : UInt32} :
      Does w (.moveto x y) [.move ((x + w.scrollMinX).toNat - w.scrollMinX.toNat)
        ((y + w.scrollMinY).toNat - w.scrollMinY.toNat)]
  | scroll {lines : UInt32} : Does w (.scroll lines) [.scroll lines.toNat]
  | clearscroll : Does w .clearscroll [.clear]
  | putcharAt {x y c : UInt32} (hbeside : w.LineBeside y) : Does w (.putcharAt x y c) []
  | putsAt {x y : UInt32} {mem : Memory} {str : UInt32} {t : List UInt8}
      (hstr : StringAt mem str t) (hbeside : w.LineBeside y) : Does w (.putsAt x y mem str) []
  | clearscreen : Does w .clearscreen [.clear]

/-! ### What `c_printf` draws -/

section Drawn

variable {s : Console} {p : Printer} {q r : Scan} {mem : Memory} {args : ℕ → UInt32}
  {t : List UInt8} {len width : Int32} {left : Bool} {padchar : UInt32} {o : Options} {n : ℕ}

/-- The console is what the characters that have been passed to `c_putchar` make of it. -/
def Printer.Drawn (s : Console) (p : Printer) : Prop :=
  p.toConsole = p.passed.foldl (fun s c => s.putchar c) s

lemma Printer.Drawn.putchar (h : p.Drawn s) (c : UInt32) : (p.putchar c).Drawn s := by
  rw [Printer.Drawn, Printer.putchar, List.foldl_append, ← h]
  rfl

lemma Printer.Drawn.puts (h : p.Drawn s) (t : List UInt8) : (p.puts t).Drawn s := by
  induction t generalizing p with
  | nil => exact h
  | cons ch t ih =>
      rw [Printer.puts]
      split_ifs
      · exact ih (h.putchar _)
      · exact h

lemma Printer.Drawn.pad (h : p.Drawn s) (n : ℕ) : (p.pad (-1) padchar n (-1)).2.Drawn s := by
  induction n generalizing p with
  | zero => exact h
  | succ n ih =>
      rw [Printer.pad, if_neg (by simp)]
      exact ih (h.putchar padchar)

/-- Fill characters, if there are any. -/
lemma Printer.Drawn.fill (h : p.Drawn s) (padchar : UInt32) (n : ℕ) (c : Prop) [Decidable c] :
    (if c then p.pad (-1) padchar n (-1) else (-1, p)).1 = -1
      ∧ (if c then p.pad (-1) padchar n (-1) else (-1, p)).2.Drawn s := by
  split_ifs
  · exact ⟨(pad_passed padchar n p).1, h.pad n⟩
  · exact ⟨rfl, h⟩

/-- Text in a field is printed at the cursor. -/
lemma Printer.Drawn.padstr (h : p.Drawn s) (t : List UInt8) (len width : Int32) (left : Bool)
    (padchar : UInt32) : (p.padstr (-1) (-1) t len width left padchar).1 = -1
      ∧ (p.padstr (-1) (-1) t len width left padchar).2.Drawn s := by
  set extra := width - if len < 0 then (Printer.strlen t).toInt32 else len with hextra
  obtain ⟨hx, hdrawn⟩ := h.fill padchar extra.toInt.toNat (extra > 0 ∧ left = false)
  have hat : ¬ ((-1 : Int32) ≠ -1 ∨ (-1 : Int32) ≠ -1) := by simp
  rw [Printer.padstr]
  simp only [← hextra, hx, if_neg hat]
  exact (hdrawn.puts t).fill _ _ _

/-- The loop prints at the cursor, and the console is what it has printed. -/
structure Scan.Printing (s : Console) (p : Scan) : Prop where
  atCursor : p.AtCursor
  drawn : p.toPrinter.Drawn s

lemma Scan.Printing.widthLoop (h : q.Printing s) {fuel : ℕ} {ch : UInt8} {w : Int32}
    {r : UInt8 × Int32 × Scan} (hr : Scan.widthLoop mem fuel ch w q = some r) :
    r.2.2.Printing s := by
  induction fuel generalizing ch w q with
  | zero => exact absurd hr (by simp [Scan.widthLoop])
  | succ fuel ih =>
      rw [Scan.widthLoop] at hr
      split_ifs at hr
      · exact ih (q := (q.fetch mem).2) ⟨h.atCursor, h.drawn⟩ hr
      · obtain rfl := Option.some.inj hr
        exact h

/-- A flag is read. -/
lemma Scan.Printing.flag (h : q.Printing s) (c : Prop) [Decidable c] (ch : UInt8) :
    (if c then q.fetch mem else (ch, q)).2.Printing s := by
  split_ifs
  · exact ⟨h.atCursor, h.drawn⟩
  · exact h

lemma Scan.Printing.options (h : q.Printing s) {u : Options × Scan}
    (hu : q.options mem = some u) : u.2.Printing s := by
  obtain ⟨w, hw, rfl⟩ := Option.map_eq_some_iff.mp hu
  have hfirst : (q.fetch mem).2.Printing s := ⟨h.atCursor, h.drawn⟩
  exact (((hfirst.flag _ _).flag _ _).widthLoop hw)

lemma Scan.Printing.padstr (h : q.Printing s) (o : Options) (t : List UInt8) (len : Int32) :
    (q.padstr o t len).Printing s := by
  obtain ⟨hx, hdrawn⟩ := h.drawn.padstr t len o.width o.leftadjust o.padchar
  rw [Scan.padstr, h.atCursor.1, h.atCursor.2]
  exact ⟨⟨hx, rfl⟩, hdrawn⟩

lemma Scan.Printing.padbuf (h : q.Printing s) {u : Int32 × Memory}
    (hr : q.padbuf o u = some r) : r.Printing s := by
  obtain ⟨t, -, rfl⟩ := Option.map_eq_some_iff.mp hr
  exact padstr (q := { q with buf := u.2, ap := q.ap + 1 }) ⟨h.atCursor, h.drawn⟩ o t u.1

lemma Scan.Printing.convert (h : q.Printing s) (hr : q.convert mem args o = some r) :
    r.Printing s := by
  rw [Scan.convert] at hr
  split_ifs at hr
  · exact h.padbuf hr
  · exact h.padbuf hr
  · obtain ⟨t, -, rfl⟩ := Option.map_eq_some_iff.mp hr
    exact padstr (q := { q with ap := q.ap + 1 }) ⟨h.atCursor, h.drawn⟩ o t (-1)
  · exact h.padbuf hr
  · exact h.padbuf hr
  · exact Option.some.inj hr ▸ h

lemma Scan.Printing.plain (h : q.Printing s) (ch : UInt8) : (q.plain ch).Printing s := by
  have hat : ¬ (q.x ≠ -1 ∨ q.y ≠ -1) := by simp [h.atCursor.1, h.atCursor.2]
  rw [Scan.plain]
  dsimp only
  rw [if_neg hat]
  exact ⟨h.atCursor, h.drawn.putchar _⟩

/-- **The loop draws what it passes to `c_putchar`**, whatever the format. -/
lemma Scan.Printing.run (h : q.Printing s) {fuel : ℕ} (hr : Scan.run mem args fuel q = some r) :
    r.Printing s := by
  induction fuel generalizing q with
  | zero => exact absurd hr (by simp [Scan.run])
  | succ fuel ih =>
      have hfetch : (q.fetch mem).2.Printing s := ⟨h.atCursor, h.drawn⟩
      rw [Scan.run] at hr
      split_ifs at hr
      · exact Option.some.inj hr ▸ hfetch
      · obtain ⟨q', hq', hr⟩ := Option.bind_eq_some_iff.mp hr
        obtain ⟨u, hu, hq'⟩ := Option.bind_eq_some_iff.mp hq'
        exact ih ((hfetch.options hu).convert hq') hr
      · exact ih (hfetch.plain _) hr

/-- A format whose strings are not too long is printed. -/
lemma printf_text {fmt : UInt32} {items : List FormatItem} {out : List UInt8}
    (hfmt : StringAt mem fmt (items.flatMap FormatItem.bytes))
    (hformats : Formats mem args 0 items out) (hfits : LengthsFit mem args 0 items)
    (buf : Memory) (s : Console) :
    ∃ r, printf mem args fmt buf s = some r ∧ r.passed = out.map Console.charToUInt32 := by
  obtain ⟨r, out', hrun, hpassed, -, hout, -⟩ := run_formats
    (p := ⟨⟨s, []⟩, fmt, 0, -1, -1, buf, []⟩) hformats ⟨rfl, rfl⟩ rfl hfmt.2 hfmt.length_lt
    hfmt.length_lt
  exact ⟨r, hrun, hout hfits ▸ hpassed⟩

/-- **The console after `c_printf`**, by the characters that have been passed to `c_putchar`. -/
lemma printf_drawn {fmt : UInt32} {buf : Memory} (hr : printf mem args fmt buf s = some r) :
    r.toConsole = r.passed.foldl (fun s c => s.putchar c) s :=
  have hstart : Scan.Printing s ⟨⟨s, []⟩, fmt, 0, -1, -1, buf, []⟩ := ⟨⟨rfl, rfl⟩, rfl⟩
  (hstart.run hr).drawn

end Drawn

/-! ### The other routines -/

section Routines

variable {l v h : UInt32}

/-- A value that is confined, by its distance from the lower bound. -/
lemma toNat_bound (hle : l ≤ h) (v : UInt32) :
    (bound l v h).toNat = l.toNat + min (v.toNat - l.toNat) (h.toNat - l.toNat) := by
  simp only [UInt32.le_iff_toNat_le, bound, gt_iff_lt, UInt32.lt_iff_toNat_lt] at *
  split_ifs <;> omega

end Routines

namespace Console

section Routines

variable {s s' : Console} {t : Term UInt16} {i j : ℕ} {A : UInt32 → Prop} {lines : UInt32}

/-- After `c_setscroll` the region shows what is on the screen there. -/
lemma shows_setscroll (hs : s.Bounded) (sMinX sMinY sMaxX sMaxY : UInt32) :
    let s' := s.setscroll sMinX sMinY sMaxX sMaxY
    s'.Shows (Term.page s'.height blankCell s'.regionCell) := by
  intro s'
  have hb : s'.Bounded := hs.call (c := .setscroll sMinX sMinY sMaxX sMaxY)
  refine ⟨hb, Term.valid_page _ (Nat.succ_pos _), fun i j hi _ => ?_, rfl, rfl⟩
  simp only [Term.page, Nat.zero_add, if_pos hi]

lemma Shows.moveto (h : s.Shows t) (x y : UInt32) :
    (s.moveto x y).Shows (t.move s.width s.height
      ((x + s.scrollMinX).toNat - s.scrollMinX.toNat)
      ((y + s.scrollMinY).toNat - s.scrollMinY.toNat)) := by
  refine ⟨h.bounded.call (c := .moveto x y), h.valid.move (Nat.succ_pos _) _ _, h.cells, ?_, ?_⟩
  · exact toNat_bound h.bounded.width _
  · have hrow := toNat_bound h.bounded.height (y + s.scrollMinY)
    change (bound s.scrollMinY (y + s.scrollMinY) s.scrollMaxY).toNat + t.top = _
    rw [hrow, Nat.add_assoc, Nat.add_comm _ t.top]
    rfl

/-- A cell of the region after `c_scroll`. -/
lemma regionCell_scroll (h : s.Bounded) (hi : i < s.height) (hj : j < s.width) :
    (s.scroll lines).video (cellAddr (s.scrollMinX.toNat + j) (s.scrollMinY.toNat + i))
      = if i + lines.toNat < s.height then s.regionCell (i + lines.toNat) j else blankCell := by
  have hH : s.height = s.scrollMaxY.toNat - s.scrollMinY.toNat + 1 := rfl
  have hheight := h.numbers.height
  have hcell := h.inScreen.line rfl hj (Nat.le_add_right s.scrollMinY.toNat i) (by omega)
  have hview : s.scrollMinY.toNat + i + lines.toNat ≤ s.scrollMaxY.toNat
      ↔ i + lines.toNat < s.height := by omega
  rw [scroll_cells h.inScreen hcell, regionCell, ← Nat.add_assoc]
  exact if_congr hview rfl rfl

/-- **`c_scroll` moves the window down.** -/
lemma Shows.scroll (h : s.Shows t) (lines : UInt32) :
    (s.scroll lines).corners = s.corners
      ∧ (s.scroll lines).Shows (t.scroll s.height lines.toNat) := by
  have hcorners : (s.scroll lines).corners = s.corners := by
    rcases (scroll_spec lines h.bounded).2 with hw | hw
    · rw [hw]
    · rw [hw]
      rfl
  obtain ⟨hwidth, hheight⟩ := size_congr hcorners
  have hH : s.height = s.scrollMaxY.toNat - s.scrollMinY.toNat + 1 := rfl
  have hb : (s.scroll lines).Bounded := h.bounded.call (c := .scroll lines)
  have hvalid := h.valid.scroll lines.toNat
  have hcells : ∀ i j, i < (s.scroll lines).height → j < (s.scroll lines).width →
      (s.scroll lines).regionCell i j
        = if i + lines.toNat < s.height then t.rows (t.top + (i + lines.toNat)) j
          else blankCell := by
    intro i j hi hj
    rw [hheight] at hi
    rw [hwidth] at hj
    simp only [Window.corners, Prod.mk.injEq] at hcorners
    rw [regionCell, hcorners.1.1, hcorners.1.2, regionCell_scroll h.bounded hi hj]
    split_ifs with hview
    · exact h.cells _ _ hview hj
    · rfl
  refine ⟨hcorners, ?_⟩
  by_cases hview : lines.toNat < s.height
  · have hnot : ¬ lines > s.scrollMaxY - s.scrollMinY := by
      rw [gt_iff_lt, UInt32.lt_iff_toNat_lt, UInt32.toNat_sub_of_le _ _ h.bounded.height]
      omega
    have hwindow : (s.scroll lines).toWindow = s.toWindow := by
      rw [Console.scroll, if_neg hnot]
    rw [Term.scroll, if_pos hview] at hvalid ⊢
    refine ⟨hb, by rwa [hwidth, hheight], fun i j hi hj => ?_, ?_, ?_⟩
    · rw [hcells i j hi hj]
      dsimp only
      split_ifs with hi'
      · congr 1
        omega
      · exact (h.valid.below _ _ (by omega)).symm
    · rw [hwindow]
      exact h.col
    · rw [hwindow]
      have hrow := h.row
      dsimp only
      omega
  · have hgone : s.scrollMaxY.toNat - s.scrollMinY.toNat < lines.toNat := by omega
    obtain ⟨hx, hy⟩ := scroll_home h.bounded.inScreen hgone
    simp only [Window.corners, Prod.mk.injEq] at hcorners
    rw [Term.scroll, if_neg hview] at hvalid ⊢
    refine ⟨hb, by rwa [hwidth, hheight], fun i j hi hj => ?_, ?_, ?_⟩
    · rw [hcells i j hi hj, if_neg (by omega)]
      exact (h.valid.below _ _ (by dsimp only; omega)).symm
    · rw [hx, hcorners.1.1]
      rfl
    · rw [hy, hcorners.1.2]

/-- The rows in the window are blank if the cells of the region are. -/
lemma Shows.cleared (h : s.Shows t) (hwindow : s'.toWindow = s.toWindow)
    (hcells : ∀ i j, i < s.height → j < s.width → s'.regionCell i j = blankCell) :
    s'.Shows (t.clear blankCell) := by
  have hcorners : s'.corners = s.corners := by rw [hwindow]
  obtain ⟨hwidth, hheight⟩ := size_congr hcorners
  refine ⟨hwindow ▸ h.bounded, ?_, fun i j hi hj => ?_, ?_, ?_⟩
  · rw [hwidth, hheight]
    exact h.valid.clear
  · rw [hcells i j (hheight ▸ hi) (hwidth ▸ hj), Term.clear]
    exact (if_neg (Nat.not_lt.mpr (Nat.le_add_right _ _))).symm
  · rw [hwindow]
    exact h.col
  · rw [hwindow]
    exact h.row

lemma Shows.clearscroll (h : s.Shows t) : s.clearscroll.Shows (t.clear blankCell) := by
  refine h.cleared rfl fun i j hi hj => ?_
  have hheight := h.bounded.numbers.height
  have hH : s.height = s.scrollMaxY.toNat - s.scrollMinY.toNat + 1 := rfl
  have hcell := h.bounded.inScreen.line rfl hj (Nat.le_add_right s.scrollMinY.toNat i) (by omega)
  exact clearscroll_cells h.bounded.inScreen hcell

/-- The cells of the screen after `c_clearscreen`. -/
lemma clearscreen_cells (h : s.Bounded) {x y : ℕ} (hx : x < 80) (hy : y < 25) :
    s.clearscreen.video (cellAddr x y) = blankCell := by
  have hcount : ((s.maxY - s.minY + 1) * (s.maxX - s.minX + 1)).toNat = 2000 := by
    rw [h.screenX.1, h.screenX.2, h.screenY.1, h.screenY.2]
    rfl
  have hcell : cellAddr x y = videoAddr s.minX s.minY + UInt32.ofNat (2 * (y * 80 + x)) := by
    rw [h.screenX.1, h.screenY.1]
    rfl
  have hfill : ∀ n, y * 80 + x < n → n ≤ 2000 →
      (fillCells (videoAddr s.minX s.minY) n s.toScreen).video (cellAddr x y) = blankCell := by
    intro n hlt hle
    rw [hcell]
    exact fillCells_apply (by omega) hlt
  exact hfill _ (by omega) hcount.le

lemma Shows.clearscreen (h : s.Shows t) : s.clearscreen.Shows (t.clear blankCell) := by
  refine h.cleared rfl fun i j hi hj => ?_
  have hn := h.bounded.numbers
  have hright := hn.right
  have hbottom := hn.bottom
  have hwidth := hn.width
  have hheight := hn.height
  have hW : s.width = s.scrollMaxX.toNat - s.scrollMinX.toNat + 1 := rfl
  have hH : s.height = s.scrollMaxY.toNat - s.scrollMinY.toNat + 1 := rfl
  exact clearscreen_cells h.bounded (by change s.scrollMinX.toNat + j < 80; omega)
    (by change s.scrollMinY.toNat + i < 25; omega)

/-- A cell of the region is not on a line beside it. -/
lemma not_region_beside (h : s.Bounded) {y : UInt32} (hy : s.LineBeside y) (hy' : y ≤ s.maxY)
    {x : ℕ} (hx : x < 80) : ¬ s.Region (cellAddr x y.toNat) := by
  have hn := h.numbers
  have hright := hn.right
  have hbottom := hn.bottom
  have hmaxY := hn.maxY
  rw [UInt32.le_iff_toNat_le] at hy'
  rintro ⟨x', y', ⟨-, hx'⟩, ⟨hge, hle⟩, heq⟩
  have := cellAddr_inj hx (by omega) (by omega) (by omega) heq
  simp only [Window.LineBeside, UInt32.lt_iff_toNat_lt] at hy
  omega

/-- Output at a place beside the region. -/
lemma putcharAt_beside (h : s.Bounded) {x y c : UInt32} (hy : s.LineBeside y) :
    Draws (fun a => ¬ s.Region a) s.toScreen (s.putcharAt x y c).toScreen := by
  have hmaxX := h.numbers.maxX
  have hbeside : ∀ x, x ≤ s.maxX → y ≤ s.maxY → ¬ s.Region (cellAddr x.toNat y.toNat) := by
    intro x hx hy'
    rw [UInt32.le_iff_toNat_le] at hx
    exact not_region_beside h hy hy' (by omega)
  rw [putcharAt]
  by_cases hc : c &&& 0x7f = 0x0a
  · rw [if_pos hc]
    exact Window.blanksAt_draws hbeside
  · rw [if_neg hc]
    exact Window.putcharAt_draws (hbeside x)

lemma putsAt_beside (h : s.Bounded) {y : UInt32} (hy : s.LineBeside y) (str : List UInt8)
    (x : UInt32) : Draws (fun a => ¬ s.Region a) s.toScreen (s.putsAt x y str).toScreen := by
  induction str generalizing s x with
  | nil => exact Draws.refl _ _
  | cons ch str ih =>
      rw [putsAt]
      split_ifs
      · have hwindow := putcharAt_window (s := s) (x := x) (y := y) (c := charToUInt32 ch)
        have hnext := ih (s := s.putcharAt x y (charToUInt32 ch)) (hwindow ▸ h) (hwindow ▸ hy)
          (x + 1)
        rw [hwindow] at hnext
        exact (putcharAt_beside h hy).trans hnext
      · exact Draws.refl _ _

/-- What is drawn beside the region has no part in what it shows. -/
lemma Shows.beside (h : s.Shows t) (hwindow : s'.toWindow = s.toWindow)
    (hdraws : Draws (fun a => ¬ s.Region a) s.toScreen s'.toScreen) : s'.Shows t := by
  have hcorners : s'.corners = s.corners := by rw [hwindow]
  obtain ⟨hwidth, hheight⟩ := size_congr hcorners
  have hH : s.height = s.scrollMaxY.toNat - s.scrollMinY.toNat + 1 := rfl
  have hn := h.bounded.numbers.height
  refine ⟨hwindow ▸ h.bounded, by rw [hwidth, hheight]; exact h.valid, fun i j hi hj => ?_, ?_, ?_⟩
  · rw [hheight] at hi
    rw [hwidth] at hj
    have hcell := (h.bounded.inScreen.line rfl hj (Nat.le_add_right s.scrollMinY.toNat i)
      (by omega)).cell
    rw [regionCell, hwindow, hdraws.video _ (not_not.mpr hcell)]
    exact h.cells i j hi hj
  · rw [hwindow]
    exact h.col
  · rw [hwindow]
    exact h.row

end Routines

end Console

/-! ### The screen beside the region -/

section Beside

variable {w w' : Window} {s s' s₀ s₀' : Screen} {A : UInt32 → Prop} {x y c limit dst : UInt32}
  {v : UInt16} {fuel n : ℕ}

/-- The screens have the same in the cells of `A`. -/
def SameAt (A : UInt32 → Prop) (s s' : Screen) : Prop := ∀ a, A a → s.video a = s'.video a

lemma SameAt.store (h : SameAt A s s') (dst : UInt32) (v : UInt16) :
    SameAt A (s.store dst v) (s'.store dst v) := by
  intro a ha
  simp only [Screen.store, Function.update_apply]
  split_ifs
  · rfl
  · exact h a ha

/-- Drawing elsewhere. -/
lemma SameAt.draws (h : SameAt A s s₀) (hdraws : Draws (fun a => ¬ A a) s s') :
    SameAt A s' s₀ :=
  fun a ha => (hdraws.video a (not_not.mpr ha)).trans (h a ha)

lemma SameAt.fillCells (h : SameAt A s s') : SameAt A (fillCells dst n s) (fillCells dst n s') := by
  induction n generalizing dst s s' with
  | zero => exact h
  | succ n ih => exact ih (h.store dst blankCell)

lemma SameAt.putcharAt (h : SameAt A s s') (hmax : w.maxX = w'.maxX ∧ w.maxY = w'.maxY) :
    SameAt A (w.putcharAt x y c s) (w'.putcharAt x y c s') := by
  rw [Window.putcharAt, Window.putcharAt, hmax.1, hmax.2]
  split_ifs
  · exact h.store _ _
  · exact h.store _ _
  · exact h

lemma SameAt.blanksAt (h : SameAt A s s') (hmax : w.maxX = w'.maxX ∧ w.maxY = w'.maxY) :
    SameAt A (w.blanksAt y limit fuel x s) (w'.blanksAt y limit fuel x s') := by
  induction fuel generalizing x s s' with
  | zero => exact h
  | succ fuel ih =>
      rw [Window.blanksAt, Window.blanksAt]
      split_ifs
      · exact ih (h.putcharAt hmax)
      · exact h

end Beside

namespace Console

section Beside

variable {s s' s₀ : Console} {x y c : UInt32}

/-- The screens have the same beside the scroll region. -/
structure SameBeside (s s₀ : Console) : Prop where
  corners : s₀.corners = s.corners
  bounded : s₀.Bounded
  cells : SameAt (fun a => ¬ s.Region a) s.toScreen s₀.toScreen

/-- Drawing in the region. -/
lemma SameBeside.region (h : s.SameBeside s₀) (hcorners : s'.corners = s.corners)
    (hdraws : Draws s.Region s.toScreen s'.toScreen) : s'.SameBeside s₀ := by
  refine ⟨h.corners.trans hcorners.symm, h.bounded, ?_⟩
  rw [Window.region_congr hcorners]
  exact h.cells.draws (hdraws.mono fun _ => not_not.mpr)

lemma SameBeside.max_eq (h : s.SameBeside s₀) (hs : s.Bounded) :
    s.maxX = s₀.maxX ∧ s.maxY = s₀.maxY :=
  ⟨hs.screenX.2.trans h.bounded.screenX.2.symm, hs.screenY.2.trans h.bounded.screenY.2.symm⟩

lemma SameBeside.putcharAt (h : s.SameBeside s₀) (hs : s.Bounded) (x y c : UInt32) :
    (s.putcharAt x y c).SameBeside (s₀.putcharAt x y c) := by
  have hwindow := putcharAt_window (s := s) (x := x) (y := y) (c := c)
  have hwindow₀ := putcharAt_window (s := s₀) (x := x) (y := y) (c := c)
  have hmax := h.max_eq hs
  have hcorners := h.corners
  simp only [Window.corners, Prod.mk.injEq] at hcorners
  refine ⟨by rw [hwindow, hwindow₀, h.corners], hwindow₀ ▸ h.bounded, ?_⟩
  rw [hwindow, Console.putcharAt, Console.putcharAt, hcorners.1.1, hcorners.2.1, ← hmax.1]
  split_ifs <;> first
    | exact h.cells.blanksAt hmax
    | exact h.cells.putcharAt hmax

lemma SameBeside.putsAt (h : s.SameBeside s₀) (hs : s.Bounded) (x y : UInt32) (str : List UInt8) :
    (s.putsAt x y str).SameBeside (s₀.putsAt x y str) := by
  induction str generalizing s s₀ x with
  | nil => exact h
  | cons ch str ih =>
      rw [Console.putsAt, Console.putsAt, (h.max_eq hs).1]
      split_ifs
      · refine ih (h.putcharAt hs x y _) ?_ (x + 1)
        rw [putcharAt_window]
        exact hs
      · exact h

lemma SameBeside.clearscreen (h : s.SameBeside s₀) (hs : s.Bounded) :
    s.clearscreen.SameBeside s₀.clearscreen := by
  obtain ⟨hmaxX, hmaxY⟩ := h.max_eq hs
  have hminX : s.minX = s₀.minX := hs.screenX.1.trans h.bounded.screenX.1.symm
  have hminY : s.minY = s₀.minY := hs.screenY.1.trans h.bounded.screenY.1.symm
  refine ⟨h.corners, h.bounded, ?_⟩
  rw [Console.clearscreen, Console.clearscreen, ← hmaxX, ← hmaxY, ← hminX, ← hminY]
  exact h.cells.fillCells

end Beside

end Console

/-! ### Calls -/

section Calls

variable {s s₀ : Console} {t : Term UInt16} {w : Window} {call : OutputCall}
  {ops : List (Op UInt16)} {cs : List UInt32} {bs : List UInt8}

lemma foldl_putchar_draws (h : s.Bounded) :
    Draws s.Region s.toScreen (cs.foldl (fun s c => s.putchar c) s).toScreen := by
  induction cs generalizing s with
  | nil => exact Draws.refl _ _
  | cons c cs ih =>
      obtain ⟨hb, hcorners, hdraws⟩ := Console.putchar_spec (c := c) h
      have hnext := ih hb
      rw [Window.region_congr hcorners] at hnext
      exact hdraws.trans hnext

lemma puts_eq (hbs : ∀ b ∈ bs, b ≠ 0) :
    s.puts bs = (bs.map Console.charToUInt32).foldl (fun s c => s.putchar c) s := by
  induction bs generalizing s with
  | nil => rfl
  | cons ch bs ih =>
      rw [Console.puts, if_pos (hbs ch List.mem_cons_self)]
      exact ih fun b hb => hbs b (List.mem_cons_of_mem ch hb)

/-- What a call has done: the region shows the terminal after the operations, and the rest of the
screen is as it was, or as the call has made it. -/
structure OutputCall.Done (s s₀ : Console) (t : Term UInt16) (call : OutputCall)
    (ops : List (Op UInt16)) (s' : Console) : Prop where
  ran : call.run s = some s'
  corners : s'.corners = s.corners
  shows : s'.Shows (ops.foldl (Term.operate s.width s.height blankCell) t)
  kept : call.drawsBeside = false → s'.SameBeside s₀
  drawn : call.drawsBeside = true → ∃ s₀', call.run s₀ = some s₀' ∧ s'.SameBeside s₀'

/-- A call that draws in the region only. -/
lemma OutputCall.Done.of_region {s' : Console} (hbeside : s.SameBeside s₀)
    (hran : call.run s = some s') (hcall : call.drawsBeside = false)
    (hcorners : s'.corners = s.corners) (hdraws : Draws s.Region s.toScreen s'.toScreen)
    (hshows : s'.Shows (ops.foldl (Term.operate s.width s.height blankCell) t)) :
    call.Done s s₀ t ops s' :=
  ⟨hran, hcorners, hshows, fun _ => hbeside.region hcorners hdraws,
    fun h => absurd h (by rw [hcall]; decide)⟩

/-- A call that draws beside the region. -/
lemma OutputCall.Done.of_beside {s' s₀' : Console} (hran : call.run s = some s')
    (hran₀ : call.run s₀ = some s₀') (hcall : call.drawsBeside = true)
    (hwindow : s'.toWindow = s.toWindow) (hbeside : s'.SameBeside s₀')
    (hshows : s'.Shows (ops.foldl (Term.operate s.width s.height blankCell) t)) :
    call.Done s s₀ t ops s' :=
  ⟨hran, by rw [hwindow], hshows, fun h => absurd h (by rw [hcall]; decide),
    fun _ => ⟨s₀', hran₀, hbeside⟩⟩

/-- A text is output. -/
lemma OutputCall.Done.text (h : s.Shows t) (hbeside : s.SameBeside s₀)
    (hcall : call.drawsBeside = false)
    (hran : call.run s
      = some ((bs.map Console.charToUInt32).foldl (fun s c => s.putchar c) s)) :
    call.Done s s₀ t (textKeys bs)
      ((bs.map Console.charToUInt32).foldl (fun s c => s.putchar c) s) := by
  obtain ⟨hcorners, hshows⟩ := h.run (bs.map Console.charToUInt32)
  have hkeys : (textKeys bs).foldl (Term.operate s.width s.height blankCell) t
      = ((bs.map Console.charToUInt32).map Console.key).foldl
        (Term.output s.width s.height blankCell) t := by
    rw [textKeys, List.foldl_map, List.foldl_map, List.foldl_map]
    rfl
  exact .of_region hbeside hran hcall hcorners (foldl_putchar_draws h.bounded) (hkeys ▸ hshows)

/-- **What one call does**, by cases on the routine. -/
lemma Does.done (hdoes : Does w call ops) (hw : s.corners = w.corners) (h : s.Shows t)
    (hbeside : s.SameBeside s₀) : ∃ s', call.Done s s₀ t ops s' := by
  have hlines := hw
  simp only [Window.corners, Prod.mk.injEq] at hlines
  cases hdoes with
  | @putchar c =>
      obtain ⟨-, hcorners, hdraws⟩ := Console.putchar_spec (c := c) h.bounded
      exact ⟨_, .of_region hbeside rfl rfl hcorners hdraws h.putchar⟩
  | @puts mem str bs hstr =>
      refine ⟨_, .text h hbeside rfl ?_⟩
      rw [OutputCall.run, stringAt_eq hstr hstr.length_lt, ← puts_eq hstr.1]
      rfl
  | @printf mem args fmt buf items out hfmt hformats hfits =>
      obtain ⟨r, hr, hpassed⟩ := printf_text hfmt hformats hfits buf s
      refine ⟨_, .text h hbeside rfl ?_⟩
      rw [OutputCall.run, hr, ← hpassed, ← printf_drawn hr]
      rfl
  | @moveto x y =>
      rw [← hlines.1.1, ← hlines.1.2]
      exact ⟨_, .of_region hbeside rfl rfl rfl (Draws.refl _ _) (h.moveto x y)⟩
  | @scroll lines =>
      obtain ⟨hcorners, hshows⟩ := h.scroll lines
      exact ⟨_, .of_region hbeside rfl rfl hcorners
        (Console.scroll_draws lines h.bounded.inScreen) hshows⟩
  | clearscroll =>
      exact ⟨_, .of_region hbeside rfl rfl rfl
        (Console.clearscroll_draws h.bounded.inScreen) h.clearscroll⟩
  | @putcharAt x y c hline =>
      have hy : s.LineBeside y := by
        rwa [Window.LineBeside, hlines.1.2, hlines.2.2]
      exact ⟨_, .of_beside rfl rfl rfl Console.putcharAt_window
        (hbeside.putcharAt h.bounded x y c)
        (h.beside Console.putcharAt_window (Console.putcharAt_beside h.bounded hy))⟩
  | @putsAt x y mem str bs hstr hline =>
      have hy : s.LineBeside y := by
        rwa [Window.LineBeside, hlines.1.2, hlines.2.2]
      have hwindow := (Console.putsAt_spec x y bs h.bounded).2
      have hran (s : Console) : (OutputCall.putsAt x y mem str).run s = some (s.putsAt x y bs) := by
        rw [OutputCall.run, stringAt_eq hstr hstr.length_lt]
        rfl
      exact ⟨_, .of_beside (hran s) (hran s₀) rfl hwindow (hbeside.putsAt h.bounded x y bs)
        (h.beside hwindow (Console.putsAt_beside h.bounded hy bs x))⟩
  | clearscreen =>
      exact ⟨_, .of_beside rfl rfl rfl rfl (hbeside.clearscreen h.bounded) h.clearscreen⟩

/-- Calls in sequence, by induction on them. -/
lemma Does.run {calls : List OutputCall} {opss : List (List (Op UInt16))}
    (hcalls : List.Forall₂ (Does w) calls opss) (hw : s.corners = w.corners) (h : s.Shows t)
    (hbeside : s.SameBeside s₀) :
    ∃ s' s₀', calls.foldlM OutputCall.run s = some s' ∧ s'.corners = s.corners
      ∧ s'.Shows (opss.flatten.foldl (Term.operate s.width s.height blankCell) t)
      ∧ (calls.filter OutputCall.drawsBeside).foldlM OutputCall.run s₀ = some s₀'
      ∧ s'.SameBeside s₀' := by
  induction hcalls generalizing s s₀ t with
  | nil => exact ⟨s, s₀, rfl, rfl, h, rfl, hbeside⟩
  | @cons call ops calls opss hdoes hcalls ih =>
      obtain ⟨s₁, hdone⟩ := hdoes.done hw h hbeside
      obtain ⟨hwidth, hheight⟩ := Console.size_congr hdone.corners
      have hw₁ : s₁.corners = w.corners := hdone.corners.trans hw
      rw [List.flatten_cons, List.foldl_append, List.foldlM_cons, hdone.ran]
      cases hcall : call.drawsBeside with
      | false =>
          obtain ⟨s', s₀', hrun, hcorners, hshows, hrun₀, hbeside'⟩ :=
            ih hw₁ hdone.shows (hdone.kept hcall)
          rw [hwidth, hheight] at hshows
          rw [List.filter_cons_of_neg (by rw [hcall]; decide)]
          exact ⟨s', s₀', hrun, hcorners.trans hdone.corners, hshows, hrun₀, hbeside'⟩
      | true =>
          obtain ⟨s₂, hran, hbeside₁⟩ := hdone.drawn hcall
          obtain ⟨s', s₀', hrun, hcorners, hshows, hrun₀, hbeside'⟩ :=
            ih hw₁ hdone.shows hbeside₁
          rw [hwidth, hheight] at hshows
          rw [List.filter_cons_of_pos hcall, List.foldlM_cons, hran]
          exact ⟨s', s₀', hrun, hcorners.trans hdone.corners, hshows, hrun₀, hbeside'⟩

/-- **The console is a terminal**: after any calls the scroll region shows what they have done to
the terminal, and beside it the screen is as if only the calls that draw there had been made. -/
theorem output_shows {calls : List OutputCall} {opss : List (List (Op UInt16))} (h : s.Shows t)
    (hcalls : List.Forall₂ (Does s.toWindow) calls opss) :
    ∃ s' s₀, calls.foldlM OutputCall.run s = some s'
      ∧ s'.Shows (opss.flatten.foldl (Term.operate s.width s.height blankCell) t)
      ∧ (calls.filter OutputCall.drawsBeside).foldlM OutputCall.run s = some s₀
      ∧ ∀ a, ¬ s.Region a → s'.video a = s₀.video a := by
  obtain ⟨s', s₀, hrun, hcorners, hshows, hrun₀, hbeside⟩ :=
    Does.run hcalls rfl h ⟨rfl, h.bounded, fun _ _ => rfl⟩
  refine ⟨s', s₀, hrun, hshows, hrun₀, fun a ha => hbeside.cells a ?_⟩
  rwa [Window.region_congr hcorners]

end Calls

/-- The console after `_init` has set the scroll region, the screen being blank. -/
def systemConsole : Console := blankConsole.setscroll 0 7 99 99

/-- Line 6 is written, a number is printed, and the clock turns its spinner. -/
def statusCalls : List OutputCall :=
  [.putsAt 0 6 numberMemory 0, .printf numberMemory (fun _ => 7) 0 (fun _ => 0),
    .putcharAt 79 0 0x7c, .putchar 0x0a]

/-- What these calls do to the terminal. -/
theorem output_shows_status :
    let keys := [[], textKeys (threeDigits.padded [ascii '7'] ++ []), [],
      [Op.key (Console.key 0x0a)]]
    let t := Term.page systemConsole.height blankCell systemConsole.regionCell
    ∃ s' s₀, statusCalls.foldlM OutputCall.run systemConsole = some s'
      ∧ s'.Shows (keys.flatten.foldl
        (Term.operate systemConsole.width systemConsole.height blankCell) t)
      ∧ (statusCalls.filter OutputCall.drawsBeside).foldlM OutputCall.run systemConsole = some s₀
      ∧ ∀ a, ¬ systemConsole.Region a → s'.video a = s₀.video a := by
  intro keys t
  have hshows : systemConsole.Shows t :=
    Console.shows_setscroll (bounded_ioInit _) 0 7 99 99
  have hline (y : UInt32) (hy : y < 7) : systemConsole.LineBeside y := .inl hy
  have hcalls : List.Forall₂ (Does systemConsole.toWindow) statusCalls keys :=
    .cons (.putsAt stringAt_number (hline 6 (by decide)))
      (.cons (.printf stringAt_number formats_seven ⟨nofun, trivial⟩)
        (.cons (.putcharAt (hline 0 (by decide))) (.cons .putchar .nil)))
  exact output_shows hshows hcalls

end Sp2
