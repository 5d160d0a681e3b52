import Sp2.Properties.ConsoleTerminal
import Sp2.Properties.FormatOutput
import Sp2.Properties.KeyboardRing

/-!
Lines of input.

* `EndsLine`: how a line ends, and what is taken from the input with it.
* `GetsState.Stores`, `GetsPoint.HasStored`: what `c_gets` has stored and taken at its next
  statement.
* `GetsSound`: the invariant; `GetsSound.keyboard_step`, `GetsSound.next`: every statement and every
  interrupt keeps it.
* `gets_line`: **what `c_gets` returns is a line of the input**, whenever interrupts come.
* `KeyboardState.Echoes`, `input_echoed`: **what is typed is echoed**, in order.
-/

namespace Sp2

open Transition

/-! ### The statement -/

/-- How a line ends: with `EOT`, which is taken from the input and not stored, with a new line, or
where the buffer is full. -/
inductive EndsLine (size : ℕ) : List UInt8 → List UInt8 → Prop
  | eot {line : List UInt8} (hline : ascii '\n' ∉ line) (hroom : line.length + 1 < size) :
      EndsLine size line [eot]
  | newline {line : List UInt8} (hline : ascii '\n' ∉ line) (hroom : line.length + 1 < size) :
      EndsLine size (line ++ [ascii '\n']) []
  | full {line : List UInt8} (hline : ascii '\n' ∉ line) (hfull : size ≤ line.length + 1) :
      EndsLine size line []

/-- Nothing has been typed, and no call has been made. -/
structure GetsInitial (s : GetsState) : Prop extends KeyboardInitial s.toKeyboardState where
  gets : s.gets = .outside

/-! ### The invariant -/

/-- A line has been stored since the call. -/
structure GetsState.Stores (s : GetsState) (line : List UInt8) : Prop where
  mem : s.mem = storeBytes s.entered.buffer line s.entered.mem
  buffer : s.buffer = s.entered.buffer + UInt32.ofNat line.length
  count : s.count = Int32.ofNat line.length
  size : s.size.toNat + line.length = s.entered.size.toNat
  room : line ≠ [] → 0 < s.size.toNat
  not_eot : eot ∉ line

/-- What has been taken from the input and not been stored at the next statement. -/
def GetsPoint.HasStored (size entered : UInt32) (line rest : List UInt8) : GetsPoint → Prop
  | .outside => True
  | .test => rest = [] ∧ ascii '\n' ∉ line
  | .getchar => rest = [] ∧ ascii '\n' ∉ line ∧ 1 < size.toNat
  | .got ch => rest = [ch] ∧ ascii '\n' ∉ line ∧ 1 < size.toNat
  | .finish => EndsLine entered.toNat line rest

/-- What has been returned since the call has been stored, but for the last character. -/
def GetsState.Reads (s : GetsState) : Prop :=
  ∃ line rest, s.Stores line ∧ s.returned = s.entered.returned ++ (line ++ rest).map charToInt
    ∧ s.gets.HasStored s.size s.entered.size line rest

/-- The buffer of the keyboard is sound, `c_getchar` runs where it has been called, and `c_gets` has
stored what it has taken. -/
structure GetsSound (s : GetsState) : Prop where
  keyboard : KeyboardSound s.toKeyboardState
  waits : s.gets = .getchar → s.point ≠ .outside
  idle : s.gets ≠ .outside → s.gets ≠ .getchar → s.point = .outside
  reads : s.gets ≠ .outside → s.Reads

section Sound

variable {s s' : GetsState} {e : GetsEvent} {k : KeyboardState} {line rest : List UInt8}

/-- The `int` that `c_getchar` returns is stored into a `char`. -/
lemma intToChar_charToInt (ch : UInt8) : intToChar (charToInt ch) = ch := by
  have hall : ∀ i : Fin 256, intToChar (charToInt (UInt8.ofFin i)) = UInt8.ofFin i := by
    decide +kernel
  exact hall ch.toFin

/-- `c_getchar` returns by its last statement only. -/
lemma getchar_returned (io : Int32) (h : ∀ c, k.point ≠ .done c) :
    (k.getchar io).returned = k.returned
      ∧ (k.point ≠ .outside → (k.getchar io).point ≠ .outside) := by
  rw [KeyboardState.getchar]
  cases hpoint : k.point with
  | outside => exact ⟨rfl, fun h => absurd rfl h⟩
  | done c => exact absurd hpoint (h c)
  | test _ | status | echo _ =>
      dsimp only
      split_ifs <;> exact ⟨rfl, fun _ => by simp [hpoint]⟩
  | data | take | increment _ | advance _ _ => exact ⟨rfl, fun _ => by simp⟩

lemma after_return (hgets : s.gets = .getchar) (hpoint : s.point = .done c) (io : Int32) :
    s.after (.keyboard (.run io))
      = { s with toKeyboardState := s.toKeyboardState.after (.run io), gets := .got c } := by
  simp only [GetsState.after, hgets, hpoint, intToChar_charToInt]

lemma after_keyboard (e : KeyboardEvent)
    (h : s.gets = .getchar → ∀ c io, s.point = .done c → e ≠ .run io) :
    s.after (.keyboard e) = { s with toKeyboardState := s.toKeyboardState.after e } := by
  rw [GetsState.after]
  exact fun c io hgets hpoint heq => h hgets c io hpoint heq

lemma GetsAllowed.keyboard {e : KeyboardEvent} (h : GetsAllowed s (.keyboard e)) :
    KeyboardAllowed s.toKeyboardState e := by
  cases e with
  | setInterrupts enabled => exact h.2
  | call => exact h.2
  | interrupt code => exact h
  | run io => exact h

/-- What the keyboard does and where `c_gets` is have no part in what has been stored. -/
lemma GetsState.Stores.other (h : s.Stores line) (k : KeyboardState) (gets : GetsPoint) :
    GetsState.Stores { s with toKeyboardState := k, gets := gets } line :=
  ⟨h.mem, h.buffer, h.count, h.size, h.room, h.not_eot⟩

lemma GetsState.Reads.keyboard (h : s.Reads) (hreturned : k.returned = s.returned) :
    GetsState.Reads { s with toKeyboardState := k } := by
  obtain ⟨line, rest, hstores, htaken, hprogress⟩ := h
  exact ⟨line, rest, hstores.other k s.gets, hreturned.trans htaken, hprogress⟩

/-- **An event of the keyboard** keeps the invariant. -/
lemma GetsSound.keyboard_step (hs : GetsSound s) {e : KeyboardEvent}
    (hallowed : GetsAllowed s (.keyboard e)) : GetsSound (s.after (.keyboard e)) := by
  have hkeyboard := hs.keyboard.step hallowed.keyboard
  by_cases hreturn : s.gets = .getchar ∧ ∃ c io, s.point = .done c ∧ e = .run io
  · -- `c_getchar` returns to `c_gets`
    obtain ⟨hgets, c, io, hpoint, rfl⟩ := hreturn
    obtain ⟨line, rest, hstores, htaken, hprogress⟩ := hs.reads (by rw [hgets]; simp)
    rw [hgets] at hprogress
    obtain ⟨rfl, hline, hsize⟩ := hprogress
    have hdone : s.toKeyboardState.after (.run io)
        = { s.toKeyboardState with
            returned := s.returned ++ [charToInt c]
            point := .outside } := by
      rw [KeyboardState.after, KeyboardState.getchar, hpoint]
    rw [after_return hgets hpoint]
    refine ⟨hkeyboard, by simp, fun _ _ => by rw [hdone], fun _ => ⟨line, [c],
      hstores.other _ _, ?_, rfl, hline, hsize⟩⟩
    rw [hdone]
    dsimp only
    rw [htaken, List.append_nil, List.append_assoc, List.map_append]
    rfl
  · rw [after_keyboard e fun hgets c io hpoint he => hreturn ⟨hgets, c, io, hpoint, he⟩]
    have hkept (hgets : s.gets ≠ .outside) :
        (s.toKeyboardState.after e).returned = s.returned
          ∧ (s.point = .outside ↔ (s.toKeyboardState.after e).point = .outside) := by
      cases e with
      | interrupt code => exact ⟨rfl, Iff.rfl⟩
      | setInterrupts enabled => exact absurd hallowed.1 hgets
      | call => exact absurd hallowed.1 hgets
      | run io =>
          have hpoint : s.point ≠ .outside := hallowed
          have hwaits : s.gets = .getchar := by
            by_contra hnot
            exact hpoint (hs.idle hgets hnot)
          obtain ⟨hreturned, houtside⟩ := getchar_returned io
            fun c hdone => hreturn ⟨hwaits, c, io, hdone, rfl⟩
          exact ⟨hreturned, iff_of_false hpoint (houtside hpoint)⟩
    refine ⟨hkeyboard, fun hgets => ?_, fun hgets hnot => ?_, fun hgets => ?_⟩
    · exact (hkept (hgets ▸ by simp)).2.not.mp (hs.waits hgets)
    · exact (hkept hgets).2.mp (hs.idle hgets hnot)
    · exact (hs.reads hgets).keyboard (hkept hgets).1

/-- A character is stored. -/
lemma GetsState.Stores.store {ch : UInt8} (h : s.Stores line) (hch : ch ≠ eot)
    (hsize : 1 < s.size.toNat) (gets : GetsPoint) :
    GetsState.Stores { s with
      mem := Function.update s.mem s.buffer ch
      buffer := s.buffer + 1
      count := s.count + 1
      size := s.size - 1
      gets := gets } (line ++ [ch]) := by
  have hle : (1 : UInt32) ≤ s.size := UInt32.le_iff_toNat_le.mpr hsize.le
  have htotal := h.size
  have hleft : (s.size - 1).toNat = s.size.toNat - 1 := by
    rw [UInt32.toNat_sub_of_le _ _ hle, UInt32.toNat_one]
  refine ⟨?_, ?_, ?_, ?_, fun _ => hleft ▸ Nat.sub_pos_of_lt hsize, ?_⟩
  · rw [storeBytes_append, ← h.mem, ← h.buffer]
    rfl
  · rw [h.buffer, List.length_append, List.length_singleton, UInt32.ofNat_add, UInt32.add_assoc]
    rfl
  · rw [h.count, List.length_append, List.length_singleton, Int32.ofNat_add]
    rfl
  · rw [hleft, List.length_append, List.length_singleton]
    change _ = s.entered.size.toNat
    omega
  · rw [List.mem_append, List.mem_singleton, not_or]
    exact ⟨h.not_eot, hch.symm⟩

/-- **A statement of `c_gets`** keeps the invariant. -/
lemma GetsSound.next (hs : GetsSound s) (hallowed : GetsAllowed s .next) :
    GetsSound s.cGets := by
  obtain ⟨houtside, hgetchar⟩ := hallowed
  have hpoint := hs.idle houtside hgetchar
  obtain ⟨line, rest, hstores, htaken, hprogress⟩ := hs.reads houtside
  rw [GetsState.cGets]
  cases hgets : s.gets with
  | outside => exact absurd hgets houtside
  | getchar => exact absurd hgets hgetchar
  | test =>
      rw [hgets] at hprogress
      obtain ⟨rfl, hline⟩ := hprogress
      dsimp only
      split_ifs with hsize
      · exact ⟨hs.keyboard.step (e := .call) hpoint, fun _ => by simp [KeyboardState.after],
          fun _ h => absurd rfl h, fun _ => ⟨line, [], hstores.other _ _, htaken, rfl, hline,
            UInt32.lt_iff_toNat_lt.mp hsize⟩⟩
      · have htotal := hstores.size
        rw [gt_iff_lt, UInt32.lt_iff_toNat_lt, UInt32.toNat_one] at hsize
        exact ⟨hs.keyboard, by simp, fun _ _ => hpoint, fun _ =>
          ⟨line, [], hstores.other _ _, htaken, .full hline (htotal ▸ by omega)⟩⟩
  | got ch =>
      rw [hgets] at hprogress
      obtain ⟨rfl, hline, hsize⟩ := hprogress
      have htotal := hstores.size
      have hroom : line.length + 1 < s.entered.size.toNat := by omega
      have htaken' : s.returned
          = s.entered.returned ++ (line ++ [ch] ++ []).map charToInt := by
        rw [htaken, List.append_nil]
      dsimp only
      split_ifs with heot hnewline
      · subst heot
        exact ⟨hs.keyboard, by simp, fun _ _ => hpoint, fun _ => ⟨line, [eot],
          hstores.other _ _, htaken, .eot hline hroom⟩⟩
      · subst hnewline
        exact ⟨hs.keyboard, by simp, fun _ _ => hpoint, fun _ => ⟨line ++ [ascii '\n'], [],
          hstores.store heot hsize _, htaken', .newline hline hroom⟩⟩
      · refine ⟨hs.keyboard, by simp, fun _ _ => hpoint, fun _ => ⟨line ++ [ch], [],
          hstores.store heot hsize _, htaken', rfl, ?_⟩⟩
        rw [List.mem_append, List.mem_singleton, not_or]
        exact ⟨hline, fun h => hnewline h.symm⟩
  | finish => exact ⟨hs.keyboard, by simp, fun _ _ => hpoint, fun h => absurd rfl h⟩

/-- **Every event keeps the invariant.** -/
lemma GetsSound.step (hs : GetsSound s) (hallowed : GetsAllowed s e) : GetsSound (s.after e) := by
  cases e with
  | keyboard e => exact hs.keyboard_step hallowed
  | gets buffer size =>
      have hstores : (s.after (.gets buffer size)).Stores [] :=
        ⟨rfl, by simp [GetsState.after], rfl, rfl, fun h => absurd rfl h, by simp⟩
      exact ⟨hs.keyboard, by simp [GetsState.after], fun _ _ => hallowed.2, fun _ => ⟨[], [],
        hstores, by simp [GetsState.after], rfl, by simp⟩⟩
  | next => exact hs.next hallowed

lemma GetsSound.initial (h₀ : GetsInitial s) : GetsSound s :=
  ⟨.initial h₀.toKeyboardInitial, fun hgets => absurd (h₀.gets.symm.trans hgets) (by simp),
    fun hgets _ => absurd h₀.gets hgets, fun hgets => absurd h₀.gets hgets⟩

/-- What has been stored, up to the NUL that ends it. -/
lemma GetsState.Stores.finish (h : s.Stores line) (hgets : s.gets = .finish) :
    (s.after .next).counts = s.counts ++ [Int32.ofNat line.length]
      ∧ (s.after .next).mem = storeBytes s.entered.buffer (line ++ [0]) s.entered.mem := by
  rw [GetsState.after, GetsState.cGets, hgets, storeBytes_append, ← h.mem, ← h.buffer, ← h.count]
  exact ⟨rfl, rfl⟩

/-- A line that is not empty leaves room for the NUL. -/
lemma GetsState.Stores.length_lt (h : s.Stores line) :
    line.length < max s.entered.size.toNat 1 := by
  have hsize := h.size
  cases line with
  | nil => exact lt_max_of_lt_right Nat.one_pos
  | cons ch line =>
      have hroom := h.room (List.cons_ne_nil _ _)
      exact lt_max_of_lt_left (by omega)

end Sound

/-- **A line of input**: when `c_gets` comes to its end, what it has taken from the characters
typed, in order, is a line, with the `EOT` that may end it. The buffer holds that line and a NUL,
even if its size is given as zero, and nothing else has changed. -/
theorem gets_line {s₀ s : GetsState} {es : List GetsEvent} (h₀ : GetsInitial s₀)
    (h : Transition.Run getsStep GetsAllowed s₀ es s) (hfinish : s.gets = .finish) :
    ∃ line rest, EndsLine s.entered.size.toNat line rest
      ∧ s.returned = s.entered.returned ++ (line ++ rest).map charToInt
      ∧ s.returned <+: s.stored.map charToInt
      ∧ (eot ∉ line ∧ line.length < max s.entered.size.toNat 1)
      ∧ (s.after .next).counts = s.counts ++ [Int32.ofNat line.length]
      ∧ BytesAt (s.after .next).mem s.entered.buffer (line ++ [0])
      ∧ ∀ a, line.length < (a - s.entered.buffer).toNat →
          (s.after .next).mem a = s.entered.mem a := by
  have hs : GetsSound s := h.invariant (.initial h₀) fun s e s' hs hallowed hstep => by
    obtain rfl := Except.ok.inj hstep
    exact hs.step hallowed
  obtain ⟨line, rest, hstores, htaken, hprogress⟩ := hs.reads (hfinish ▸ by simp)
  rw [hfinish] at hprogress
  obtain ⟨hcounts, hmem⟩ := hstores.finish hfinish
  obtain ⟨out, hout, horder⟩ := hs.keyboard.order
  have hlength := hstores.length_lt
  have hentered := s.entered.size.toNat_lt
  refine ⟨line, rest, hprogress, htaken, ?_, ⟨hstores.not_eot, hlength⟩, hcounts, ?_,
    fun a ha => ?_⟩
  · rw [hout, horder, List.append_assoc, List.map_append]
    exact List.prefix_append _ _
  · rw [hmem]
    refine bytesAt_storeBytes ?_
    rw [List.length_append, List.length_singleton]
    omega
  · rw [hmem, storeBytes_of_le]
    rw [List.length_append, List.length_singleton]
    exact ha

/-- `c_io` has been initialised, and no line has been read. -/
def quietGets : GetsState where
  toKeyboardState := quietKeyboard
  mem _ := 0xff
  buffer := 0
  size := 0
  count := 0
  gets := .outside
  entered := ⟨0, 0, fun _ => 0, []⟩
  counts := []

/-- `hi` and a new line are typed, the `i` while `c_gets` stores the `h`. -/
def lineTyped : List GetsEvent :=
  let getchar : List GetsEvent := List.replicate 6 (.keyboard (.run 0))
  [.keyboard (.interrupt 0x23), .gets 0x1000 80, .next] ++ getchar
    ++ [.keyboard (.interrupt 0x17), .next, .next] ++ getchar ++ [.next, .next]
    ++ [.keyboard (.run 0), .keyboard (.interrupt 0x1c)] ++ getchar ++ [.next]

theorem gets_line_typed : ∃ s, Transition.Run getsStep GetsAllowed quietGets lineTyped s
    ∧ (s.gets, s.returned) = (.finish, [charToInt (ascii 'h'), charToInt (ascii 'i'), 10])
    ∧ ∃ line rest, EndsLine s.entered.size.toNat line rest
      ∧ s.returned = s.entered.returned ++ (line ++ rest).map charToInt
      ∧ s.returned <+: s.stored.map charToInt
      ∧ (eot ∉ line ∧ line.length < max s.entered.size.toNat 1)
      ∧ (s.after .next).counts = s.counts ++ [Int32.ofNat line.length]
      ∧ BytesAt (s.after .next).mem s.entered.buffer (line ++ [0])
      ∧ ∀ a, line.length < (a - s.entered.buffer).toNat →
          (s.after .next).mem a = s.entered.mem a := by
  obtain ⟨s, hrun, hs⟩ := exists_run getsStep GetsAllowed quietGets lineTyped
    (f := fun s => (s.gets, s.returned))
    (b := (.finish, [charToInt (ascii 'h'), charToInt (ascii 'i'), 10])) (by decide +kernel)
  exact ⟨s, hrun, hs, gets_line ⟨keyboardInitial_quiet, rfl⟩ hrun (Prod.mk.inj hs).1⟩

/-! ### The echo -/

/-- The character that has been echoed and not been returned. -/
def GetcharPoint.echoed : GetcharPoint → List UInt8
  | .done c => [c]
  | _ => []

/-- The characters that `c_getchar` has echoed: an `EOT` is not. -/
def KeyboardState.echoed (s : KeyboardState) : List UInt8 :=
  (s.returned.map intToChar ++ s.point.echoed).filter (· ≠ eot)

/-- The console is what the echo makes of it. -/
def KeyboardState.Echoes (console : Console) (s : KeyboardState) : Prop :=
  s.console = (s.echoed.map Console.charToUInt32).foldl (fun s c => s.putchar c) console

section Echo

variable {s : KeyboardState} {console : Console}

/-- **A statement of `c_getchar`** keeps the console what the echo makes of it. -/
lemma KeyboardState.Echoes.getchar (h : s.Echoes console) (io : Int32) :
    (s.getchar io).Echoes console := by
  rw [KeyboardState.getchar]
  have hkeep (s' : KeyboardState) (hconsole : s'.console = s.console)
      (hechoed : s'.echoed = s.echoed) : s'.Echoes console := by
    rw [Echoes, hconsole, hechoed]
    exact h
  cases hpoint : s.point with
  | outside => exact h
  | test _ | status =>
      dsimp only
      split_ifs <;> exact hkeep _ rfl (by simp [echoed, hpoint, GetcharPoint.echoed])
  | data | take | increment _ | advance _ _ =>
      exact hkeep _ rfl (by simp [echoed, hpoint, GetcharPoint.echoed])
  | echo c =>
      have hbefore : s.echoed = (s.returned.map intToChar).filter (· ≠ eot) := by
        rw [echoed, hpoint]
        exact congrArg _ (List.append_nil _)
      dsimp only
      split_ifs with heot
      · rw [Echoes, h, hbefore, echoed, GetcharPoint.echoed, List.filter_append]
        simp [heot]
      · exact hkeep _ rfl (by simp [echoed, hpoint, GetcharPoint.echoed, not_not.mp heot])
  | done c =>
      refine hkeep _ rfl ?_
      rw [echoed, echoed, hpoint, List.map_append, List.map_singleton, intToChar_charToInt]
      exact congrArg _ (List.append_nil _)

/-- Every event does. -/
lemma KeyboardState.Echoes.step (h : s.Echoes console) {e : KeyboardEvent}
    (hallowed : KeyboardAllowed s e) : (s.after e).Echoes console := by
  cases e with
  | interrupt code => exact h
  | setInterrupts enabled => exact h
  | call =>
      have hpoint : s.point = .outside := hallowed
      have hechoed : (s.after .call).echoed = s.echoed := by
        simp [KeyboardState.after, echoed, hpoint, GetcharPoint.echoed]
      rw [Echoes, hechoed]
      exact h
  | run io => exact h.getchar io

end Echo

/-- **The echo**: the scroll region shows what has been typed and taken from the buffer, in order
and each character once, except for `EOT`. -/
theorem input_echoed {s₀ s : KeyboardState} {es : List KeyboardEvent} {t : Terminal.Term UInt16}
    (h₀ : KeyboardInitial s₀) (hshows : s₀.console.Shows t)
    (h : Transition.Run keyboardStep KeyboardAllowed s₀ es s) :
    ∃ taken, taken <+: s.stored ∧ s.returned <+: taken.map charToInt
      ∧ taken.length ≤ s.returned.length + 1
      ∧ s.console.corners = s₀.console.corners
      ∧ s.console.Shows (((taken.filter (· ≠ eot)).map fun c =>
          Console.key (Console.charToUInt32 c)).foldl
            (Terminal.Term.output s₀.console.width s₀.console.height blankCell) t) := by
  have hempty : s₀.Echoes s₀.console := by
    simp [KeyboardState.Echoes, KeyboardState.echoed, h₀.point, h₀.returned, GetcharPoint.echoed]
  have hsound : KeyboardSound s := h.invariant (.initial h₀) fun s e s' hs hallowed hstep => by
    obtain rfl := Except.ok.inj hstep
    exact hs.step hallowed
  have hconsole : s.Echoes s₀.console := h.invariant hempty fun s e s' hs hallowed hstep => by
    obtain rfl := Except.ok.inj hstep
    exact hs.step hallowed
  obtain ⟨out, hout, horder⟩ := hsound.order
  have hreturned : s.returned.map intToChar = out := by
    rw [hout, List.map_map]
    exact List.map_id'' intToChar_charToInt out
  have hechoed : s.point.echoed <+: s.point.removed := by
    cases s.point with
    | done c => exact List.prefix_rfl
    | _ => exact List.nil_prefix
  have hlength : s.point.echoed.length ≤ 1 := by
    cases s.point with
    | done c => exact Nat.le_refl 1
    | _ => exact Nat.zero_le 1
  obtain ⟨hcorners, hshows⟩ :=
    hshows.run ((out ++ s.point.echoed).filter (· ≠ eot) |>.map Console.charToUInt32)
  have hfold : ((out ++ s.point.echoed).filter (· ≠ eot) |>.map Console.charToUInt32).foldl
      (fun s c => s.putchar c) s₀.console = s.console := by
    rw [hconsole, KeyboardState.echoed, hreturned]
  rw [hfold] at hcorners hshows
  rw [List.map_map] at hshows
  refine ⟨out ++ s.point.echoed, ?_, ?_, ?_, hcorners, hshows⟩
  · rw [horder, List.append_assoc]
    exact (List.prefix_append_right_inj out).mpr (hechoed.trans (List.prefix_append _ _))
  · rw [hout, List.map_append]
    exact List.prefix_append _ _
  · rw [hout, List.length_append, List.length_map]
    omega

theorem input_echoed_typed : ∃ s,
    Transition.Run keyboardStep KeyboardAllowed quietKeyboard typedWhileWaiting s
      ∧ s.returned = [charToInt (ascii 'a')]
      ∧ ∃ taken, taken <+: s.stored ∧ s.returned <+: taken.map charToInt
        ∧ taken.length ≤ s.returned.length + 1
        ∧ s.console.corners = blankConsole.corners
        ∧ s.console.Shows (((taken.filter (· ≠ eot)).map fun c =>
            Console.key (Console.charToUInt32 c)).foldl
              (Terminal.Term.output blankConsole.width blankConsole.height blankCell)
              (Terminal.Term.start blankCell)) := by
  have hblank : blankConsole.Shows (Terminal.Term.start blankCell) :=
    ⟨bounded_ioInit _, Terminal.Term.valid_start (Nat.succ_pos _) (Nat.succ_pos _),
      fun _ _ _ _ => rfl, rfl, rfl⟩
  obtain ⟨s, hrun, hs⟩ := exists_run keyboardStep KeyboardAllowed quietKeyboard typedWhileWaiting
    (f := fun s => s.returned) (b := [charToInt (ascii 'a')]) (by decide +kernel)
  exact ⟨s, hrun, hs, input_echoed keyboardInitial_quiet hblank hrun⟩

end Sp2
