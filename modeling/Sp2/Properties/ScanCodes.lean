import Sp2.Properties.KeyboardRing

/-!
The characters that scan codes stand for.

* `lastPressed`: whether the last event of a modifier was a press.
* `typedChars`: the characters of the keys that have been pressed.
* `storedChars`: those that are stored; `'\377'` is no `unsigned char`, and so every press of a key
  that is no modifier stores one.
* `Decodes`, `inputScanCode_decodes`: the modifiers and the characters after each scan code.
* `scan_codes_decoded`: **the right characters are stored exactly if no key without a character is
  pressed**, in every run in which the buffer has room.
-/

namespace Sp2

open Transition

/-! ### The statement -/

/-- The low byte of a scan code. -/
def scanByte (code : Int32) : Int32 := code &&& 0xff

/-- A press of one of the shift keys. -/
def isShiftPress (code : Int32) : Bool := decide (scanByte code = 0x2a ∨ scanByte code = 0x36)

/-- A release of one of the shift keys. -/
def isShiftRelease (code : Int32) : Bool := decide (scanByte code = 0xaa ∨ scanByte code = 0xb6)

/-- A press of the control key. -/
def isCtrlPress (code : Int32) : Bool := decide (scanByte code = 0x1d)

/-- A release of the control key. -/
def isCtrlRelease (code : Int32) : Bool := decide (scanByte code = 0x9d)

/-- The last of these events was a press. -/
def lastPressed (press release : Int32 → Bool) (codes : List Int32) : Bool :=
  (codes.filter fun code => press code || release code).getLast?.any press

/-- A press of a key that is no modifier. -/
def isKeyPress (code : Int32) : Bool :=
  decide (scanByte code &&& 0x80 = 0) && !isShiftPress code && !isCtrlPress code

/-- The entry of a key in a row of `scan_code`. -/
def keyEntry (shift : Bool) (code : Int32) : UInt8 :=
  ((scanCode shift)[(scanByte code).toInt.toNat]?).map ascii |>.getD 0

/-- The entry of a key after so many scan codes, masked if the control key is down. -/
def keyChar (before : List Int32) (code : Int32) : UInt8 :=
  let entry := keyEntry (lastPressed isShiftPress isShiftRelease before) code
  if lastPressed isCtrlPress isCtrlRelease before then entry &&& 0x1f else entry

/-- The character that a scan code stands for, if there is one. -/
def charOf (before : List Int32) (code : Int32) : List UInt8 :=
  if isKeyPress code
      ∧ keyEntry (lastPressed isShiftPress isShiftRelease before) code ≠ 0xff then
    [keyChar before code]
  else []

/-- What the scan codes give one after the other, each after those before it. -/
def scanned (give : List Int32 → Int32 → List UInt8) : List Int32 → List Int32 → List UInt8
  | _, [] => []
  | before, code :: codes => give before code ++ scanned give (before ++ [code]) codes

/-- The characters that scan codes stand for. -/
def typedChars (codes : List Int32) : List UInt8 := scanned charOf [] codes

/-- A press of a key that has no character. -/
def UndefinedPress (code : Int32) : Prop := isKeyPress code = true ∧ keyEntry false code = 0xff

/-- A scan code that is received finds room in the buffer. -/
def HasRoom (s : KeyboardState) : KeyboardEvent → Prop
  | .interrupt _ => Keyboard.increment s.nextSpace ≠ s.nextChar
  | .run _ => s.point = .data → Keyboard.increment s.nextSpace ≠ s.nextChar
  | _ => True

instance (s : KeyboardState) : (e : KeyboardEvent) → Decidable (HasRoom s e)
  | .interrupt _ => inferInstanceAs (Decidable (Keyboard.increment s.nextSpace ≠ s.nextChar))
  | .run _ => inferInstanceAs
      (Decidable (s.point = .data → Keyboard.increment s.nextSpace ≠ s.nextChar))
  | .setInterrupts _ | .call => inferInstanceAs (Decidable True)

/-! ### Sequences of scan codes -/

section Scanned

variable {give give' : List Int32 → Int32 → List UInt8} {before codes : List Int32}
  {code : Int32} {press release : Int32 → Bool}

lemma lastPressed_append (press release : Int32 → Bool) (codes : List Int32) (code : Int32) :
    lastPressed press release (codes ++ [code])
      = if press code || release code then press code else lastPressed press release codes := by
  rw [lastPressed, List.filter_append, List.filter_singleton]
  cases h : press code || release code with
  | false => exact congrArg (Option.any press) (congrArg List.getLast? (List.append_nil _))
  | true =>
      rw [cond_true, List.getLast?_append]
      rfl

lemma scanned_append (before codes : List Int32) (code : Int32) :
    scanned give before (codes ++ [code])
      = scanned give before codes ++ give (before ++ codes) code := by
  induction codes generalizing before with
  | nil => simp [scanned]
  | cons c codes ih =>
      rw [List.cons_append, scanned, ih, scanned, List.append_assoc, List.append_assoc]
      rfl

/-- Where a second sequence gives the same but for some scan codes, for which it gives more, the
two are equal exactly if there are no such scan codes. -/
lemma scanned_eq_iff {bad : Int32 → Prop}
    (hgood : ∀ before code, ¬ bad code → give' before code = give before code)
    (hbad : ∀ before code, bad code → give before code = [] ∧ give' before code ≠ [])
    (before codes : List Int32) :
    (scanned give before codes).length ≤ (scanned give' before codes).length
      ∧ (scanned give' before codes = scanned give before codes ↔ ∀ code ∈ codes, ¬ bad code) := by
  induction codes generalizing before with
  | nil => exact ⟨Nat.le_refl _, by simp [scanned]⟩
  | cons code codes ih =>
      obtain ⟨hle, hiff⟩ := ih (before ++ [code])
      rw [scanned, scanned, List.length_append, List.length_append, List.forall_mem_cons]
      by_cases hcode : bad code
      · obtain ⟨hnone, hsome⟩ := hbad before code hcode
        have hpos := List.length_pos_of_ne_nil hsome
        rw [hnone, List.length_nil, List.nil_append]
        refine ⟨by omega, fun heq => ?_, fun h => absurd hcode h.1⟩
        have hlength := congrArg List.length heq
        rw [List.length_append] at hlength
        omega
      · rw [hgood before code hcode, List.append_cancel_left_eq, hiff]
        exact ⟨by omega, fun h => ⟨hcode, h⟩, fun h => h.2⟩

end Scanned

/-! ### What is stored -/

/-- The character that a scan code stores if there is room: also for a key that has none. -/
def pressedChar (before : List Int32) (code : Int32) : List UInt8 :=
  if isKeyPress code then [keyChar before code] else []

/-- The modifiers and the characters after the scan codes that have been received. -/
structure Keyboard.Decodes (k : Keyboard) : Prop where
  shift : k.shift = lastPressed isShiftPress isShiftRelease k.codes
  ctrlMask : k.ctrlMask = if lastPressed isCtrlPress isCtrlRelease k.codes then 0x1f else 0xff
  stored : k.stored = scanned pressedChar [] k.codes

section Decodes

variable {k : Keyboard} {code : Int32}

/-- **No `unsigned char` is `'\377'`**, which is negative. -/
lemma ne_noChar (b : UInt8) : b.toUInt32.toInt32 ≠ noChar := by
  have hall : ∀ i : Fin 256, (UInt8.ofFin i).toUInt32.toInt32 ≠ noChar := by decide +kernel
  exact hall b.toFin

lemma mask_eq (b : UInt8) :
    intToChar (b.toUInt32.toInt32 &&& 0xff) = b
      ∧ intToChar (b.toUInt32.toInt32 &&& 0x1f) = b &&& 0x1f := by
  have hall : ∀ i : Fin 256, intToChar ((UInt8.ofFin i).toUInt32.toInt32 &&& 0xff) = UInt8.ofFin i
      ∧ intToChar ((UInt8.ofFin i).toUInt32.toInt32 &&& 0x1f) = UInt8.ofFin i &&& 0x1f := by
    decide +kernel
  exact hall b.toFin

lemma scanCodeAt_eq (shift : Bool) (code : Int32) :
    scanCodeAt shift (code &&& 0xff) = (keyEntry shift code).toUInt32.toInt32 := rfl

/-- What one more scan code has to do. -/
lemma Keyboard.Decodes.append {k' : Keyboard} (h : k.Decodes)
    (hcodes : k'.codes = k.codes ++ [code])
    (hshift : k'.shift
      = if isShiftPress code || isShiftRelease code then isShiftPress code else k.shift)
    (hctrl : k'.ctrlMask = if isCtrlPress code || isCtrlRelease code then
        (if isCtrlPress code then 0x1f else 0xff) else k.ctrlMask)
    (hstored : k'.stored = k.stored ++ pressedChar k.codes code) : k'.Decodes where
  shift := by rw [hcodes, hshift, lastPressed_append, h.shift]
  ctrlMask := by
    rw [hcodes, hctrl, lastPressed_append, h.ctrlMask]
    split_ifs <;> rfl
  stored := by rw [hcodes, hstored, h.stored, scanned_append, List.nil_append]

/-- The kinds of a scan code. -/
def scanKinds (code : Int32) : List Bool :=
  [isShiftPress code, isShiftRelease code, isCtrlPress code, isCtrlRelease code, isKeyPress code]

lemma scanKinds_eq {byte : Int32} (h : code &&& 0xff = byte) :
    scanKinds code = [decide (byte = 0x2a ∨ byte = 0x36), decide (byte = 0xaa ∨ byte = 0xb6),
      decide (byte = 0x1d), decide (byte = 0x9d), decide (byte &&& 0x80 = 0)
        && !decide (byte = 0x2a ∨ byte = 0x36) && !decide (byte = 0x1d)] := by
  rw [← h]
  rfl

/-- A scan code that is no press of a key stores nothing. -/
lemma Keyboard.Decodes.modifier {k' : Keyboard} {p r c d : Bool} (h : k.Decodes)
    (hkinds : scanKinds code = [p, r, c, d, false]) (hcodes : k'.codes = k.codes ++ [code])
    (hshift : k'.shift = if p || r then p else k.shift)
    (hctrl : k'.ctrlMask = if c || d then (if c then 0x1f else 0xff) else k.ctrlMask)
    (hstored : k'.stored = k.stored) : k'.Decodes := by
  simp only [scanKinds, List.cons.injEq, and_true] at hkinds
  obtain ⟨rfl, rfl, rfl, rfl, hkey⟩ := hkinds
  have hnone : pressedChar k.codes code = [] := if_neg (by simp [hkey])
  exact h.append hcodes hshift hctrl (by rw [hstored, hnone, List.append_nil])

/-- The character of a key is masked and stored where there is room. -/
lemma Keyboard.Decodes.key (h : k.Decodes)
    (hkinds : scanKinds code = [false, false, false, false, true])
    (hroom : Keyboard.increment k.nextSpace ≠ k.nextChar) :
    (Keyboard.put (scanCodeAt k.shift (code &&& 0xff))
      { k with codes := k.codes ++ [code] }).Decodes := by
  simp only [scanKinds, List.cons.injEq, and_true] at hkinds
  obtain ⟨hpress, hrelease, hctrl, hctrl', hkey⟩ := hkinds
  have hmasked : intToChar (scanCodeAt k.shift (code &&& 0xff) &&& k.ctrlMask)
      = keyChar k.codes code := by
    obtain ⟨hfull, hcontrol⟩ := mask_eq (keyEntry k.shift code)
    rw [scanCodeAt_eq, keyChar, ← h.shift, h.ctrlMask]
    split_ifs
    · exact hcontrol
    · exact hfull
  rw [Keyboard.put, if_pos hroom]
  refine h.append rfl ?_ ?_ ?_
  · rw [hpress, hrelease]
    rfl
  · rw [hctrl, hctrl']
    rfl
  · rw [pressedChar, if_pos hkey]
    exact congrArg (k.stored ++ [·]) hmasked

/-- **A scan code** sets a modifier, stores the character of its key, or does nothing. -/
lemma inputScanCode_decodes (h : k.Decodes)
    (hroom : Keyboard.increment k.nextSpace ≠ k.nextChar) :
    (k.inputScanCode code).Decodes := by
  rw [Keyboard.inputScanCode]
  dsimp only
  split_ifs with hpress hrelease hctrl hctrl' hkey hchar
  · have hkinds : scanKinds code = [true, false, false, false, false] := by
      rcases hpress with hcode | hcode <;> rw [scanKinds_eq hcode] <;> rfl
    exact h.modifier hkinds rfl rfl rfl rfl
  · have hkinds : scanKinds code = [false, true, false, false, false] := by
      rcases hrelease with hcode | hcode <;> rw [scanKinds_eq hcode] <;> rfl
    exact h.modifier hkinds rfl rfl rfl rfl
  · exact h.modifier ((scanKinds_eq hctrl).trans rfl) rfl rfl rfl rfl
  · exact h.modifier ((scanKinds_eq hctrl').trans rfl) rfl rfl rfl rfl
  · refine h.key ?_ hroom
    rw [scanKinds_eq rfl]
    simp [hpress, hrelease, hctrl, hctrl', hkey]
  · exact absurd (ne_noChar (keyEntry k.shift code)) hchar
  · refine h.modifier (p := false) (r := false) (c := false) (d := false) ?_ rfl rfl rfl rfl
    rw [scanKinds_eq rfl]
    simp [hpress, hrelease, hctrl, hctrl', hkey]

end Decodes

/-! ### Runs -/

section Runs

variable {s s₀ : KeyboardState} {e : KeyboardEvent} {es : List KeyboardEvent}
  {before : List Int32} {code : Int32}

lemma KeyboardInitial.decodes (h : KeyboardInitial s) : s.Decodes := by
  refine ⟨?_, ?_, ?_⟩
  · rw [h.shift, h.codes]
    rfl
  · rw [h.ctrlMask, h.codes]
    rfl
  · rw [h.stored, h.codes]
    rfl

/-- Only a scan code changes the modifiers and the characters that have been stored. -/
lemma after_decodes (hs : s.Decodes) (hroom : HasRoom s e) : (s.after e).Decodes := by
  cases e with
  | interrupt code => exact inputScanCode_decodes hs hroom
  | setInterrupts enabled => exact hs
  | call => exact hs
  | run io =>
      rw [KeyboardState.after, KeyboardState.getchar]
      cases hpoint : s.point with
      | data => exact inputScanCode_decodes hs (hroom hpoint)
      | test _ | status | echo _ =>
          dsimp only
          split_ifs <;> exact hs
      | advance c pointer => exact ⟨hs.shift, hs.ctrlMask, hs.stored⟩
      | outside | take | increment _ | done _ => exact hs

/-- A key that has no character has none with the shift key. -/
lemma keyEntry_eq_iff (shift : Bool) (code : Int32) :
    keyEntry shift code = 0xff ↔ keyEntry false code = 0xff := by
  have hall : ∀ i < 128, ((scanCode true)[i]?.map ascii).getD 0 = 0xff
      ↔ ((scanCode false)[i]?.map ascii).getD 0 = 0xff := by decide +kernel
  cases shift with
  | false => rfl
  | true =>
      rw [keyEntry, keyEntry]
      by_cases hi : (scanByte code).toInt.toNat < 128
      · exact hall _ hi
      · have hrow : ∀ shift, (scanCode shift).length ≤ (scanByte code).toInt.toNat := by
          intro shift
          cases shift <;> exact Nat.le_of_not_lt hi
        rw [List.getElem?_eq_none (hrow true), List.getElem?_eq_none (hrow false)]

lemma pressedChar_of_defined (h : ¬ UndefinedPress code) :
    pressedChar before code = charOf before code := by
  rw [pressedChar, charOf]
  by_cases hkey : isKeyPress code = true
  · have hentry : keyEntry (lastPressed isShiftPress isShiftRelease before) code ≠ 0xff :=
      fun heq => h ⟨hkey, (keyEntry_eq_iff _ _).mp heq⟩
    rw [if_pos hkey, if_pos ⟨hkey, hentry⟩]
  · rw [if_neg hkey, if_neg fun hboth => hkey hboth.1]

lemma pressedChar_of_undefined (h : UndefinedPress code) :
    charOf before code = [] ∧ pressedChar before code ≠ [] := by
  rw [pressedChar, charOf, if_pos h.1]
  exact ⟨if_neg fun hboth => hboth.2 ((keyEntry_eq_iff _ _).mpr h.2), List.cons_ne_nil _ _⟩

lemma keyboard_decodes (h₀ : KeyboardInitial s₀)
    (h : Transition.Run keyboardStep (fun s e => KeyboardAllowed s e ∧ HasRoom s e) s₀ es s) :
    s.Decodes :=
  h.invariant h₀.decodes fun s e s' hs hallowed hstep => by
    obtain rfl := Except.ok.inj hstep
    exact after_decodes hs hallowed.2

end Runs

/-- **The characters that are stored** are those that the scan codes stand for, in every run in
which they find room, exactly if no key without a character is pressed. -/
theorem scan_codes_decoded {s₀ s : KeyboardState} {es : List KeyboardEvent}
    (h₀ : KeyboardInitial s₀)
    (h : Transition.Run keyboardStep (fun s e => KeyboardAllowed s e ∧ HasRoom s e) s₀ es s) :
    s.stored = typedChars s.codes ↔ ∀ code ∈ s.codes, ¬ UndefinedPress code := by
  rw [(keyboard_decodes h₀ h).stored, typedChars]
  exact (scanned_eq_iff (fun _ _ => pressedChar_of_defined) (fun _ _ => pressedChar_of_undefined)
    [] s.codes).2

/-- `A` and `^C` are typed. -/
def modifiersTyped : List KeyboardEvent :=
  [0x2a, 0x1e, 0x9e, 0xaa, 0x1d, 0x2e, 0xae, 0x9d].map .interrupt

theorem scan_codes_decoded_typed : ∃ s,
    Transition.Run keyboardStep (fun s e => KeyboardAllowed s e ∧ HasRoom s e) quietKeyboard
        modifiersTyped s
      ∧ s.stored = [ascii 'A', 0x03]
      ∧ (s.stored = typedChars s.codes ↔ ∀ code ∈ s.codes, ¬ UndefinedPress code) := by
  obtain ⟨s, hrun, hs⟩ := exists_run keyboardStep (fun s e => KeyboardAllowed s e ∧ HasRoom s e)
    quietKeyboard modifiersTyped (f := fun s => s.stored) (b := [ascii 'A', 0x03]) (by decide)
  exact ⟨s, hrun, hs, scan_codes_decoded keyboardInitial_quiet hrun⟩

/-- The Alt key, which has no character, stores one. -/
theorem undefined_key_stored : ¬ ∀ s₀ es s, KeyboardInitial s₀ →
    Transition.Run keyboardStep (fun s e => KeyboardAllowed s e ∧ HasRoom s e) s₀ es s →
      s.stored = typedChars s.codes := by
  intro h
  obtain ⟨s, hrun, hs⟩ := exists_run keyboardStep (fun s e => KeyboardAllowed s e ∧ HasRoom s e)
    quietKeyboard [.interrupt 0x38] (f := fun s => (s.stored, s.codes)) (b := ([0xff], [0x38]))
    (by decide)
  obtain ⟨hstored, hcodes⟩ := Prod.mk.inj hs
  have heq := h _ _ s keyboardInitial_quiet hrun
  rw [hstored, hcodes] at heq
  exact absurd heq (by decide)

end Sp2
