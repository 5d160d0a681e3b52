import Sp2.Devices.Keyboard
import Sp2.Lib.RingBuffer
import Sp2.Lib.Transition
import Sp2.Properties.ConsoleTerminal

/-!
The input buffer under interrupts.

* `Keyboard.waiting`: the characters in the buffer, as the contents of a ring.
* `Keyboard.Receives`, `inputScanCode_receives`: what a scan code may do to the buffer.
* `KeyboardSound`: the invariant. What has been stored has been returned, is on its way to the
  caller, or is waiting.
* `KeyboardSound.step`: every statement and every interrupt keeps it.
* `input_buffer_sound`: **no character is lost, repeated or reordered**, whenever interrupts come.
-/

namespace Sp2

open Transition

/-! ### The statement -/

/-- The character that has been taken out of the buffer and has not been returned. -/
def GetcharPoint.removed : GetcharPoint → List UInt8
  | .echo c | .done c => [c]
  | _ => []

/-- The number of characters that have been taken out of the buffer. -/
def KeyboardState.removed (s : KeyboardState) : ℕ := s.returned.length + s.point.removed.length

/-! ### The buffer -/

namespace Keyboard

variable {k k' : Keyboard} {code : Int32} {c : UInt8}

/-- The characters in the buffer. -/
def waiting (k : Keyboard) : List UInt8 :=
  RingBuffer.contents cBufsize k.inputBuffer k.nextChar k.nextSpace

/-- The pointers are inside the buffer. -/
structure InBuffer (k : Keyboard) : Prop where
  nextChar_lt : k.nextChar < cBufsize
  nextSpace_lt : k.nextSpace < cBufsize

lemma increment_eq (pointer : ℕ) : increment pointer = RingBuffer.next cBufsize pointer := rfl

/-- **`c_input_queue` counts the characters in the buffer.** -/
lemma inputQueue_eq (h : k.InBuffer) : k.inputQueue = k.waiting.length := by
  have hc := h.nextChar_lt
  have hs := h.nextSpace_lt
  rw [inputQueue, waiting, RingBuffer.length_contents, RingBuffer.dist]
  split_ifs <;> omega

/-- What a scan code may do to the buffer: characters are appended, and none is discarded unless
the buffer is full. -/
structure Receives (k k' : Keyboard) : Prop where
  inBuffer : k'.InBuffer
  nextChar : k'.nextChar = k.nextChar
  stored : ∃ new, k'.stored = k.stored ++ new ∧ k'.waiting = k.waiting ++ new
  discarded : k'.discarded = k.discarded ∨ k.waiting.length = cBufsize - 1

lemma Receives.of_eq (h : k.InBuffer) (hbuffer : k'.inputBuffer = k.inputBuffer)
    (hchar : k'.nextChar = k.nextChar) (hspace : k'.nextSpace = k.nextSpace)
    (hstored : k'.stored = k.stored) (hdiscarded : k'.discarded = k.discarded) :
    k.Receives k' where
  inBuffer := ⟨hchar ▸ h.nextChar_lt, hspace ▸ h.nextSpace_lt⟩
  nextChar := hchar
  stored := by
    refine ⟨[], ?_, ?_⟩
    · rw [hstored, List.append_nil]
    · rw [waiting, waiting, hbuffer, hchar, hspace, List.append_nil]
  discarded := Or.inl hdiscarded

lemma put_receives (h : k.InBuffer) (code : Int32) : k.Receives (k.put code) := by
  rw [put]
  split_ifs with hnext
  · rw [increment_eq] at hnext
    exact ⟨⟨h.nextChar_lt, RingBuffer.next_lt (by decide)⟩, rfl,
      ⟨_, rfl, RingBuffer.contents_put h.nextChar_lt h.nextSpace_lt hnext⟩, Or.inl rfl⟩
  · rw [not_not, increment_eq] at hnext
    refine ⟨⟨h.nextChar_lt, h.nextSpace_lt⟩, rfl,
      ⟨[], (List.append_nil _).symm, (List.append_nil _).symm⟩, Or.inr ?_⟩
    rw [waiting, RingBuffer.length_contents]
    exact (RingBuffer.full_iff h.nextChar_lt h.nextSpace_lt).mp hnext

/-- **A scan code** appends its character, if there is one and there is room. -/
lemma inputScanCode_receives (h : k.InBuffer) (code : Int32) :
    k.Receives (k.inputScanCode code) := by
  rw [inputScanCode]
  dsimp only
  split_ifs
  · exact .of_eq h rfl rfl rfl rfl rfl
  · exact .of_eq h rfl rfl rfl rfl rfl
  · exact .of_eq h rfl rfl rfl rfl rfl
  · exact .of_eq h rfl rfl rfl rfl rfl
  · have hput := put_receives (k := { k with codes := k.codes ++ [code] })
      ⟨h.nextChar_lt, h.nextSpace_lt⟩ (scanCodeAt k.shift (code &&& 0xff))
    exact ⟨hput.inBuffer, hput.nextChar, hput.stored, hput.discarded⟩
  · exact .of_eq h rfl rfl rfl rfl rfl
  · exact .of_eq h rfl rfl rfl rfl rfl

/-- `c & 0xff` is stored into a `char`. -/
lemma charToInt_and (ch : UInt8) : intToChar (charToInt ch &&& 0xff) = ch := by
  have hall : ∀ i : Fin 256,
      intToChar (charToInt (UInt8.ofFin i) &&& 0xff) = UInt8.ofFin i := by decide +kernel
  exact hall ch.toFin

/-- The next character is the first one that is waiting. -/
lemma waiting_eq (h : k.InBuffer) (hne : k.nextChar ≠ k.nextSpace) :
    k.waiting = k.inputBuffer k.nextChar :: { k with nextChar := increment k.nextChar }.waiting :=
  RingBuffer.contents_take h.nextChar_lt h.nextSpace_lt hne

end Keyboard

/-! ### The invariant -/

section Sound

variable {s s' s₀ : KeyboardState} {e : KeyboardEvent} {es : List KeyboardEvent} {k k' : Keyboard}
  {io : Int32}

/-- What the caller knows of the buffer at its next statement. -/
def GetcharPoint.Knows (k : Keyboard) : GetcharPoint → Prop
  | .take => k.waiting ≠ []
  | .increment c => ∃ rest, k.waiting = c :: rest
  | .advance c pointer =>
      pointer = Keyboard.increment k.nextChar ∧ ∃ rest, k.waiting = c :: rest
  | _ => True

/-- The pointers are inside the buffer, and what has been stored has been returned, is on its way to
the caller, or is waiting. -/
structure KeyboardSound (s : KeyboardState) : Prop where
  inBuffer : s.InBuffer
  knows : s.point.Knows s.toKeyboard
  order : ∃ out, s.returned = out.map charToInt ∧ s.stored = out ++ s.point.removed ++ s.waiting

/-- What the caller knows stays true when a scan code comes in. -/
lemma Keyboard.Receives.knows (h : k.Receives k') {point : GetcharPoint} (hknows : point.Knows k) :
    point.Knows k' := by
  obtain ⟨new, -, hwaiting⟩ := h.stored
  cases point with
  | take => exact fun hnil => hknows (List.append_eq_nil_iff.mp (hwaiting ▸ hnil)).1
  | increment c =>
      obtain ⟨rest, hrest⟩ := hknows
      exact ⟨rest ++ new, by rw [hwaiting, hrest, List.cons_append]⟩
  | advance c pointer =>
      obtain ⟨rfl, rest, hrest⟩ := hknows
      exact ⟨by rw [h.nextChar], rest ++ new, by rw [hwaiting, hrest, List.cons_append]⟩
  | outside | test _ | status | data | echo _ | done _ => trivial

/-- A scan code keeps the invariant, whatever the caller is about to do. -/
lemma KeyboardSound.receive (hs : KeyboardSound s) (h : s.toKeyboard.Receives k') :
    KeyboardSound { s with toKeyboard := k' } := by
  obtain ⟨new, hstored, hwaiting⟩ := h.stored
  obtain ⟨out, hout, horder⟩ := hs.order
  refine ⟨h.inBuffer, h.knows hs.knows, out, hout, ?_⟩
  dsimp only
  rw [hstored, hwaiting, horder, List.append_assoc _ _ new]

/-- A statement that leaves the buffer alone keeps the invariant. -/
lemma KeyboardSound.goto (hs : KeyboardSound s) (point : GetcharPoint)
    (hremoved : point.removed = s.point.removed) (hknows : point.Knows s.toKeyboard) :
    KeyboardSound { s with point := point } := by
  obtain ⟨out, hout, horder⟩ := hs.order
  exact ⟨hs.inBuffer, hknows, out, hout, by dsimp only; rw [hremoved, horder]⟩

/-- **A statement of `c_getchar`** keeps the invariant. -/
lemma KeyboardSound.getchar (hs : KeyboardSound s) (io : Int32) :
    KeyboardSound (s.getchar io) := by
  have hknows := hs.knows
  obtain ⟨out, hout, horder⟩ := hs.order
  rw [KeyboardState.getchar]
  cases hpoint : s.point with
  | outside => exact hs
  | test interruptsEnabled =>
      dsimp only
      split_ifs with hempty henabled
      · exact hs.goto _ (by rw [hpoint]; rfl) trivial
      · exact hs
      · refine hs.goto _ (by rw [hpoint]; rfl) fun hnil => ?_
        rw [Keyboard.waiting_eq hs.inBuffer hempty] at hnil
        exact List.cons_ne_nil _ _ hnil
  | status =>
      dsimp only
      split_ifs
      · exact hs
      · exact hs.goto _ (by rw [hpoint]; rfl) trivial
  | data =>
      have hreceive := hs.receive (Keyboard.inputScanCode_receives hs.inBuffer io)
      exact hreceive.goto _ (by rw [hpoint]; rfl) trivial
  | take =>
      rw [hpoint] at hknows
      have hne : s.nextChar ≠ s.nextSpace := fun heq => hknows (by
        rw [Keyboard.waiting, heq, RingBuffer.contents_self])
      have hwaiting := Keyboard.waiting_eq hs.inBuffer hne
      dsimp only
      rw [Keyboard.charToInt_and]
      exact hs.goto _ (by rw [hpoint]; rfl) ⟨_, hwaiting⟩
  | increment c =>
      rw [hpoint] at hknows
      exact hs.goto _ (by rw [hpoint]; rfl) ⟨rfl, hknows⟩
  | advance c pointer =>
      rw [hpoint] at hknows horder
      have horder' : s.stored = out ++ [] ++ s.waiting := horder
      obtain ⟨rfl, rest, hrest⟩ := hknows
      have hne : s.nextChar ≠ s.nextSpace := fun heq => by
        rw [Keyboard.waiting, heq, RingBuffer.contents_self] at hrest
        exact List.cons_ne_nil _ _ hrest.symm
      have hwaiting := Keyboard.waiting_eq hs.inBuffer hne
      rw [hrest] at hwaiting
      obtain ⟨-, hrest'⟩ := List.cons_eq_cons.mp hwaiting
      refine ⟨⟨RingBuffer.next_lt (by decide), hs.inBuffer.nextSpace_lt⟩, trivial, out, hout, ?_⟩
      rw [hrest, hrest', List.append_nil] at horder'
      exact horder'.trans (List.append_assoc out [c] _).symm
  | echo c =>
      have hdone := hs.goto (.done c) (by rw [hpoint]; rfl) trivial
      dsimp only
      split_ifs
      · exact ⟨hdone.inBuffer, trivial, hdone.order⟩
      · exact hdone
  | done c =>
      rw [hpoint] at horder
      have horder' : s.stored = out ++ [c] ++ s.waiting := horder
      refine ⟨hs.inBuffer, trivial, out ++ [c], ?_, ?_⟩
      · dsimp only
        rw [hout, List.map_append]
        rfl
      · exact horder'.trans (congrArg (· ++ s.waiting) (List.append_nil _).symm)

lemma KeyboardSound.initial (h₀ : KeyboardInitial s) : KeyboardSound s := by
  refine ⟨⟨?_, ?_⟩, ?_, [], h₀.returned, ?_⟩
  · rw [h₀.nextChar]
    decide
  · rw [h₀.nextSpace]
    decide
  · rw [h₀.point]
    trivial
  · rw [h₀.stored, h₀.point, Keyboard.waiting, h₀.nextChar, h₀.nextSpace,
      RingBuffer.contents_self]
    rfl

/-- **Every event keeps the invariant.** -/
lemma KeyboardSound.step (hs : KeyboardSound s) (hallowed : KeyboardAllowed s e) :
    KeyboardSound (s.after e) := by
  cases e with
  | interrupt code => exact hs.receive (Keyboard.inputScanCode_receives hs.inBuffer code)
  | setInterrupts enabled => exact ⟨hs.inBuffer, hs.knows, hs.order⟩
  | call =>
      have hpoint : s.point = .outside := hallowed
      exact hs.goto _ (by rw [hpoint]; rfl) trivial
  | run io => exact hs.getchar io

/-- A character is discarded by a scan code only, and only if the buffer is full. -/
lemma KeyboardSound.discarded (hs : KeyboardSound s) (e : KeyboardEvent) :
    (s.after e).discarded = s.discarded ∨ s.waiting.length = cBufsize - 1 := by
  cases e with
  | interrupt code => exact (Keyboard.inputScanCode_receives hs.inBuffer code).discarded
  | setInterrupts enabled => exact Or.inl rfl
  | call => exact Or.inl rfl
  | run io =>
      rw [KeyboardState.after, KeyboardState.getchar]
      cases s.point with
      | data => exact (Keyboard.inputScanCode_receives hs.inBuffer io).discarded
      | test _ | status | echo _ =>
          dsimp only
          split_ifs <;> exact Or.inl rfl
      | outside | take | increment _ | advance _ _ | done _ => exact Or.inl rfl

/-- What has been stored and not been taken out is waiting. -/
lemma KeyboardSound.length_stored (hs : KeyboardSound s) :
    s.stored.length = s.removed + s.waiting.length := by
  obtain ⟨out, hout, horder⟩ := hs.order
  rw [horder, KeyboardState.removed, hout, List.length_append, List.length_append, List.length_map]

end Sound

/-- **The input buffer under interrupts**: the pointers stay inside it; what `c_getchar` returns is
what has been stored, in order, each character once; a character is discarded only where all slots
but one are taken; and `c_input_queue` returns the number of those stored and not taken out. -/
theorem input_buffer_sound {s₀ s : KeyboardState} {es : List KeyboardEvent}
    (h₀ : KeyboardInitial s₀) (h : Transition.Run keyboardStep KeyboardAllowed s₀ es s) :
    (s.nextChar < cBufsize ∧ s.nextSpace < cBufsize)
      ∧ s.returned <+: s.stored.map charToInt
      ∧ (∀ e, KeyboardAllowed s e → (s.after e).discarded = s.discarded
          ∨ s.stored.length = s.removed + (cBufsize - 1))
      ∧ s.inputQueue = s.stored.length - s.removed := by
  have hs : KeyboardSound s := h.invariant (.initial h₀) fun s e s' hs hallowed hstep => by
    obtain rfl := Except.ok.inj hstep
    exact hs.step hallowed
  have hlength := hs.length_stored
  refine ⟨⟨hs.inBuffer.nextChar_lt, hs.inBuffer.nextSpace_lt⟩, ?_, fun e _ => ?_, ?_⟩
  · obtain ⟨out, hout, horder⟩ := hs.order
    rw [hout, horder, List.append_assoc, List.map_append]
    exact List.prefix_append _ _
  · rw [hlength]
    exact (hs.discarded e).imp_right fun hfull => congrArg (s.removed + ·) hfull
  · rw [Keyboard.inputQueue_eq hs.inBuffer, hlength]
    omega

/-- The keyboard after `c_io_init`. -/
def quietKeyboard : KeyboardState where
  toKeyboard := ⟨false, 0xff, fun _ => 0, 0, 0, [], [], []⟩
  console := blankConsole
  interrupts := true
  point := .outside
  returned := []

lemma keyboardInitial_quiet : KeyboardInitial quietKeyboard :=
  ⟨rfl, rfl, rfl, rfl, rfl, rfl, rfl, rfl, rfl⟩

/-- `c_getchar` is called, `a` is typed while it waits, and `b` while it advances its pointer. -/
def typedWhileWaiting : List KeyboardEvent :=
  [.call, .run 0, .interrupt 0x1e, .run 0, .run 0, .run 0, .interrupt 0x30, .run 0, .run 0, .run 0]

theorem input_buffer_sound_typed : ∃ s,
    Transition.Run keyboardStep KeyboardAllowed quietKeyboard typedWhileWaiting s
      ∧ (s.returned, s.stored) = ([charToInt (ascii 'a')], [ascii 'a', ascii 'b'])
      ∧ (s.nextChar < cBufsize ∧ s.nextSpace < cBufsize)
      ∧ s.returned <+: s.stored.map charToInt
      ∧ (∀ e, KeyboardAllowed s e → (s.after e).discarded = s.discarded
          ∨ s.stored.length = s.removed + (cBufsize - 1))
      ∧ s.inputQueue = s.stored.length - s.removed := by
  obtain ⟨s, hrun, hs⟩ := exists_run keyboardStep KeyboardAllowed quietKeyboard typedWhileWaiting
    (f := fun s => (s.returned, s.stored))
    (b := ([charToInt (ascii 'a')], [ascii 'a', ascii 'b'])) (by decide)
  exact ⟨s, hrun, hs, input_buffer_sound keyboardInitial_quiet hrun⟩

end Sp2
