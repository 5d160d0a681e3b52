import Sp2.Kernel.Sio
import Mathlib.Data.List.Range

/-!
A character buffer as a sequence.

* `SioBuffer.contents`: the characters between the `next` and `last` pointers.
* `SioBuffer.Fits`: the pointers are in order and inside the buffer, and the count is their
  distance.
* `Fits.put`, `Fits.drop`, `Fits.rewind`, `Fits.take`: what the operations of `sio.c` do to the
  sequence while no store falls outside the buffer.
-/

namespace Sp2

namespace SioBuffer

variable {b : SioBuffer} {ch : UInt8}

/-- The character at an offset. -/
def byteAt (b : SioBuffer) (i : ℕ) : UInt8 := if h : i < bufSize then b.data ⟨i, h⟩ else 0

/-- The characters between `next` and `last`. -/
def contents (b : SioBuffer) : List UInt8 := (List.range' b.next (b.last - b.next)).map b.byteAt

/-- What `_sio_read` does to the buffer: take a character out, and rewind if it was the
last. -/
def take (b : SioBuffer) : SioBuffer := if b.drop.count < 1 then b.drop.rewind else b.drop

/-- The pointers are in order, inside the buffer, and as far apart as the count says. -/
structure Fits (b : SioBuffer) : Prop where
  next_le : b.next ≤ b.last
  last_le : b.last ≤ bufSize
  count_eq : b.last - b.next = b.count.toNat

lemma Fits.length_contents (h : b.Fits) : b.contents.length = b.count.toNat := by
  rw [contents, List.length_map, List.length_range', h.count_eq]

lemma Fits.last_eq (h : b.Fits) : b.last = b.next + b.count.toNat := by
  have := h.next_le
  have := h.count_eq
  omega

lemma Fits.contents_eq_nil (h : b.Fits) (hcount : b.count = 0) : b.contents = [] := by
  rw [← List.length_eq_zero_iff, h.length_contents, hcount]
  rfl

/-- A character that is left lies inside the buffer. -/
lemma Fits.next_lt (h : b.Fits) (hcount : 0 < b.count) : b.next < bufSize := by
  have hpos : 0 < b.count.toNat := UInt32.lt_iff_toNat_lt.mp hcount
  have := h.last_eq
  have := h.last_le
  omega

/-! ### Storing -/

/-- A store is lost only where it falls outside. -/
lemma overrun_put : (b.put ch).overrun = false ↔ b.overrun = false ∧ b.last < bufSize := by
  simp [put]

lemma byteAt_put_of_ne {i : ℕ} (h : i ≠ b.last) : (b.put ch).byteAt i = b.byteAt i := by
  simp only [byteAt, put]
  split_ifs with hi hlast
  · rw [Function.update_of_ne]
    simpa using h
  · rfl
  · rfl

lemma byteAt_put_last (h : b.last < bufSize) : (b.put ch).byteAt b.last = ch := by
  simp [byteAt, put, h]

/-- **Storing** appends a character. -/
lemma Fits.put (h : b.Fits) (ch : UInt8) (hlast : b.last < bufSize) :
    (b.put ch).Fits ∧ (b.put ch).contents = b.contents ++ [ch] := by
  have hle := h.next_le
  have heq := h.last_eq
  have hcount : (b.count + 1).toNat = b.count.toNat + 1 := by
    have hlt : b.count.toNat + 1 < 2 ^ 32 := by
      have := h.last_le
      simp only [bufSize] at *
      omega
    rw [UInt32.toNat_add]
    exact Nat.mod_eq_of_lt hlt
  refine ⟨⟨?_, hlast, ?_⟩, ?_⟩
  · change b.next ≤ b.last + 1
    omega
  · change b.last + 1 - b.next = (b.count + 1).toNat
    omega
  · have hlen : b.last + 1 - b.next = b.last - b.next + 1 := by omega
    have hend : b.next + 1 * (b.last - b.next) = b.last := by omega
    have hsame : (List.range' b.next (b.last - b.next)).map (b.put ch).byteAt = b.contents := by
      refine List.map_congr_left fun i hi => byteAt_put_of_ne ?_
      rw [List.mem_range'_1] at hi
      omega
    change (List.range' b.next (b.last + 1 - b.next)).map (b.put ch).byteAt = _
    rw [hlen, List.range'_concat, List.map_append, hsame, hend, List.map_singleton,
      byteAt_put_last hlast]

/-! ### Taking out -/

/-- **Taking out** removes the first character, which is the one at `next`. -/
lemma Fits.drop (h : b.Fits) (hcount : 0 < b.count) :
    b.drop.Fits ∧ b.peek :: b.drop.contents = b.contents := by
  have hpos : 0 < b.count.toNat := UInt32.lt_iff_toNat_lt.mp hcount
  have heq := h.last_eq
  have hdrop : (b.count - 1).toNat = b.count.toNat - 1 :=
    UInt32.toNat_sub_of_le _ _ (UInt32.le_iff_toNat_le.mpr hpos)
  refine ⟨⟨?_, h.last_le, ?_⟩, ?_⟩
  · change b.next + 1 ≤ b.last
    omega
  · change b.last - (b.next + 1) = (b.count - 1).toNat
    omega
  · have hlen : b.last - b.next = (b.last - (b.next + 1)) + 1 := by omega
    rw [contents, contents, hlen, List.range'_succ, List.map_cons]
    rfl

/-- **Rewinding** an empty buffer leaves it empty. -/
lemma Fits.rewind (hcount : b.count = 0) : b.rewind.Fits ∧ b.rewind.contents = [] := by
  refine ⟨⟨le_rfl, Nat.zero_le _, ?_⟩, rfl⟩
  change 0 - 0 = b.count.toNat
  rw [hcount]
  rfl

lemma take_overrun : b.take.overrun = b.overrun := by
  rw [take]
  split_ifs <;> rfl

/-- **Reading** removes the first character. -/
lemma Fits.take (h : b.Fits) (hcount : 0 < b.count) :
    b.take.Fits ∧ b.peek :: b.take.contents = b.contents := by
  obtain ⟨hfits, hcontents⟩ := h.drop hcount
  rw [SioBuffer.take]
  split_ifs with hlast
  · have hzero : b.drop.count = 0 := by
      rw [← UInt32.toNat_inj]
      have := UInt32.lt_iff_toNat_lt.mp hlast
      simp only [UInt32.reduceToNat] at this ⊢
      omega
    obtain ⟨hrewind, hnil⟩ := Fits.rewind hzero
    refine ⟨hrewind, ?_⟩
    rw [← hcontents, hnil, hfits.contents_eq_nil hzero]
  · exact ⟨hfits, hcontents⟩

lemma fits_init : SioBuffer.init.Fits ∧ SioBuffer.init.contents = [] :=
  ⟨⟨le_rfl, Nat.zero_le _, rfl⟩, rfl⟩

end SioBuffer

namespace Sio

variable {s : Sio}

lemma sioRead_some (h : 0 < s.inbuffer.count) :
    s.sioRead = (some s.inbuffer.peek, { s with inbuffer := s.inbuffer.take }) := by
  rw [sioRead, if_pos h]
  rfl

lemma sioRead_none (h : s.inbuffer.count = 0) : s.sioRead = (none, s) := by
  rw [sioRead, h, if_neg (by decide)]

/-- Output leaves the input buffer alone. -/
@[simp] lemma sioSend_inbuffer (ch : UInt8) : (s.sioSend ch).inbuffer = s.inbuffer := by
  rw [sioSend]
  split_ifs <;> rfl

@[simp] lemma sioWrite_inbuffer (ch : UInt32) : (s.sioWrite ch).inbuffer = s.inbuffer := by
  simp only [sioWrite, sioSend_inbuffer]
  split_ifs <;> simp

@[simp] lemma txInterrupt_inbuffer : s.txInterrupt.inbuffer = s.inbuffer := by
  rw [txInterrupt]
  split_ifs <;> rfl

end Sio

end Sp2
