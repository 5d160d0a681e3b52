import Sp2.Loader.Bootstrap

/-!
`readprog` in `bootstrap.S` with a BIOS that may fail.

* `Attempt`, `retry`: the loop over at most three attempts to read a sector.
* `readprogRetry`: `readprog` with these attempts, and with the places it asks the BIOS to read to.
* `retry_spec`: with a success among three attempts the sector is read, and nothing else changes.
* `readprogRetry_first`: if every first attempt succeeds, this is `readprog`.

The BIOS stores a sector into consecutive bytes from the linear address of `es:bx` on.
-/

namespace Sp2.Loader

/-- What comes of a call of the BIOS for one sector. One that fails may have stored some bytes into
the buffer. -/
inductive Attempt
  | success
  | failure (bytes : List UInt8)

/-- Store bytes from an address on. -/
def storeAt (a : ℕ) (bytes : List UInt8) (mem : ℕ → UInt8) : ℕ → UInt8 := fun x =>
  if x < a then mem x else (bytes[x - a]?).getD (mem x)

/-- The loop at `retry`, with `cx` attempts left and the given one next: memory after a success,
unless it freezes with `err_diskfail`. -/
def retry (tries : ℕ → Attempt) (a : ℕ) (sector : List UInt8) :
    ℕ → ℕ → (ℕ → UInt8) → Option (ℕ → UInt8)
  | 0, _, _ => none
  | cx + 1, i, mem =>
      match tries i with
      | .success => some (storeAt a sector mem)
      | .failure bytes => retry tries a sector cx (i + 1) (storeAt a (bytes.take sectorSize) mem)

/-- How `readprog` ends other than by returning: it freezes with `err_diskfail` or `err_toobig`, or
is cut off. -/
inductive Freeze
  | diskFail
  | tooBig
  | cutOff
  deriving DecidableEq

/-- A sector that has been read: the linear address of its buffer, and its number on the disk. -/
structure Read where
  address : ℕ
  lba : ℕ
  deriving DecidableEq

/-- The linear address of `es:bx`. -/
def linear (es bx : UInt16) : ℕ := 16 * es.toNat + bx.toNat

/-- `readprog` with a BIOS whose attempts at a sector are given. -/
def readprogRetry (image : List UInt8) (bios : ℕ → ℕ → Attempt) :
    ℕ → UInt16 → UInt16 → UInt16 → LoadState → Except Freeze (LoadState × List Read)
  | 0, _, _, _, _ => .error .cutOff
  | fuel + 1, ax, es, bx, s =>
      match retry (bios s.pos.lba) (linear es bx) (sectorAt image s.pos.lba) 3 0 s.mem with
      | none => .error .diskFail
      | some mem =>
          let read : Read := ⟨linear es bx, s.pos.lba⟩
          let (es, bx) := advance es bx
          match s.pos.next with
          | none => .error .tooBig
          | some pos =>
              if 1 < ax.toInt16 then
                (readprogRetry image bios fuel (ax - 1) es bx ⟨pos, mem⟩).map fun (s, reads) =>
                  (s, read :: reads)
              else .ok (⟨pos, mem⟩, [read])

/-! ### The attempts at a sector -/

lemma storeAt_apply {a i : ℕ} {bytes : List UInt8} {mem : ℕ → UInt8} {b : UInt8}
    (h : bytes[i]? = some b) : storeAt a bytes mem (a + i) = b := by
  rw [storeAt, if_neg (Nat.not_lt.mpr (Nat.le_add_right a i)), Nat.add_sub_cancel_left, h,
    Option.getD_some]

lemma storeAt_of_notMem {a x : ℕ} {bytes : List UInt8} {mem : ℕ → UInt8}
    (h : x < a ∨ a + bytes.length ≤ x) : storeAt a bytes mem x = mem x := by
  rw [storeAt]
  split_ifs with hx
  · rfl
  · rw [List.getElem?_eq_none (by omega), Option.getD_none]

lemma length_sectorAt_le (image : List UInt8) (lba : ℕ) :
    (sectorAt image lba).length ≤ sectorSize := by
  rw [sectorAt, List.length_take]
  exact Nat.min_le_left _ _

/-- **The attempts at a sector**: if one of those that are left succeeds, the sector is read, and
the bytes outside of its buffer stay. By induction on the attempts that are left. -/
lemma retry_spec (tries : ℕ → Attempt) (a : ℕ) {sector : List UInt8}
    (hlen : sector.length ≤ sectorSize) : ∀ (cx i : ℕ) (mem : ℕ → UInt8),
    (∃ t < cx, tries (i + t) = .success) → ∃ mem', retry tries a sector cx i mem = some mem'
      ∧ (∀ k b, sector[k]? = some b → mem' (a + k) = b)
      ∧ ∀ x, x < a ∨ a + sectorSize ≤ x → mem' x = mem x
  | 0, _, _, h => absurd h (by simp)
  | cx + 1, i, mem, ⟨t, ht, hsuccess⟩ => by
      rw [retry]
      cases hi : tries i with
      | success =>
          exact ⟨_, rfl, fun k b hb => storeAt_apply hb, fun x hx => storeAt_of_notMem (by omega)⟩
      | failure bytes =>
          obtain ⟨t, rfl⟩ : ∃ t', t = t' + 1 := Nat.exists_eq_succ_of_ne_zero fun h₀ => by
            rw [h₀, Nat.add_zero, hi] at hsuccess
            exact absurd hsuccess (by simp)
          rw [← Nat.add_assoc, Nat.add_right_comm] at hsuccess
          obtain ⟨mem', hretry, hstored, hkept⟩ := retry_spec tries a hlen cx (i + 1)
            (storeAt a (bytes.take sectorSize) mem) ⟨t, by omega, hsuccess⟩
          refine ⟨mem', hretry, hstored, fun x hx => ?_⟩
          rw [hkept x hx, storeAt_of_notMem]
          have := List.length_take_le sectorSize bytes
          omega

/-- If every first attempt succeeds, the sectors are those that `readprog` reads. -/
lemma readprogRetry_first {image : List UInt8} {bios : ℕ → ℕ → Attempt}
    (hbios : ∀ lba, bios lba 0 = .success) : ∀ (fuel : ℕ) (ax es bx : UInt16)
    (s t s' : LoadState) (reads : List Read), s.pos = t.pos →
    readprogRetry image bios fuel ax es bx s = .ok (s', reads) →
    ∃ t', readprog image fuel ax es bx t = .done (t', reads.map fun r => sectorAt image r.lba)
      ∧ s'.pos = t'.pos
  | 0, _, _, _, _, _, _, _, _, h => absurd h (by simp [readprogRetry])
  | fuel + 1, ax, es, bx, s, t, s', reads, hpos, h => by
      have hretry : retry (bios s.pos.lba) (linear es bx) (sectorAt image s.pos.lba) 3 0 s.mem
          = some (storeAt (linear es bx) (sectorAt image s.pos.lba) s.mem) := by
        rw [retry, hbios]
      rw [readprogRetry, hretry] at h
      rw [readprog, ← hpos]
      cases hnext : s.pos.next with
      | none => simp [hnext] at h
      | some pos =>
          simp only [hnext] at h ⊢
          by_cases hmore : 1 < ax.toInt16
          · rw [if_pos hmore] at h ⊢
            cases hrest : readprogRetry image bios fuel (ax - 1) (advance es bx).1 (advance es bx).2
                ⟨pos, storeAt (linear es bx) (sectorAt image s.pos.lba) s.mem⟩ with
            | error e => simp [hrest, Except.map] at h
            | ok r =>
                simp only [hrest, Except.map, Except.ok.injEq, Prod.mk.injEq] at h
                obtain ⟨rfl, rfl⟩ := h
                obtain ⟨t', hdone, hpos'⟩ := readprogRetry_first hbios fuel _ _ _
                  ⟨pos, storeAt (linear es bx) (sectorAt image s.pos.lba) s.mem⟩
                  ⟨pos, transfer es bx (sectorAt image s.pos.lba) t.mem⟩ r.1 r.2 rfl hrest
                exact ⟨t', by rw [hdone]; rfl, hpos'⟩
          · rw [if_neg hmore] at h ⊢
            simp only [Except.ok.injEq, Prod.mk.injEq] at h
            obtain ⟨rfl, rfl⟩ := h
            exact ⟨_, rfl, rfl⟩

end Sp2.Loader
