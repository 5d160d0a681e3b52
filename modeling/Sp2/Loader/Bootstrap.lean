import Sp2.Loader.BuildImage

/-!
`bootstrap.S`: reading the programs from the disk, in 16-bit real mode.

* `physical`, `loadWord`, `transfer`: memory by segment and offset.
* `Position.next`: the sector after another one, with 18 sectors a track, two heads and 80 tracks.
* `readprog`, `nextblock`: the two loops. `bootstrap` runs them on a disk.

The BIOS is taken to read every sector at the first attempt. The code of the bootstrap, its
variables and its stack are not part of the modelled memory's contents: they are as they were
assembled, as long as nothing is loaded over them (`Reserved`). The results on what is loaded are
for loads that are clear of this memory.
-/

namespace Sp2.Loader

/-! ### Memory -/

/-- The address of an offset in a segment. -/
def physical (seg off : UInt16) : ℕ := (16 * seg.toNat + off.toNat) % 2 ^ 20

/-- A word of memory. -/
def loadWord (mem : ℕ → UInt8) (seg off : UInt16) : UInt16 :=
  UInt16.ofNat
    ((mem (physical seg off)).toNat + 2 ^ 8 * (mem (physical seg (off + 1))).toNat)

/-- Copy bytes to memory. -/
def transfer (seg off : UInt16) : List UInt8 → (ℕ → UInt8) → ℕ → UInt8
  | [], mem => mem
  | b :: bs, mem => transfer seg (off + 1) bs (Function.update mem (physical seg off) b)

/-- `BOOT_SEGMENT`. -/
def bootSegment : UInt16 := 0x07c0

/-- `firstcount`. -/
def firstcount : UInt16 := 1024 - 2

/-! ### The disk -/

/-- The words `sec` and `head`: where the next sector is read from. -/
structure Position where
  track : UInt8
  head : UInt8
  sector : UInt8
  deriving DecidableEq

/-- `sec` and `head` as they are assembled. -/
def Position.start : Position := ⟨0, 0, 2⟩

/-- Move on to the next sector, unless the disk is at its end. -/
def Position.next (p : Position) : Option Position :=
  let sector := p.sector + 1
  if sector ≠ 19 then some { p with sector := sector }
  else
    let head := p.head + 1
    if head ≠ 2 then some ⟨p.track, head, 1⟩
    else
      let track := p.track + 1
      if track ≠ 80 then some ⟨track, 0, 1⟩ else none

/-- The number of a sector on the disk, from zero on. -/
def Position.lba (p : Position) : ℕ :=
  (p.track.toNat * 2 + p.head.toNat) * 18 + p.sector.toNat - 1

/-- A sector of a disk image. -/
def sectorAt (image : List UInt8) (lba : ℕ) : List UInt8 :=
  (image.drop (lba * sectorSize)).take sectorSize

/-! ### Loading -/

/-- The memory of the BIOS, and that of the bootstrap: its code, its table and its stack. -/
def Reserved (a : ℕ) : Prop := a < 0x500 ∨ (0x7c00 ≤ a ∧ a < 0xbc00)

/-- What the loops work on: the words `sec` and `head`, and the memory that is not reserved. -/
structure LoadState where
  pos : Position
  mem : ℕ → UInt8

/-- How a loop ends: it comes to its end, it stops for good with `err_toobig`, or it is cut off
after a given number of rounds. -/
inductive Outcome (α : Type)
  | done (a : α)
  | tooBig
  | cutOff

/-- Go on after a loop that has come to its end. -/
def Outcome.bind {α β : Type} (f : α → Outcome β) : Outcome α → Outcome β
  | done a => f a
  | tooBig => tooBig
  | cutOff => cutOff

@[simp] lemma Outcome.bind_done {α β : Type} {f : α → Outcome β} {a : α} :
    (Outcome.done a).bind f = f a := rfl

lemma Outcome.bind_eq_done {α β : Type} {f : α → Outcome β} {x : Outcome α} {b : β} :
    x.bind f = .done b ↔ ∃ a, x = .done a ∧ f a = .done b := by
  cases x with
  | done a => exact ⟨fun h => ⟨a, rfl, h⟩, by rintro ⟨a, ⟨rfl⟩, h⟩; exact h⟩
  | tooBig => exact ⟨nofun, by rintro ⟨a, h, -⟩; exact absurd h nofun⟩
  | cutOff => exact ⟨nofun, by rintro ⟨a, h, -⟩; exact absurd h nofun⟩

/-- The number of sectors on the disk. -/
abbrev diskSectors : ℕ := 2880

/-- Where the sector after the one at `es:bx` goes. -/
def advance (es bx : UInt16) : UInt16 × UInt16 :=
  if bx = 0xfe00 then (es + 0x1000, 0) else (es, bx + 512)

/-- `readprog`: read `ax` sectors to `es:bx` and after it, at least one. -/
def readprog (image : List UInt8) :
    ℕ → UInt16 → UInt16 → UInt16 → LoadState → Outcome (LoadState × List (List UInt8))
  | 0, _, _, _, _ => .cutOff
  | fuel + 1, ax, es, bx, s =>
      let sector := sectorAt image s.pos.lba
      let mem := transfer es bx sector s.mem
      let (es, bx) := advance es bx
      match s.pos.next with
      | none => .tooBig
      | some pos =>
          -- `jg` after `decw`, which sets the flags for a difference of signed words
          if 1 < ax.toInt16 then
            (readprog image fuel (ax - 1) es bx ⟨pos, mem⟩).bind fun (s, sectors) =>
              .done (s, sector :: sectors)
          else .done (⟨pos, mem⟩, [sector])

/-- What `nextblock` has found in the table for one program, and the sectors it has read. -/
structure Block where
  count : UInt16
  segment : UInt16
  offset : UInt16
  sectors : List (List UInt8)

/-- `nextblock`: read the programs whose entries are at `di` and below. -/
def nextblock (image : List UInt8) :
    ℕ → UInt16 → LoadState → Outcome (LoadState × List Block)
  | 0, _, _ => .cutOff
  | fuel + 1, di, s =>
      let ax := loadWord s.mem bootSegment di
      if ax = 0 then .done (s, [])
      else
        let es := loadWord s.mem bootSegment (di - 2)
        let bx := loadWord s.mem bootSegment (di - 4)
        (readprog image diskSectors ax es bx s).bind fun (s, sectors) =>
          (nextblock image fuel (di - 6) s).bind fun (s, blocks) =>
            .done (s, ⟨ax, es, bx, sectors⟩ :: blocks)

/-- The bootstrap up to `done_loading`. The BIOS has put the first sector to `0000:7C00`; the
second one is read to `0000:7E00`. -/
def bootstrap (image : List UInt8) (mem : ℕ → UInt8) : Outcome (LoadState × List Block) :=
  (readprog image diskSectors 1 0 0x7e00
    ⟨.start, transfer bootSegment 0 (sectorAt image 0) mem⟩).bind fun (s, _) =>
      nextblock image diskSectors firstcount s

/-! ### Positions -/

/-- The positions of the sectors on the disk. -/
structure Position.Valid (p : Position) : Prop where
  track_lt : p.track.toNat < 80
  head_lt : p.head.toNat < 2
  sector_pos : 0 < p.sector.toNat
  sector_le : p.sector.toNat ≤ 18

lemma Position.Valid.lba_lt {p : Position} (h : p.Valid) : p.lba < diskSectors := by
  obtain ⟨htrack, hhead, hpos, hle⟩ := h
  rw [Position.lba]
  simp only [diskSectors]
  omega

/-- The sectors come one after another, up to the last one of the disk. -/
lemma Position.Valid.next_eq {p : Position} (h : p.Valid) :
    match p.next with
    | none => p.lba + 1 = diskSectors
    | some q => q.Valid ∧ q.lba = p.lba + 1 := by
  obtain ⟨htrack, hhead, hpos, hle⟩ := h
  have hsector : (p.sector + 1).toNat = p.sector.toNat + 1 := by
    rw [UInt8.toNat_add, UInt8.toNat_one]
    omega
  have hheadNext : (p.head + 1).toNat = p.head.toNat + 1 := by
    rw [UInt8.toNat_add, UInt8.toNat_one]
    omega
  have htrackNext : (p.track + 1).toNat = p.track.toNat + 1 := by
    rw [UInt8.toNat_add, UInt8.toNat_one]
    omega
  by_cases hsectors : p.sector + 1 ≠ 19
  · have hlt : p.sector.toNat + 1 ≠ 19 := fun heq =>
      hsectors (UInt8.toNat_inj.mp (hsector.trans heq))
    simp only [Position.next, if_pos hsectors, Position.lba, hsector]
    refine ⟨⟨htrack, hhead, ?_, ?_⟩, by omega⟩ <;> simp only [hsector] <;> omega
  have hlast : p.sector.toNat + 1 = 19 := by
    rw [← hsector, not_not.mp hsectors]
    rfl
  by_cases hheads : p.head + 1 ≠ 2
  · have hlt : p.head.toNat + 1 ≠ 2 := fun heq =>
      hheads (UInt8.toNat_inj.mp (hheadNext.trans heq))
    simp only [Position.next, if_neg hsectors, if_pos hheads, Position.lba, hheadNext]
    refine ⟨⟨htrack, ?_, ?_, ?_⟩, ?_⟩ <;>
      simp only [hheadNext, UInt8.toNat_one] <;> omega
  have hlastHead : p.head.toNat + 1 = 2 := by
    rw [← hheadNext, not_not.mp hheads]
    rfl
  by_cases htracks : p.track + 1 ≠ 80
  · have hlt : p.track.toNat + 1 ≠ 80 := fun heq =>
      htracks (UInt8.toNat_inj.mp (htrackNext.trans heq))
    simp only [Position.next, if_neg hsectors, if_neg hheads, if_pos htracks, Position.lba,
      htrackNext]
    refine ⟨⟨?_, ?_, ?_, ?_⟩, ?_⟩ <;>
      simp only [htrackNext, UInt8.toNat_one, UInt8.toNat_zero] <;> omega
  have hlastTrack : p.track.toNat + 1 = 80 := by
    rw [← htrackNext, not_not.mp htracks]
    rfl
  simp only [Position.next, if_neg hsectors, if_neg hheads, if_neg htracks, Position.lba,
    diskSectors]
  omega

/-- There is a next sector, or the disk is at its end. -/
lemma Position.Valid.next_cases {p : Position} (h : p.Valid) :
    (p.next = none ∧ p.lba + 1 = diskSectors) ∨
      ∃ q, p.next = some q ∧ q.Valid ∧ q.lba = p.lba + 1 := by
  have hnext := h.next_eq
  cases hq : p.next with
  | none =>
      rw [hq] at hnext
      exact Or.inl ⟨rfl, hnext⟩
  | some q =>
      rw [hq] at hnext
      exact Or.inr ⟨q, rfl, hnext⟩

/-! ### Transfers -/

/-- The bytes elsewhere stay. -/
lemma transfer_of_ne {seg off : UInt16} {bytes : List UInt8} {mem : ℕ → UInt8} {a : ℕ}
    (h : ∀ i < bytes.length, a ≠ physical seg (off + UInt16.ofNat i)) :
    transfer seg off bytes mem a = mem a := by
  induction bytes generalizing off mem with
  | nil => rfl
  | cons b bytes ih =>
      have hfirst : a ≠ physical seg off := by simpa using h 0 (Nat.succ_pos _)
      rw [transfer, ih fun i hi => ?_, Function.update_of_ne hfirst]
      have hnext := h (i + 1) (Nat.succ_lt_succ hi)
      rwa [show off + UInt16.ofNat (i + 1) = off + 1 + UInt16.ofNat i by
        rw [← UInt16.toNat_inj]
        simp only [UInt16.toNat_add, UInt16.toNat_ofNat', UInt16.toNat_one]
        omega] at hnext

/-- The bytes that are copied, when neither the offset nor the address wraps around. -/
lemma transfer_apply (seg off : UInt16) (bytes : List UInt8) (mem : ℕ → UInt8) {i : ℕ}
    (hoff : off.toNat + bytes.length < 2 ^ 16)
    (hphys : 16 * seg.toNat + off.toNat + bytes.length < 2 ^ 20) (hi : i < bytes.length) :
    transfer seg off bytes mem (16 * seg.toNat + off.toNat + i) = bytes[i] := by
  induction bytes generalizing off mem i with
  | nil => exact absurd hi (Nat.not_lt_zero i)
  | cons b bytes ih =>
      rw [List.length_cons] at hoff hphys hi
      have hnext : (off + 1).toNat = off.toNat + 1 := by
        rw [UInt16.toNat_add, UInt16.toNat_one]
        omega
      rw [transfer]
      cases i with
      | zero =>
          have hfirst : 16 * seg.toNat + off.toNat + 0 = physical seg off := by
            rw [physical]
            omega
          rw [hfirst, transfer_of_ne fun k hk => ?_]
          · simp
          · have hlater : (off + 1 + UInt16.ofNat k).toNat = off.toNat + 1 + k := by
              rw [UInt16.toNat_add, UInt16.toNat_ofNat', hnext]
              omega
            rw [physical, physical, hlater]
            omega
      | succ i =>
          have hlater := ih (off + 1) (Function.update mem (physical seg off) b) (i := i)
            (by omega) (by omega) (by omega)
          rw [hnext] at hlater
          rw [show 16 * seg.toNat + off.toNat + (i + 1) = 16 * seg.toNat + (off.toNat + 1) + i by
            omega]
          exact hlater

/-- Where `readprog` puts so many sectors. -/
def loads : ℕ → UInt16 → UInt16 → List (UInt16 × UInt16)
  | 0, _, _ => []
  | n + 1, es, bx => (es, bx) :: loads n (advance es bx).1 (advance es bx).2

/-- None of the bytes of some sectors is put to the address. -/
def MissedBy (a : ℕ) (blocks : List (UInt16 × UInt16)) : Prop :=
  ∀ b ∈ blocks, ∀ i < sectorSize, a ≠ physical b.1 (b.2 + UInt16.ofNat i)

/-! ### Reading a program -/

/-- How many sectors `readprog` reads. -/
def rounds (ax : UInt16) : ℕ := if 1 < ax.toInt16 then ax.toNat else 1

lemma one_lt_toInt16 {ax : UInt16} : 1 < ax.toInt16 ↔ 1 < ax.toNat ∧ ax.toNat < 2 ^ 15 := by
  rw [Int16.lt_iff_toInt_lt]
  change 1 < ax.toBitVec.toInt ↔ _
  rw [BitVec.toInt_eq_toNat_cond, UInt16.toNat_toBitVec]
  have := ax.toNat_lt
  split_ifs <;> omega

lemma rounds_pred {ax : UInt16} (h : 1 < ax.toInt16) : rounds ax = rounds (ax - 1) + 1 := by
  rw [rounds, rounds, if_pos h]
  rw [one_lt_toInt16] at h
  have hpred : (ax - 1).toNat = ax.toNat - 1 := by
    rw [UInt16.toNat_sub, UInt16.toNat_one]
    have := ax.toNat_lt
    omega
  by_cases hmore : 1 < (ax - 1).toInt16
  · rw [if_pos hmore, hpred]
    omega
  · rw [if_neg hmore]
    rw [one_lt_toInt16, hpred] at hmore
    omega

/-- At least one sector is read. -/
lemma rounds_pos (ax : UInt16) : 1 ≤ rounds ax := by
  rw [rounds]
  split_ifs with h
  · exact Nat.le_of_lt (one_lt_toInt16.mp h).1
  · exact Nat.le_refl 1

/-- The sectors of a range. -/
def sectorsAt (image : List UInt8) (lba n : ℕ) : List (List UInt8) :=
  (List.range n).map fun i => sectorAt image (lba + i)

lemma sectorsAt_succ (image : List UInt8) (lba n : ℕ) :
    sectorsAt image lba (n + 1) = sectorAt image lba :: sectorsAt image (lba + 1) n := by
  simp [sectorsAt, List.range_succ_eq_map, Function.comp_def, Nat.add_assoc, Nat.add_comm 1]

/-- `readprog` reads its sectors, or stops at the end of the disk. -/
lemma readprog_eq (image : List UInt8) (fuel : ℕ) (ax es bx : UInt16) {s : LoadState}
    (hs : s.pos.Valid) (hfuel : diskSectors ≤ fuel + s.pos.lba) :
    (readprog image fuel ax es bx s = .tooBig ∧ diskSectors ≤ s.pos.lba + rounds ax) ∨
      ∃ s' : LoadState,
        readprog image fuel ax es bx s = .done (s', sectorsAt image s.pos.lba (rounds ax)) ∧
          s'.pos.Valid ∧ s'.pos.lba = s.pos.lba + rounds ax ∧
          ∀ a, MissedBy a (loads (rounds ax) es bx) → s'.mem a = s.mem a := by
  induction fuel generalizing ax es bx s with
  | zero =>
      have := hs.lba_lt
      omega
  | succ fuel ih =>
      have hpos := rounds_pos ax
      have hkept {a : ℕ} (ha : ∀ i < sectorSize, a ≠ physical es (bx + UInt16.ofNat i)) :
          transfer es bx (sectorAt image s.pos.lba) s.mem a = s.mem a := by
        refine transfer_of_ne fun i hi => ha i ?_
        rw [sectorAt, List.length_take] at hi
        omega
      rw [readprog]
      obtain ⟨hnone, hend⟩ | ⟨q, hq, hvalid, hlba⟩ := hs.next_cases
      · simp only [hnone]
        exact Or.inl ⟨trivial, by omega⟩
      simp only [hq]
      by_cases hmore : 1 < ax.toInt16
      · rw [if_pos hmore]
        have hcount := rounds_pred hmore
        have hnext := ih (ax - 1) (advance es bx).1 (advance es bx).2
          (s := ⟨q, transfer es bx (sectorAt image s.pos.lba) s.mem⟩) hvalid
          (by simp only [hlba]; omega)
        simp only [hlba] at hnext
        obtain ⟨hbig, hend⟩ | ⟨s', hdone, hvalid', hlba', hmem⟩ := hnext
        · rw [hbig]
          exact Or.inl ⟨rfl, by omega⟩
        · rw [hdone, hcount, sectorsAt_succ]
          refine Or.inr ⟨s', rfl, hvalid', by omega, fun a ha => ?_⟩
          rw [hmem a fun b hb => ha b (List.mem_cons_of_mem _ hb)]
          exact hkept (ha (es, bx) (List.mem_cons_self ..))
      · have hone : rounds ax = 1 := by rw [rounds, if_neg hmore]
        rw [if_neg hmore, hone]
        refine Or.inr ⟨_, rfl, hvalid, hlba, fun a ha => ?_⟩
        exact hkept (ha (es, bx) (List.mem_cons_self ..))

/-- The loop over the programs comes to its end or to that of the disk: each program takes a
sector. -/
lemma nextblock_ends {image : List UInt8} {fuel : ℕ} {di : UInt16} {s : LoadState}
    (hs : s.pos.Valid) (hfuel : diskSectors ≤ fuel + s.pos.lba) :
    nextblock image fuel di s ≠ .cutOff := by
  induction fuel generalizing di s with
  | zero =>
      have := hs.lba_lt
      omega
  | succ fuel ih =>
      rw [nextblock]
      by_cases hzero : loadWord s.mem bootSegment di = 0
      · rw [if_pos hzero]
        exact nofun
      simp only [if_neg hzero]
      obtain ⟨hbig, -⟩ | ⟨s', hdone, hvalid, hlba, -⟩ :=
        readprog_eq image diskSectors (loadWord s.mem bootSegment di)
          (loadWord s.mem bootSegment (di - 2)) (loadWord s.mem bootSegment (di - 4)) hs
          (Nat.le_add_right _ _)
      · rw [hbig]
        exact nofun
      have hpos := rounds_pos (loadWord s.mem bootSegment di)
      rw [hdone, Outcome.bind_done]
      cases hrest : nextblock image fuel (di - 6) s' with
      | done r => exact nofun
      | tooBig => exact nofun
      | cutOff => exact absurd hrest (ih hvalid (by omega))

end Sp2.Loader
