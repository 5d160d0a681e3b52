import Sp2.Loader.Retries

/-!
Where the bootstrap loads the sectors of a program.

* `readsFrom`: the sectors that `readprog` reads, and where it asks the BIOS to put them.
* `readprogRetry_spec`: with a success among three attempts at each sector `readprog` reads these,
  and returns unless the last of them is the last one of the disk.
* `Straight`, `readsFrom_iff`: the addresses follow one another **exactly if the offset does not
  wrap around before the last sector, or it is a multiple of the sector size and the segment does
  not wrap around**. The test for the end of a segment is for one offset only.
* `ReadsClear`: no sector goes to the reserved memory, where the bootstrap itself is.
* `program_loaded`: with a sector of the disk left behind the last one, this is when a program that
  is clear of the reserved memory is loaded where it should be.
-/

namespace Sp2.Loader

/-! ### The statement -/

/-- `n` sectors are loaded one after another from `es:bx` on, from the position of the state on,
whatever attempts of the BIOS fail, the position of the next sector is saved, and the reserved
memory is as it was. -/
def Loaded (image : List UInt8) (bios : ℕ → ℕ → Attempt) (n es bx : UInt16) (s : LoadState) :
    Prop :=
  ∃ s', readprogRetry image bios diskSectors n es bx s = .ok (s', (List.range n.toNat).map fun k =>
      ⟨linear es bx + sectorSize * k, s.pos.lba + k⟩)
    ∧ (∀ k < n.toNat, ∀ i b, (sectorAt image (s.pos.lba + k))[i]? = some b →
      s'.mem (linear es bx + sectorSize * k + i) = b)
    ∧ s'.pos.Valid ∧ s'.pos.lba = s.pos.lba + n.toNat ∧ ∀ a, Reserved a → s'.mem a = s.mem a

/-- The offset does not wrap around before the last of `n` sectors, or it is a multiple of the
sector size and the segment does not wrap around. -/
def Straight (n : ℕ) (es bx : UInt16) : Prop :=
  bx.toNat + sectorSize * (n - 1) < 2 ^ 16 ∨
    bx.toNat % sectorSize = 0
      ∧ es.toNat + 0x1000 * ((bx.toNat + sectorSize * (n - 1)) / 2 ^ 16) < 2 ^ 16

instance (n : ℕ) (es bx : UInt16) : Decidable (Straight n es bx) :=
  inferInstanceAs (Decidable (_ ∨ _))

/-! ### The addresses -/

/-- The sectors that are read from `es:bx` and a sector of the disk on. -/
def readsFrom : ℕ → UInt16 → UInt16 → ℕ → List Read
  | 0, _, _, _ => []
  | n + 1, es, bx, lba =>
      ⟨linear es bx, lba⟩ :: readsFrom n (advance es bx).1 (advance es bx).2 (lba + 1)

/-- No byte of these sectors is put to the reserved memory, the address line 20 being off. -/
def ReadsClear (reads : List Read) : Prop :=
  ∀ r ∈ reads, ∀ i < sectorSize, ¬ Reserved ((r.address + i) % 2 ^ 20)

section Addresses

variable {es bx : UInt16} {n lba : ℕ}

/-- The address after the one of a sector is that of the next one unless the offset or the segment
wraps around. -/
lemma linear_advance : linear (advance es bx).1 (advance es bx).2 = linear es bx + sectorSize ↔
    bx.toNat < 0xfe00 ∨ bx.toNat = 0xfe00 ∧ es.toNat < 0xf000 := by
  have hes := es.toNat_lt
  have hbx := bx.toNat_lt
  rw [advance]
  split_ifs with h
  · have hoff : bx.toNat = 0xfe00 := congrArg UInt16.toNat h
    have hseg : (es + 0x1000).toNat = (es.toNat + 0x1000) % 2 ^ 16 := UInt16.toNat_add _ _
    simp only [linear, hseg, hoff, sectorSize, UInt16.toNat_zero, true_and]
    omega
  · have hoff : bx.toNat ≠ 0xfe00 := fun h' => h (UInt16.toNat_inj.mp h')
    have hnext : (bx + 512).toNat = (bx.toNat + 512) % 2 ^ 16 := UInt16.toNat_add _ _
    simp only [linear, hnext, sectorSize]
    omega

/-- A sector more goes straight on if the first step does and the rest does. -/
lemma straight_succ : Straight (n + 2) es bx ↔
    (bx.toNat < 0xfe00 ∨ bx.toNat = 0xfe00 ∧ es.toNat < 0xf000)
      ∧ Straight (n + 1) (advance es bx).1 (advance es bx).2 := by
  have hes := es.toNat_lt
  have hbx := bx.toNat_lt
  rw [advance]
  split_ifs with h
  · have hoff : bx.toNat = 0xfe00 := congrArg UInt16.toNat h
    have hseg : (es + 0x1000).toNat = (es.toNat + 0x1000) % 2 ^ 16 := UInt16.toNat_add _ _
    simp only [Straight, hseg, hoff, sectorSize, UInt16.toNat_zero, true_and]
    omega
  · have hoff : bx.toNat ≠ 0xfe00 := fun h' => h (UInt16.toNat_inj.mp h')
    have hnext : (bx + 512).toNat = (bx.toNat + 512) % 2 ^ 16 := UInt16.toNat_add _ _
    simp only [Straight, hnext, sectorSize]
    omega

/-- **Where the sectors go**, by induction on their number: one after another exactly if nothing
wraps around. -/
lemma readsFrom_iff : ∀ (n : ℕ) (es bx : UInt16) (lba : ℕ),
    (readsFrom (n + 1) es bx lba = (List.range (n + 1)).map fun k =>
        ⟨linear es bx + sectorSize * k, lba + k⟩) ↔ Straight (n + 1) es bx
  | 0, es, bx, lba => by
      have hbx := bx.toNat_lt
      simp only [readsFrom, Straight]
      simp [hbx]
  | n + 1, es, bx, lba => by
      rw [straight_succ, ← linear_advance, ← readsFrom_iff n _ _ (lba + 1), readsFrom,
        List.range_succ_eq_map, List.map_cons, List.map_map, List.cons.injEq]
      -- the rest of the list, once the address of its first sector is known
      have hrest : linear (advance es bx).1 (advance es bx).2 = linear es bx + sectorSize →
          (List.range (n + 1)).map ((fun k => (⟨linear es bx + sectorSize * k, lba + k⟩ : Read))
              ∘ Nat.succ)
            = (List.range (n + 1)).map fun k =>
              ⟨linear (advance es bx).1 (advance es bx).2 + sectorSize * k, lba + 1 + k⟩ := by
        intro h
        refine List.map_congr_left fun k _ => ?_
        simp only [Function.comp_apply, h, Nat.succ_eq_add_one, Nat.mul_add, Nat.mul_one,
          Read.mk.injEq]
        omega
      constructor
      · rintro ⟨-, h⟩
        have hhead := congrArg (fun l => (l.head?).map Read.address) h
        rw [readsFrom, List.range_succ_eq_map] at hhead
        have hfirst : linear (advance es bx).1 (advance es bx).2 = linear es bx + sectorSize := by
          simpa using hhead
        exact ⟨hfirst, h.trans (hrest hfirst)⟩
      · rintro ⟨hfirst, h⟩
        exact ⟨by simp, h.trans (hrest hfirst).symm⟩

end Addresses

/-! ### The loop -/

/-- **What `readprog` does**, by induction on the rounds: with a success among three attempts at
each sector it reads the sectors from the position on, and freezes if the last one is the last of
the disk. Addresses below the first one stay, and the bytes of the sectors are where they were read
to, if these places follow one another. -/
lemma readprogRetry_spec (image : List UInt8) (bios : ℕ → ℕ → Attempt) :
    ∀ (fuel n : ℕ) (ax es bx : UInt16) (s : LoadState), s.pos.Valid → ax.toNat = n + 1 →
    n + 1 ≤ fuel → s.pos.lba + (n + 1) ≤ diskSectors →
    (∀ k < n + 1, ∃ t < 3, bios (s.pos.lba + k) t = .success) →
    (s.pos.lba + (n + 1) = diskSectors ∧ readprogRetry image bios fuel ax es bx s = .error .tooBig)
    ∨ s.pos.lba + (n + 1) < diskSectors ∧ ∃ s', readprogRetry image bios fuel ax es bx s
        = .ok (s', readsFrom (n + 1) es bx s.pos.lba)
      ∧ s'.pos.Valid ∧ s'.pos.lba = s.pos.lba + (n + 1)
      ∧ (Straight (n + 1) es bx → (∀ x < linear es bx, s'.mem x = s.mem x)
        ∧ ∀ k < n + 1, ∀ i b, (sectorAt image (s.pos.lba + k))[i]? = some b →
          s'.mem (linear es bx + sectorSize * k + i) = b)
  | 0, _, _, _, _, _, _, _, hfuel, _, _ => absurd hfuel (by omega)
  | fuel + 1, n, ax, es, bx, s, hs, hax, hfuel, hend, hbios => by
      obtain ⟨t, ht, hsuccess⟩ := hbios 0 (Nat.succ_pos n)
      obtain ⟨mem, hretry, hstored, hkept⟩ := retry_spec (bios s.pos.lba) (linear es bx)
        (length_sectorAt_le image s.pos.lba) 3 0 s.mem ⟨t, ht, by rwa [Nat.zero_add]⟩
      have hmore : 1 < ax.toInt16 ↔ n ≠ 0 := by
        rw [one_lt_toInt16, hax]
        simp only [diskSectors] at hend
        omega
      rw [readprogRetry, hretry]
      obtain ⟨hnone, hlast⟩ | ⟨q, hq, hvalid, hlba⟩ := hs.next_cases
      · simp only [hnone]
        exact Or.inl ⟨by omega, trivial⟩
      simp only [hq]
      have hroom := hvalid.lba_lt
      cases n with
      | zero =>
          rw [if_neg (by simpa using hmore)]
          refine Or.inr ⟨by omega, ⟨q, mem⟩, rfl, hvalid, hlba, fun _ =>
            ⟨fun x hx => hkept x (Or.inl hx), fun k hk i b hb => ?_⟩⟩
          obtain rfl : k = 0 := by omega
          exact hstored i b hb
      | succ n =>
          rw [if_pos (hmore.mpr (Nat.succ_ne_zero n))]
          have hpred : (ax - 1).toNat = n + 1 := by
            rw [UInt16.toNat_sub, UInt16.toNat_one]
            have := ax.toNat_lt
            omega
          have hrest := readprogRetry_spec image bios fuel n (ax - 1) (advance es bx).1
            (advance es bx).2 ⟨q, mem⟩ hvalid hpred (by omega) (by simp only [hlba]; omega)
            fun k hk => by
              obtain ⟨t, ht, hsuccess⟩ := hbios (k + 1) (by omega)
              refine ⟨t, ht, ?_⟩
              simp only [hlba]
              rwa [Nat.add_assoc, Nat.add_comm 1 k]
          simp only [hlba] at hrest
          rcases hrest with ⟨hlast, htooBig⟩ | ⟨hless, s', hdone, hvalid', hlba', hmem⟩
          · rw [htooBig]
            exact Or.inl ⟨by omega, rfl⟩
          · rw [hdone]
            refine Or.inr ⟨by omega, s', rfl, hvalid', by omega, fun hstraight => ?_⟩
            obtain ⟨hfirst, hstraight'⟩ := straight_succ.mp hstraight
            obtain ⟨hbelow, hsectors⟩ := hmem hstraight'
            have hnext := linear_advance.mpr hfirst
            refine ⟨fun x hx => (hbelow x (by omega)).trans (hkept x (Or.inl hx)),
              fun k hk i b hb => ?_⟩
            cases k with
            | zero =>
                have hi : i < sectorSize := by
                  have := (List.getElem?_eq_some_iff.mp hb).1
                  have := length_sectorAt_le image (s.pos.lba + 0)
                  omega
                rw [hbelow _ (by omega)]
                exact hstored i b hb
            | succ k =>
                have hsector := hsectors k (by omega) i b (by
                  rwa [Nat.add_assoc, Nat.add_comm 1 k])
                rw [hnext] at hsector
                rwa [Nat.mul_succ, Nat.add_comm (sectorSize * k), ← Nat.add_assoc]

section Frame

variable {image : List UInt8} {bios : ℕ → ℕ → Attempt}

/-- What the attempts at a sector leave alone. -/
lemma retry_frame {tries : ℕ → Attempt} {a : ℕ} {sector : List UInt8}
    (hlen : sector.length ≤ sectorSize) {mem' : ℕ → UInt8} {y : ℕ}
    (hy : y < a ∨ a + sectorSize ≤ y) : ∀ (cx i : ℕ) (mem : ℕ → UInt8),
    retry tries a sector cx i mem = some mem' → mem' y = mem y
  | 0, _, _, h => by simp [retry] at h
  | cx + 1, i, mem, h => by
      rw [retry] at h
      cases hi : tries i with
      | success =>
          simp only [hi] at h
          obtain rfl := Option.some.inj h
          exact storeAt_of_notMem (by omega)
      | failure bytes =>
          simp only [hi] at h
          rw [retry_frame hlen hy cx (i + 1) _ h]
          have := List.length_take_le sectorSize bytes
          exact storeAt_of_notMem (by omega)

/-- The bytes outside of the buffers stay, by induction on the rounds. -/
lemma readprogRetry_frame {y : ℕ} : ∀ (fuel : ℕ) (ax es bx : UInt16) (s s' : LoadState)
    (reads : List Read), readprogRetry image bios fuel ax es bx s = .ok (s', reads) →
    (∀ r ∈ reads, y < r.address ∨ r.address + sectorSize ≤ y) → s'.mem y = s.mem y
  | 0, _, _, _, _, _, _, h, _ => by simp [readprogRetry] at h
  | fuel + 1, ax, es, bx, s, s', reads, h, hy => by
      rw [readprogRetry] at h
      cases hretry : retry (bios s.pos.lba) (linear es bx) (sectorAt image s.pos.lba) 3 0 s.mem with
      | none => simp [hretry] at h
      | some mem =>
          simp only [hretry] at h
          have hkept := fun hfirst => retry_frame (length_sectorAt_le image s.pos.lba) hfirst
            3 0 s.mem hretry (y := y)
          cases hnext : s.pos.next with
          | none => simp [hnext] at h
          | some pos =>
              simp only [hnext] at h
              split_ifs at h with hmore
              · cases hrest : readprogRetry image bios fuel (ax - 1) (advance es bx).1
                    (advance es bx).2 ⟨pos, mem⟩ with
                | error freeze => simp [hrest, Except.map] at h
                | ok r =>
                    simp only [hrest, Except.map, Except.ok.injEq, Prod.mk.injEq] at h
                    obtain ⟨rfl, rfl⟩ := h
                    rw [readprogRetry_frame fuel _ _ _ _ r.1 r.2 hrest
                      fun q hq => hy q (List.mem_cons_of_mem _ hq)]
                    exact hkept (hy _ List.mem_cons_self)
              · simp only [Except.ok.injEq, Prod.mk.injEq] at h
                obtain ⟨rfl, rfl⟩ := h
                exact hkept (hy _ List.mem_cons_self)

/-- Reads that are clear of it leave the reserved memory alone. -/
lemma readprogRetry_reserved {fuel : ℕ} {ax es bx : UInt16} {s s' : LoadState} {reads : List Read}
    {a : ℕ} (hclear : ReadsClear reads) (ha : Reserved a)
    (h : readprogRetry image bios fuel ax es bx s = .ok (s', reads)) : s'.mem a = s.mem a := by
  refine readprogRetry_frame fuel ax es bx s s' reads h fun r hr => ?_
  by_contra hin
  obtain ⟨i, hi, rfl⟩ : ∃ i < sectorSize, a = r.address + i := ⟨a - r.address, by omega, by omega⟩
  refine hclear r hr i hi ?_
  rw [Nat.mod_eq_of_lt]
  · exact ha
  · rw [Reserved] at ha
    omega

end Frame

/-! ### The theorem -/

/-- A program that is loaded where it should be does not end with the disk, and nothing wraps
around. -/
lemma Loaded.straight {image : List UInt8} {bios : ℕ → ℕ → Attempt} {n es bx : UInt16}
    {s : LoadState} (h : Loaded image bios n es bx s) (hs : s.pos.Valid) (hn : 0 < n.toNat)
    (hend : s.pos.lba + n.toNat ≤ diskSectors)
    (hbios : ∀ k < n.toNat, ∃ t < 3, bios (s.pos.lba + k) t = .success) :
    s.pos.lba + n.toNat < diskSectors ∧ Straight n.toNat es bx := by
  obtain ⟨m, hm⟩ := Nat.exists_eq_succ_of_ne_zero (Nat.pos_iff_ne_zero.mp hn)
  rw [Loaded, hm] at h
  rw [hm] at hend hbios ⊢
  obtain ⟨s', hdone, -⟩ := h
  obtain ⟨-, htooBig⟩ | ⟨hless, s'', hdone', -⟩ :=
    readprogRetry_spec image bios diskSectors m n es bx s hs hm (by omega) hend hbios
  · exact absurd (htooBig.symm.trans hdone) (by simp)
  · have heq := congrArg Prod.snd (Except.ok.inj (hdone'.symm.trans hdone))
    exact ⟨hless, (readsFrom_iff m es bx s.pos.lba).mp heq⟩

/-- **Loading a program** that is clear of the reserved memory: `n` sectors that are on the disk are
loaded one after another from `es:bx` on, with the position of the next one saved, exactly if the
last of them is not the last of the disk and nothing wraps around, that is if the offset stays below
`2 ^ 16`, or is a multiple of the sector size and the segment stays below `2 ^ 16`. -/
theorem program_loaded (image : List UInt8) (bios : ℕ → ℕ → Attempt) {n : UInt16} (es bx : UInt16)
    {s : LoadState} (hs : s.pos.Valid) (hn : 0 < n.toNat)
    (hend : s.pos.lba + n.toNat ≤ diskSectors)
    (hbios : ∀ k < n.toNat, ∃ t < 3, bios (s.pos.lba + k) t = .success)
    (hclear : ReadsClear (readsFrom n.toNat es bx s.pos.lba)) :
    Loaded image bios n es bx s ↔ s.pos.lba + n.toNat < diskSectors ∧ Straight n.toNat es bx := by
  refine ⟨fun h => h.straight hs hn hend hbios, fun ⟨hless, hstraight⟩ => ?_⟩
  obtain ⟨m, hm⟩ := Nat.exists_eq_succ_of_ne_zero (Nat.pos_iff_ne_zero.mp hn)
  rw [hm] at hend hbios hless hstraight hclear
  rw [Loaded, hm]
  obtain ⟨hlast, -⟩ | ⟨-, s', hdone, hvalid, hlba, hmem⟩ :=
    readprogRetry_spec image bios diskSectors m n es bx s hs hm (by omega) hend hbios
  · omega
  · have hreads := (readsFrom_iff m es bx s.pos.lba).mpr hstraight
    exact ⟨s', hreads ▸ hdone, (hmem hstraight).2, hvalid, hlba,
      fun a ha => readprogRetry_reserved hclear ha hdone⟩

/-- A BIOS that fails twice at each sector. -/
def twice : ℕ → ℕ → Attempt := fun _ t => if t = 2 then .success else .failure [0xff]

/-- A disk of zeros. -/
def blankDisk : List UInt8 := List.replicate (diskSectors * sectorSize) 0

lemma twice_succeeds (lba : ℕ) : ∃ t < 3, twice lba t = .success := ⟨2, by decide, rfl⟩

/-- Sectors that are read one after another above the bootstrap, and in the first megabyte, are
clear of the reserved memory. -/
lemma readsClear_of_straight {n lba : ℕ} {es bx : UInt16} (hn : 0 < n) (h : Straight n es bx)
    (hlow : 0xbc00 ≤ linear es bx) (hhigh : linear es bx + sectorSize * n ≤ 2 ^ 20) :
    ReadsClear (readsFrom n es bx lba) := by
  obtain ⟨m, rfl⟩ := Nat.exists_eq_succ_of_ne_zero (Nat.pos_iff_ne_zero.mp hn)
  rw [(readsFrom_iff m es bx lba).mpr h]
  intro r hr i hi
  obtain ⟨k, hk, rfl⟩ := List.mem_map.mp hr
  rw [List.mem_range] at hk
  have hsectors : sectorSize * k + sectorSize ≤ sectorSize * m.succ :=
    Nat.mul_le_mul_left sectorSize hk
  have hbelow : linear es bx + sectorSize * k + i < 2 ^ 20 := by omega
  rw [Nat.mod_eq_of_lt hbelow, Reserved]
  omega

/-- 200 sectors from `1000:0000` on, over the end of a segment. -/
theorem program_loaded_aligned : Loaded blankDisk twice 200 0x1000 0 ⟨.start, fun _ => 0⟩ :=
  (program_loaded blankDisk twice 0x1000 0 ⟨by decide, by decide, by decide, by decide⟩ (by decide)
    (by decide) (fun _ _ => twice_succeeds _)
    (readsClear_of_straight (by decide) (by decide) (by decide) (by decide))).mpr (by decide)

/-- Of 129 sectors from `0x10008` on, which is stored as `1000:0008`, the last one goes to the place
of the first. The last sector of the disk cannot be read at all. -/
theorem sector_misplaced : ¬ Loaded blankDisk twice 129 0x1000 8 ⟨.start, fun _ => 0⟩
    ∧ ¬ Loaded blankDisk twice 1 0x1000 0 ⟨⟨79, 1, 18⟩, fun _ => 0⟩ := by
  refine ⟨fun h => ?_, fun h => ?_⟩
  · have hstraight := h.straight ⟨by decide, by decide, by decide, by decide⟩ (by decide)
      (by decide) fun _ _ => twice_succeeds _
    exact absurd hstraight.2 (by decide)
  · have hless := h.straight ⟨by decide, by decide, by decide, by decide⟩ (by decide) (by decide)
      fun _ _ => twice_succeeds _
    exact absurd hless.1 (by decide)

end Sp2.Loader
