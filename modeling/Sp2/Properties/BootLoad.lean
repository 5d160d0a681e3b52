import Sp2.Properties.BootImage
import Sp2.Properties.FloppyLoad
import Sp2.Properties.LoadAddress

/-!
Booting an image: what is in memory when the bootstrap is done.

* `nextblockRetry`, `bootstrapRetry`: the bootstrap with a BIOS that may fail.
* `Placement.Fits`: a program whose load address denotes a number, whose sectors follow one another
  and spare the memory of the bootstrap.
* `stored`: the memory after a list of programs; `stored_apply` for programs that do not overlap.
* `nextblockRetry_stored`: the loop over the table stores the programs.
* `Bootable`: an image of programs that fit and do not overlap.
* `image_loaded`: **every program of an image is in memory at the address that its command line
  argument denotes, and nothing else of the memory has changed**.
-/

namespace Sp2.Loader

/-! ### The bootstrap with retries -/

/-- `nextblock`, with the attempts of the BIOS at each sector. -/
def nextblockRetry (image : List UInt8) (bios : ℕ → ℕ → Attempt) :
    ℕ → UInt16 → LoadState → Except Freeze LoadState
  | 0, _, _ => .error .cutOff
  | fuel + 1, di, s =>
      let ax := loadWord s.mem bootSegment di
      if ax = 0 then .ok s
      else
        let es := loadWord s.mem bootSegment (di - 2)
        let bx := loadWord s.mem bootSegment (di - 4)
        match readprogRetry image bios diskSectors ax es bx s with
        | .error freeze => .error freeze
        | .ok (s, _) => nextblockRetry image bios fuel (di - 6) s

/-- The bootstrap up to `done_loading`. -/
def bootstrapRetry (image : List UInt8) (bios : ℕ → ℕ → Attempt) (mem : ℕ → UInt8) :
    Except Freeze LoadState :=
  match readprogRetry image bios diskSectors 1 0 0x7e00
      ⟨.start, transfer bootSegment 0 (sectorAt image 0) mem⟩ with
  | .error freeze => .error freeze
  | .ok (s, _) => nextblockRetry image bios diskSectors firstcount s

/-! ### Placing programs -/

/-- A program and the address it is to be loaded to. -/
structure Placement where
  program : Program
  address : ℕ

namespace Placement

variable (x : Placement)

/-- The number of sectors of the program. -/
def sectors : ℕ := numSectors x.program.file

/-- The address is that of a byte of the program. -/
def Covers (a : ℕ) : Prop := x.address ≤ a ∧ a < x.address + sectorSize * x.sectors

/-- The load address denotes the number, the offset that is stored for it does not wrap around, and
the program spares the memory of the bootstrap. -/
structure Fits : Prop where
  number : Number x.program.addr x.address
  nonempty : x.program.file ≠ []
  even : x.address % 16 = 0 ∨ x.sectors ≤ 128
  clear : ∀ a, x.Covers a → ¬ Reserved a

end Placement

/-- Memory after programs have been stored one after another. -/
def stored (placed : List Placement) (mem : ℕ → UInt8) : ℕ → UInt8 :=
  placed.foldl (fun mem x => storeAt x.address (padded x.program.file) mem) mem

section Stored

variable {placed : List Placement} {mem : ℕ → UInt8} {x : Placement} {a i : ℕ} {b : UInt8}

lemma storeAt_of_not_covers (h : ¬ x.Covers a) :
    storeAt x.address (padded x.program.file) mem a = mem a := by
  refine storeAt_of_notMem ?_
  rw [Placement.Covers, Placement.sectors] at h
  rw [length_padded, Nat.mul_comm]
  omega

/-- The bytes outside of the programs stay. -/
lemma stored_of_not_covers (h : ∀ x ∈ placed, ¬ x.Covers a) : stored placed mem a = mem a := by
  induction placed generalizing mem with
  | nil => rfl
  | cons x placed ih =>
      rw [stored, List.foldl_cons]
      exact (ih fun y hy => h y (List.mem_cons_of_mem _ hy)).trans
        (storeAt_of_not_covers (h x List.mem_cons_self))

lemma sectors_le_sum (hx : x ∈ placed) : x.sectors ≤ (placed.map (·.sectors)).sum := by
  induction placed with
  | nil => exact absurd hx List.not_mem_nil
  | cons y placed ih =>
      rw [List.map_cons, List.sum_cons]
      rcases List.mem_cons.mp hx with rfl | hx
      · exact Nat.le_add_right _ _
      · exact (ih hx).trans (Nat.le_add_left _ _)

lemma covers_of_getElem? (h : (padded x.program.file)[i]? = some b) : x.Covers (x.address + i) := by
  have hi := (List.getElem?_eq_some_iff.mp h).1
  rw [length_padded] at hi
  refine ⟨Nat.le_add_right _ _, Nat.add_lt_add_left ?_ _⟩
  rwa [Nat.mul_comm]

/-- Programs that do not overlap are all there. -/
lemma stored_apply (hapart : placed.Pairwise fun x y => ∀ a, x.Covers a → ¬ y.Covers a)
    (hx : x ∈ placed) (hb : (padded x.program.file)[i]? = some b) :
    stored placed mem (x.address + i) = b := by
  induction placed generalizing mem with
  | nil => exact absurd hx List.not_mem_nil
  | cons y placed ih =>
      obtain ⟨hfirst, hrest⟩ := List.pairwise_cons.mp hapart
      rcases List.mem_cons.mp hx with rfl | hx
      · exact (stored_of_not_covers fun z hz => hfirst z hz _ (covers_of_getElem? hb)).trans
          (storeAt_apply hb)
      · exact ih hrest hx

end Stored

/-! ### Reading a program -/

section Read

variable {image : List UInt8} {bios : ℕ → ℕ → Attempt} {mem : ℕ → UInt8} {s s' : LoadState}
  {reads : List Read} {fuel n : ℕ} {ax es bx di w : UInt16} {p : Program} {rest : List Program}
  {x : Placement} {placed : List Placement} {e : Entry} {entries : List Entry}

/-- The bytes of consecutive sectors. -/
lemma sectorAt_getElem? (image : List UInt8) (lba : ℕ) {k i : ℕ} (hk : k < n)
    (hi : i < sectorSize) :
    (sectorAt image (lba + k))[i]?
      = ((image.drop (lba * sectorSize)).take (n * sectorSize))[sectorSize * k + i]? := by
  have hlt : sectorSize * k + i < n * sectorSize := by
    simp only [sectorSize] at hi ⊢
    omega
  rw [sectorAt, List.getElem?_take_of_lt hi, List.getElem?_take_of_lt hlt, List.getElem?_drop,
    List.getElem?_drop, Nat.add_mul, Nat.mul_comm k, Nat.add_assoc]

/-- **A program is read**: its bytes are stored where it is to be loaded, and nothing else. -/
lemma readprogRetry_stores {bytes : List UInt8} (hs : s.pos.Valid) (hax : ax.toNat = n)
    (hn : 0 < n) (hend : s.pos.lba + n < diskSectors)
    (hbios : ∀ k < n, ∃ t < 3, bios (s.pos.lba + k) t = .success) (hstraight : Straight n es bx)
    (hbytes : (image.drop (s.pos.lba * sectorSize)).take (n * sectorSize) = bytes)
    (hlen : bytes.length = n * sectorSize) :
    ∃ s' reads, readprogRetry image bios diskSectors ax es bx s = .ok (s', reads)
      ∧ s'.pos.Valid ∧ s'.pos.lba = s.pos.lba + n
      ∧ s'.mem = storeAt (linear es bx) bytes s.mem := by
  obtain ⟨m, rfl⟩ := Nat.exists_eq_succ_of_ne_zero (Nat.pos_iff_ne_zero.mp hn)
  obtain ⟨hlast, -⟩ | ⟨-, s', hdone, hvalid, hlba, hmem⟩ :=
    readprogRetry_spec image bios diskSectors m ax es bx s hs hax (by omega) (by omega) hbios
  · omega
  have hreads := (readsFrom_iff m es bx s.pos.lba).mpr hstraight
  rw [hreads] at hdone
  refine ⟨s', _, hdone, hvalid, hlba, funext fun y => ?_⟩
  by_cases hy : linear es bx ≤ y ∧ y < linear es bx + sectorSize * (m + 1)
  · -- the byte is in one of the sectors
    obtain ⟨j, rfl⟩ := Nat.exists_eq_add_of_le hy.1
    have hj : j < sectorSize * (m + 1) := by omega
    have hk : j / sectorSize < m + 1 := Nat.div_lt_of_lt_mul hj
    have hi : j % sectorSize < sectorSize := Nat.mod_lt _ (by decide)
    have hsplit := Nat.div_add_mod j sectorSize
    have hget := List.getElem?_eq_getElem (l := bytes) (i := j) (by rwa [hlen, Nat.mul_comm])
    have hsector := sectorAt_getElem? image s.pos.lba hk hi
    rw [hbytes, hsplit, hget] at hsector
    have hbyte := (hmem hstraight).2 _ hk _ _ hsector
    rw [Nat.add_assoc, hsplit] at hbyte
    rw [hbyte, storeAt_apply hget]
  · have hlen' : bytes.length = sectorSize * (m + 1) := hlen.trans (Nat.mul_comm _ _)
    rw [storeAt_of_notMem (by omega)]
    refine readprogRetry_frame _ _ _ _ _ _ _ hdone fun r hr => ?_
    obtain ⟨k, hk, rfl⟩ := List.mem_map.mp hr
    have hk' := List.mem_range.mp hk
    simp only [sectorSize] at hy ⊢
    omega

end Read

/-! ### The loop over the table -/

section Table

variable {image boot : List UInt8} {bios : ℕ → ℕ → Attempt} {mem : ℕ → UInt8} {s : LoadState}
  {b b' : Build} {fuel : ℕ} {di w : UInt16} {x : Placement} {placed : List Placement} {e : Entry}
  {entries : List Entry}

/-- Every program of an image has been accepted. -/
lemma processFile_of_foldlM {programs : List Program} {p : Program}
    (h : programs.foldlM processFile b = some b') (hp : p ∈ programs) :
    ∃ b₁ b₂, processFile b₁ p = some b₂ := by
  induction programs generalizing b with
  | nil => exact absurd hp List.not_mem_nil
  | cons q programs ih =>
      rw [List.foldlM_cons, Option.bind_eq_bind, Option.bind_eq_some_iff] at h
      obtain ⟨b₁, hq, h⟩ := h
      rcases List.mem_cons.mp hp with rfl | hp
      · exact ⟨b, b₁, hq⟩
      · exact ih h hp

lemma processFile_of_buildImage {programs : List Program} {p : Program}
    (h : buildImage boot programs = some image) (hp : p ∈ programs) :
    ∃ b₁ b₂, processFile b₁ p = some b₂ := by
  rw [buildImage, if_neg (List.ne_nil_of_mem hp), copyFile_eq] at h
  cases hfiles : programs.foldlM processFile ⟨padded boot, []⟩ with
  | none => simp [hfiles] at h
  | some b => exact processFile_of_foldlM hfiles hp

/-- What `process_file` has checked of a program that fits: it ends below `0xA0000`. -/
lemma Placement.Fits.below (hx : x.Fits) (hsize : x.sectors < diskSectors)
    (h : processFile b x.program = some b') :
    x.address + sectorSize * x.sectors ≤ 0x9ffff := by
  have hnot : ¬ Refused b x.program.file x.address := fun hrefused => by
    have hnone := (processFile_number hx.number).1 hrefused
    exact absurd (hnone.symm.trans h) (by simp)
  rw [Refused, not_or, not_or] at hnot
  obtain ⟨hlarge, hfit, -⟩ := hnot
  rw [Int32.not_lt, Int32.le_iff_toInt_le] at hlarge hfit
  rw [longOf_toInt] at hlarge
  change _ ≤ (0x9ffff : ℤ) at hlarge
  have haddress : (x.address : ℤ) ≤ 0x9ffff := by omega
  have hsum := (sum_exact (a := x.address) (n := x.sectors) (by omega)
    (by simp only [diskSectors] at hsize; omega)).2
  change (longOf x.address + Int32.ofNat x.sectors * 512).toInt ≤ (0x9ffff : ℤ) at hfit
  rw [hsum] at hfit
  simp only [sectorSize]
  omega

/-- The words that are stored for a program that fits. -/
lemma Placement.Fits.entry (hx : x.Fits) (hof : e.Of x.program) (hsize : x.sectors < diskSectors)
    (hbelow : x.address + sectorSize * x.sectors ≤ 0x9ffff) :
    e.count.toNat = x.sectors ∧ linear e.segment e.offset = x.address
      ∧ Straight x.sectors e.segment e.offset := by
  obtain ⟨hcount, address, hdecode⟩ := hof
  have hpos : 0 < x.sectors := numSectors_pos.mpr hx.nonempty
  simp only [sectorSize] at hbelow
  have hlong : (longOf x.address).toInt = x.address := (sum_exact (n := 0) (by omega) (by omega)).1
  obtain ⟨hsegment, hoffset⟩ := words_eq hlong (by omega)
  have hsmall : ¬ 0x9ffff < longOf x.address := by
    rw [Int32.not_lt, Int32.le_iff_toInt_le, hlong]
    change _ ≤ (0x9ffff : ℤ)
    omega
  simp only [decodeAddress, if_neg hx.number.colon_notMem, strtol_number hx.number, true_and,
    ← Int32.not_lt, if_pos hsmall, Option.some.injEq, Prod.mk.injEq] at hdecode
  obtain ⟨heqs, heqo, -⟩ := hdecode
  rw [heqs] at hsegment
  rw [heqo] at hoffset
  refine ⟨?_, ?_, ?_⟩
  · rw [hcount, UInt16.toNat_ofNat']
    simp only [Placement.sectors, diskSectors] at hsize ⊢
    omega
  · rw [linear, hsegment, hoffset]
    omega
  · have heven := hx.even
    rw [Straight, hsegment, hoffset]
    simp only [sectorSize]
    omega

/-- **The loop stores the programs of the table**, by induction on their number. -/
lemma nextblockRetry_stored (image : List UInt8) (fuel : ℕ)
    (hentries : List.Forall₂ Entry.Of entries (placed.map (·.program))) (hs : s.pos.Valid)
    (hfuel : placed.length < fuel)
    (htable : TableAt s.mem di (tableWords entries ++ [0])) (hdi : di.toNat + 1 < 1024)
    (hlen : 6 * entries.length ≤ di.toNat) (hfits : ∀ x ∈ placed, x.Fits)
    (hbelow : ∀ x ∈ placed, x.address + sectorSize * x.sectors ≤ 0x9ffff)
    (hbios : ∀ lba < diskSectors, ∃ t < 3, bios lba t = .success)
    (hend : s.pos.lba + (placed.map (·.sectors)).sum < diskSectors)
    (hbytes : image.drop (s.pos.lba * sectorSize) = contents (placed.map (·.program))) :
    ∃ s', nextblockRetry image bios fuel di s = .ok s' ∧ s'.mem = stored placed s.mem := by
  obtain ⟨fuel, rfl⟩ : ∃ f, fuel = f + 1 := ⟨fuel - 1, by omega⟩
  induction placed generalizing entries fuel di s with
  | nil =>
      cases hentries
      obtain ⟨hw, -⟩ := htable
      refine ⟨s, ?_, rfl⟩
      rw [nextblockRetry]
      simp only [hw, if_pos]
  | cons x placed ih =>
      rw [List.map_cons] at hentries hbytes
      obtain ⟨e, entries, hof, hrestEntries, rfl⟩ := List.forall₂_cons_right_iff.mp hentries
      rw [tableWords_cons, List.append_assoc] at htable
      rw [List.length_cons] at hlen hfuel
      rw [List.map_cons, List.sum_cons] at hend
      rw [List.forall_mem_cons] at hfits hbelow
      obtain ⟨hx, hrestFits⟩ := hfits
      have hsize : x.sectors < diskSectors := by omega
      have hpos : 0 < x.sectors := numSectors_pos.mpr hx.nonempty
      obtain ⟨hcount, hlinear, hstraight⟩ := hx.entry hof hsize hbelow.1
      obtain ⟨hax, hes, hbx, -⟩ := htable.entry
      have hslice : (image.drop (s.pos.lba * sectorSize)).take (x.sectors * sectorSize)
          = padded x.program.file := by
        rw [hbytes, Placement.sectors, ← length_padded]
        exact List.take_left
      obtain ⟨s', reads, hdone, hvalid, hlba, hmem⟩ := readprogRetry_stores hs hcount hpos
        (by omega) (fun k hk => hbios (s.pos.lba + k) (by omega)) hstraight hslice
        (length_padded _)
      rw [hlinear] at hmem
      -- the programs do not touch the table
      have hkept : TableAt s'.mem di (e.words ++ (tableWords entries ++ [0])) := by
        refine htable.congr hdi ?_ fun a ha => ?_
        · rw [List.length_append, List.length_append, length_tableWords, List.length_singleton,
            show e.words.length = 3 from rfl]
          omega
        · rw [hmem]
          exact storeAt_of_not_covers fun hcovers => hx.clear a hcovers ha
      have hdi' : (di - 6).toNat = di.toNat - 6 := by
        rw [UInt16.toNat_sub]
        simp only [UInt16.reduceToNat]
        omega
      have hrest : image.drop (s'.pos.lba * sectorSize) = contents (placed.map (·.program)) := by
        rw [hlba, Nat.add_mul, ← List.drop_drop, hbytes, Placement.sectors, ← length_padded]
        exact List.drop_left
      obtain ⟨fuel, rfl⟩ : ∃ f, fuel = f + 1 := ⟨fuel - 1, by omega⟩
      obtain ⟨t, ht, htmem⟩ := ih hrestEntries hvalid hkept.entry.2.2.2 (by omega) (by omega)
        hrestFits hbelow.2 (by omega) hrest fuel (by omega)
      have hne : e.count ≠ 0 := fun hzero => by
        rw [hzero] at hcount
        exact absurd hcount.symm (Nat.pos_iff_ne_zero.mp hpos)
      refine ⟨t, ?_, htmem.trans (by rw [hmem]; rfl)⟩
      rw [nextblockRetry]
      simp only [hax, hes, hbx, if_neg hne, hdone, ht]

end Table

/-! ### From the start -/

/-- The memory of the two sectors of the bootstrap. -/
def InBootstrap (a : ℕ) : Prop := 0x7c00 ≤ a ∧ a < 0x8000

instance (a : ℕ) : Decidable (InBootstrap a) := inferInstanceAs (Decidable (_ ∧ _))

section Start

variable {boot image : List UInt8} {bios : ℕ → ℕ → Attempt} {mem : ℕ → UInt8}
  {placed : List Placement}

/-- The first sector of the bootstrap, where the BIOS has put it. -/
lemma firstSector_apply (himage : 1024 ≤ image.length) {j : ℕ} (hj : j < 512) :
    transfer bootSegment 0 (sectorAt image 0) mem (0x7c00 + j) = image.getD j 0 := by
  have hfirst : (sectorAt image 0).length = 512 :=
    length_sectorAt (by simp only [sectorSize]; omega)
  have hbyte := transfer_apply bootSegment 0 (sectorAt image 0) mem (i := j)
    (by rw [hfirst]; decide) (by rw [hfirst]; decide) (by rw [hfirst]; exact hj)
  simp only [sectorAt, List.getElem_take, List.getElem_drop, Nat.zero_mul, Nat.zero_add] at hbyte
  rw [List.getD_eq_getElem _ _ (by omega)]
  exact hbyte

lemma firstSector_of_notMem {a : ℕ} (ha : ¬ InBootstrap a) :
    transfer bootSegment 0 (sectorAt image 0) mem a = mem a := by
  refine transfer_of_ne fun i hi heq => ha ?_
  have hlen := length_sectorAt_le image 0
  simp only [sectorSize] at hlen
  have hoff : ((0 : UInt16) + UInt16.ofNat i).toNat = i := by
    rw [UInt16.zero_add, UInt16.toNat_ofNat']
    omega
  rw [physical_bootSegment (by omega), hoff] at heq
  rw [InBootstrap]
  omega

lemma valid_start : Position.start.Valid := ⟨by decide, by decide, by decide, by decide⟩

/-- The second sector of the bootstrap is read behind the first one. -/
lemma bootstrapRetry_eq (mem : ℕ → UInt8) (himage : 1024 ≤ image.length)
    (hbios : ∃ t < 3, bios 1 t = .success) :
    ∃ s : LoadState, s.pos.Valid ∧ s.pos.lba = 2
      ∧ bootstrapRetry image bios mem = nextblockRetry image bios diskSectors firstcount s
      ∧ (∀ j < 1024, s.mem (0x7c00 + j) = image.getD j 0)
      ∧ ∀ a, ¬ InBootstrap a → s.mem a = mem a := by
  have hsecond : (sectorAt image 1).length = 512 := length_sectorAt himage
  set s₀ : LoadState := ⟨.start, transfer bootSegment 0 (sectorAt image 0) mem⟩ with hs₀
  have hone : (1 : UInt16).toNat = 1 := rfl
  have hstraight : Straight 1 0 0x7e00 := by decide
  have hbytes : (image.drop (s₀.pos.lba * sectorSize)).take (1 * sectorSize)
      = sectorAt image 1 := by
    simp [hs₀, sectorAt, Position.lba, Position.start]
  have hbios₀ : ∀ k < 1, ∃ t < 3, bios (s₀.pos.lba + k) t = .success := fun k hk => by
    obtain rfl : k = 0 := by omega
    exact hbios
  obtain ⟨s, reads, hdone, hvalid, hlba, hmem⟩ := readprogRetry_stores (s := s₀) valid_start hone
    Nat.one_pos (by change 1 + 1 < diskSectors; decide) hbios₀ hstraight hbytes
    (by rw [hsecond, Nat.one_mul])
  refine ⟨s, hvalid, hlba, by rw [bootstrapRetry, hdone], fun j hj => ?_, fun a ha => ?_⟩
  · rw [hmem]
    change storeAt 0x7e00 _ _ _ = _
    by_cases hlow : j < 512
    · rw [storeAt_of_notMem (Or.inl (by omega))]
      exact firstSector_apply himage hlow
    · obtain ⟨i, rfl⟩ : ∃ i, j = 512 + i := ⟨j - 512, by omega⟩
      have hget : (sectorAt image 1)[i]? = some (image.getD (512 + i) 0) := by
        rw [sectorAt, List.getElem?_take_of_lt (by simp only [sectorSize]; omega),
          List.getElem?_drop, Nat.one_mul, List.getD_eq_getElem _ _ (by omega),
          List.getElem?_eq_getElem]
      rw [← Nat.add_assoc]
      exact storeAt_apply hget
  · rw [hmem, storeAt_of_notMem]
    · exact firstSector_of_notMem ha
    · rw [hsecond]
      change a < 0x7e00 ∨ 0x7e00 + 512 ≤ a
      rw [InBootstrap] at ha
      omega

end Start

/-- What an image is to be for its programs to be loaded as they were placed: the boot file has two
sectors with a zero word before the table, the programs are not empty, have addresses that denote
numbers, are clear of the reserved memory and do not overlap, and the disk has a sector to
spare. -/
structure Bootable (boot image : List UInt8) (placed : List Placement) : Prop where
  length_eq : boot.length = 1024
  built : buildImage boot (placed.map (·.program)) = some image
  zero : fileWord boot (1022 - 6 * placed.length) = 0
  disk : 2 + (placed.map (·.sectors)).sum < diskSectors
  fits : ∀ x ∈ placed, x.Fits
  apart : placed.Pairwise fun x y => ∀ a, x.Covers a → ¬ y.Covers a

/-- The programs end below `0xA0000`. -/
lemma Bootable.below {boot image : List UInt8} {placed : List Placement}
    (h : Bootable boot image placed) :
    ∀ x ∈ placed, x.address + sectorSize * x.sectors ≤ 0x9ffff := fun x hx => by
  obtain ⟨b, b', hp⟩ := processFile_of_buildImage h.built (List.mem_map_of_mem hx)
  refine (h.fits x hx).below ?_ hp
  have hdisk := h.disk
  have hle := sectors_le_sum hx
  omega

/-- The bootstrap gets to `done_loading`: the programs are stored on top of its two sectors, the
first of which is as it was assembled. -/
lemma bootstrapRetry_stored {boot image : List UInt8} {bios : ℕ → ℕ → Attempt}
    {placed : List Placement} (mem : ℕ → UInt8) (h : Bootable boot image placed)
    (hbios : ∀ lba < diskSectors, ∃ t < 3, bios lba t = .success) :
    ∃ s mem₀, bootstrapRetry image bios mem = .ok s ∧ s.mem = stored placed mem₀
      ∧ (∀ j < 510, mem₀ (0x7c00 + j) = boot.getD j 0)
      ∧ ∀ a, ¬ InBootstrap a → mem₀ a = mem a := by
  obtain ⟨entries, hentries, hlen, hfit, hbuilt⟩ := buildImage_eq h.built
  have hboot := h.length_eq
  have hcount : entries.length = placed.length :=
    hentries.length_eq.trans (List.length_map _)
  have hpadded : padded boot = boot := by
    rw [padded, numSectors, hboot]
    exact List.append_nil boot
  rw [hpadded, hboot] at hfit hbuilt
  simp only [numInfo] at hlen
  have hhead : (boot.take (1024 - 6 * entries.length)
      ++ wordBytes (tableWords entries).reverse).length = 2 * sectorSize := by
    rw [List.length_append, length_wordBytes, List.length_reverse, length_tableWords,
      List.length_take, hboot]
    simp only [sectorSize]
    omega
  have hsize : 1024 ≤ image.length := by
    rw [hbuilt, List.length_append, hhead]
    exact Nat.le_add_right _ _
  obtain ⟨s, hvalid, hlba, hrun, hsectors, helse⟩ := bootstrapRetry_eq mem hsize
    (hbios 1 (by decide))
  have htable : TableAt s.mem firstcount (tableWords entries ++ [0]) := by
    have h' := tableAt_image hboot hlen hbuilt hsectors
    rwa [hcount, h.zero] at h'
  have hdisk := h.disk
  have hfirst : firstcount.toNat = 1022 := rfl
  obtain ⟨s', hdone, hmem⟩ := nextblockRetry_stored image diskSectors hentries
    hvalid (by simp only [diskSectors]; omega) htable (by omega) (by omega) h.fits h.below
    hbios (by omega) (by
      rw [hlba, hbuilt, ← hhead]
      exact List.drop_left)
  refine ⟨s', s.mem, hrun.trans hdone, hmem, fun j hj => ?_, helse⟩
  -- the table begins behind the first sector
  have htake : (boot.take (1024 - 6 * entries.length)).length = 1024 - 6 * entries.length := by
    rw [List.length_take, hboot]
    omega
  rw [hsectors j (by omega), hbuilt, List.append_assoc,
    List.getD_append _ _ _ _ (by omega), List.getD_eq_getElem?_getD, List.getD_eq_getElem?_getD,
    List.getElem?_take_of_lt (by omega)]

/-- **Booting an image** that is bootable, with a BIOS that reads each sector at one of three
attempts: the bootstrap gets to `done_loading` with every program where it was to be loaded, and
with no other byte of memory changed outside of its own two sectors. -/
theorem image_loaded {boot image : List UInt8} {bios : ℕ → ℕ → Attempt} {placed : List Placement}
    (mem : ℕ → UInt8) (h : Bootable boot image placed)
    (hbios : ∀ lba < diskSectors, ∃ t < 3, bios lba t = .success) :
    ∃ s, bootstrapRetry image bios mem = .ok s
      ∧ (∀ x ∈ placed, ∀ i b, (padded x.program.file)[i]? = some b → s.mem (x.address + i) = b)
      ∧ ∀ a, ¬ InBootstrap a → (∀ x ∈ placed, ¬ x.Covers a) → s.mem a = mem a := by
  obtain ⟨s, mem₀, hdone, hmem, -, helse⟩ := bootstrapRetry_stored mem h hbios
  refine ⟨s, hdone, fun x hx i b hb => ?_, fun a ha hcovers => ?_⟩
  · rw [hmem]
    exact stored_apply h.apart hx hb
  · rw [hmem, stored_of_not_covers hcovers]
    exact helse a ha

/-- A kernel at its address and a second program that is asked for by `strtol`'s octal spelling. -/
def demoPlaced : List Placement :=
  [⟨kernelProgram [1], 0x10000⟩, ⟨⟨[2, 3], "0300000".toList⟩, 0x18000⟩]

lemma demoPlaced_fits : ∀ x ∈ demoPlaced, x.Fits := by
  intro x hx
  rw [demoPlaced, List.mem_cons, List.mem_singleton] at hx
  rcases hx with rfl | rfl
  · refine ⟨?_, by decide, by decide, fun a ha => ?_⟩
    · exact .unsigned [] (fun _ h => absurd h List.not_mem_nil)
        (.hex 'x' "10000".toList (Or.inl rfl) (by decide) (by decide))
    · change 0x10000 ≤ a ∧ a < 0x10000 + 512 * 1 at ha
      rw [Reserved]
      omega
  · refine ⟨?_, by decide, by decide, fun a ha => ?_⟩
    · exact .unsigned [] (fun _ h => absurd h List.not_mem_nil)
        (.oct "300000".toList (by decide))
    · change 0x18000 ≤ a ∧ a < 0x18000 + 512 * 1 at ha
      rw [Reserved]
      omega

lemma demoPlaced_apart :
    demoPlaced.Pairwise fun x y => ∀ a, x.Covers a → ¬ y.Covers a := by
  rw [demoPlaced, List.pairwise_pair]
  intro a ha hb
  change 0x10000 ≤ a ∧ a < 0x10000 + 512 * 1 at ha
  change 0x18000 ≤ a ∧ a < 0x18000 + 512 * 1 at hb
  omega

/-- They can be put on a disk. -/
lemma exists_demoImage : ∃ image, Bootable (List.replicate 1024 0) image demoPlaced := by
  have hsome : (buildImage (List.replicate 1024 0) (demoPlaced.map (·.program))).isSome := by
    decide +kernel
  obtain ⟨image, himage⟩ := Option.isSome_iff_exists.mp hsome
  exact ⟨image, List.length_replicate .., himage, by decide +kernel, by decide, demoPlaced_fits,
    demoPlaced_apart⟩

/-- A disk with two programs, read by a BIOS that fails twice at each sector. -/
theorem image_loaded_demo : ∃ image s, bootstrapRetry image twice (fun _ => 0) = .ok s
    ∧ ∀ x ∈ demoPlaced, ∀ i b, (padded x.program.file)[i]? = some b →
      s.mem (x.address + i) = b := by
  obtain ⟨image, hbootable⟩ := exists_demoImage
  obtain ⟨s, hdone, hstored, -⟩ := image_loaded (fun _ => 0) hbootable
    fun lba _ => twice_succeeds lba
  exact ⟨image, s, hdone, hstored⟩

end Sp2.Loader
