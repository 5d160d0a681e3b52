import Mathlib.Data.List.Forall2
import Mathlib.Data.List.GetD
import Sp2.Loader.Bootstrap

/-!
What the bootstrap makes of an image.

* `Block.Holds`, `Decodes`: the bootstrap finds the programs and stops behind the last one.
* `TableAt`, `tableAt_bootstrap`: the table in memory, from `firstcount` downwards.
* `nextblock_iff`: when the loop finds the programs of a table.
* `image_decodes`: **an image is read back as it was built, as long as no program is empty, a zero
  is left before the table and the disk is not full**.
* `image_ends`: an empty program hides the ones after it.
-/

namespace Sp2.Loader

/-! ### The property -/

/-- What the bootstrap has found is a program: its size, its load address and its bytes. -/
structure Block.Holds (b : Block) (p : Program) : Prop where
  count : b.count.toNat = numSectors p.file
  address : ∃ address, decodeAddress p.addr = some (b.segment, b.offset, address)
  sectors : b.sectors.flatten = padded p.file

/-- The bootstrap comes to the end of the table, and has found the programs in their order. -/
def Decodes (image : List UInt8) (mem : ℕ → UInt8) (programs : List Program) : Prop :=
  ∃ (s : LoadState) (blocks : List Block), bootstrap image mem = .done (s, blocks) ∧
    List.Forall₂ Block.Holds blocks programs

/-- The program is loaded clear of the reserved memory. -/
def Program.Clear (p : Program) : Prop :=
  ∀ segment offset address, decodeAddress p.addr = some (segment, offset, address) →
    ∀ a, Reserved a → MissedBy a (loads (numSectors p.file) segment offset)

/-! ### The table in memory -/

section Table

variable {mem mem' : ℕ → UInt8} {di : UInt16} {ws : List UInt16} {i j : ℕ}

/-- The words at `di` and below it. -/
def TableAt (mem : ℕ → UInt8) : UInt16 → List UInt16 → Prop
  | _, [] => True
  | di, w :: ws => loadWord mem bootSegment di = w ∧ TableAt mem (di - 2) ws

/-- The addresses of the bootstrap. -/
lemma physical_bootSegment (h : di.toNat < 1024) :
    physical bootSegment di = 0x7c00 + di.toNat := by
  rw [physical]
  simp only [bootSegment, UInt16.reduceToNat]
  omega

/-- The words are in the memory of the bootstrap. -/
lemma TableAt.congr (h : TableAt mem di ws) (hdi : di.toNat + 1 < 1024)
    (hlen : 2 * ws.length ≤ di.toNat + 2) (hsame : ∀ a, Reserved a → mem' a = mem a) :
    TableAt mem' di ws := by
  induction ws generalizing di with
  | nil => trivial
  | cons w ws ih =>
      obtain ⟨hw, hws⟩ := h
      rw [List.length_cons] at hlen
      have hnext : (di + 1).toNat = di.toNat + 1 := by
        rw [UInt16.toNat_add, UInt16.toNat_one]
        omega
      constructor
      · rw [← hw, loadWord, loadWord, physical_bootSegment (by omega),
          physical_bootSegment (by omega), hsame _ (Or.inr ⟨by omega, by omega⟩),
          hsame _ (Or.inr ⟨by omega, by omega⟩)]
      · cases ws with
        | nil => trivial
        | cons w' ws =>
            rw [List.length_cons] at hlen
            have hbelow : (di - 2).toNat = di.toNat - 2 := by
              rw [UInt16.toNat_sub]
              simp only [UInt16.reduceToNat]
              omega
            exact ih hws (by omega) (by rw [List.length_cons]; omega)

/-- A table word by word. -/
lemma TableAt.of_forall
    (h : ∀ (i : ℕ) (hi : i < ws.length),
      loadWord mem bootSegment (di - UInt16.ofNat (2 * i)) = ws[i]) :
    TableAt mem di ws := by
  induction ws generalizing di with
  | nil => trivial
  | cons w ws ih =>
      refine ⟨by simpa using h 0 (Nat.succ_pos _), ih fun i hi => ?_⟩
      have hi' := h (i + 1) (Nat.succ_lt_succ hi)
      rw [show di - UInt16.ofNat (2 * (i + 1)) = di - 2 - UInt16.ofNat (2 * i) by
        rw [← UInt16.toNat_inj]
        simp only [UInt16.toNat_sub, UInt16.toNat_ofNat', UInt16.reduceToNat]
        omega] at hi'
      exact hi'

/-- The words of an entry, and what is below them. -/
lemma TableAt.entry {e : Entry} (h : TableAt mem di (e.words ++ ws)) :
    loadWord mem bootSegment di = e.count ∧ loadWord mem bootSegment (di - 2) = e.segment ∧
      loadWord mem bootSegment (di - 4) = e.offset ∧ TableAt mem (di - 6) ws := by
  obtain ⟨hcount, hsegment, hoffset, hrest⟩ := h
  have hfour : di - 2 - 2 = di - 4 := by
    rw [← UInt16.toNat_inj]
    simp only [UInt16.toNat_sub, UInt16.reduceToNat]
    omega
  have hsix : di - 4 - 2 = di - 6 := by
    rw [← UInt16.toNat_inj]
    simp only [UInt16.toNat_sub, UInt16.reduceToNat]
    omega
  rw [hfour] at hoffset hrest
  rw [hsix] at hrest
  exact ⟨hcount, hsegment, hoffset, hrest⟩

end Table

/-! ### The table in an image -/

section File

variable {bytes rest : List UInt8} {ws : List UInt16} {w : UInt16} {i j : ℕ}

/-- The word at a position of a file. -/
def fileWord (bytes : List UInt8) (j : ℕ) : UInt16 :=
  UInt16.ofNat ((bytes.getD j 0).toNat + 2 ^ 8 * (bytes.getD (j + 1) 0).toNat)

lemma fileWord_left (h : j + 1 < bytes.length) : fileWord (bytes ++ rest) j = fileWord bytes j := by
  rw [fileWord, fileWord, List.getD_append _ _ _ _ (by omega), List.getD_append _ _ _ _ h]

lemma fileWord_right : fileWord (bytes ++ rest) (bytes.length + j) = fileWord rest j := by
  rw [fileWord, fileWord, List.getD_append_right _ _ _ _ (by omega),
    List.getD_append_right _ _ _ _ (by omega), Nat.add_sub_cancel_left, Nat.add_assoc,
    Nat.add_sub_cancel_left]

/-- A word is stored low byte first. -/
lemma fileWord_cons : fileWord (wordBytes (w :: ws) ++ rest) 0 = w := by
  show UInt16.ofNat (w.toUInt8.toNat + 2 ^ 8 * (w >>> 8).toUInt8.toNat) = w
  rw [← UInt16.toNat_inj]
  simp only [UInt16.toNat_ofNat', UInt16.toNat_toUInt8, UInt16.toNat_shiftRight,
    UInt16.reduceToNat, Nat.shiftRight_eq_div_pow, Nat.reduceMod]
  have := w.toNat_lt
  omega

lemma fileWord_wordBytes (hi : i < ws.length) :
    fileWord (wordBytes ws ++ rest) (2 * i) = ws[i] := by
  induction ws generalizing i with
  | nil => exact absurd hi (Nat.not_lt_zero i)
  | cons w ws ih =>
      cases i with
      | zero => exact fileWord_cons
      | succ i =>
          have hskip : fileWord (wordBytes (w :: ws) ++ rest) (2 * (i + 1))
              = fileWord (wordBytes ws ++ rest) (2 * i) := by
            have hsplit : wordBytes (w :: ws) ++ rest
                = [w.toUInt8, (w >>> 8).toUInt8] ++ (wordBytes ws ++ rest) := rfl
            rw [hsplit, show 2 * (i + 1) = [w.toUInt8, (w >>> 8).toUInt8].length + 2 * i by
              simp only [List.length_cons, List.length_nil]
              omega]
            exact fileWord_right
          rw [hskip]
          exact ih (by simpa using hi)

/-- A word of the bootstrap in memory. -/
lemma loadWord_eq {mem : ℕ → UInt8}
    (hmem : ∀ j < 1024, mem (0x7c00 + j) = bytes.getD j 0) (hj : j + 1 < 1024) :
    loadWord mem bootSegment (UInt16.ofNat j) = fileWord bytes j := by
  have hj₀ : (UInt16.ofNat j).toNat = j := by
    rw [UInt16.toNat_ofNat']
    omega
  have hj₁ : (UInt16.ofNat j + 1).toNat = j + 1 := by
    rw [UInt16.toNat_add, UInt16.toNat_one, hj₀]
    omega
  rw [loadWord, physical_bootSegment (by omega), physical_bootSegment (by omega), hj₀, hj₁,
    hmem j (by omega), hmem (j + 1) hj, fileWord]

/-- The entries from `firstcount` downwards, and the word that is left before them. -/
lemma tableAt_image {boot image tail : List UInt8} {entries : List Entry} {mem : ℕ → UInt8}
    (hboot : boot.length = 1024) (hlen : 3 * entries.length ≤ numInfo)
    (himage : image = boot.take (1024 - 6 * entries.length)
      ++ wordBytes (tableWords entries).reverse ++ tail)
    (hmem : ∀ j < 1024, mem (0x7c00 + j) = image.getD j 0) :
    TableAt mem firstcount
      (tableWords entries ++ [fileWord boot (1022 - 6 * entries.length)]) := by
  have hwords := length_tableWords entries
  simp only [numInfo] at hlen
  have hpre : (boot.take (1024 - 6 * entries.length)).length = 1024 - 6 * entries.length := by
    rw [List.length_take, hboot]
    omega
  refine TableAt.of_forall fun i hi => ?_
  rw [List.length_append, hwords, List.length_singleton] at hi
  have hdi : firstcount - UInt16.ofNat (2 * i) = UInt16.ofNat (1022 - 2 * i) := by
    have hfirst : firstcount.toNat = 1022 := rfl
    rw [← UInt16.toNat_inj, UInt16.toNat_sub, UInt16.toNat_ofNat', UInt16.toNat_ofNat', hfirst]
    omega
  rw [hdi, loadWord_eq hmem (by omega), himage, List.append_assoc]
  by_cases hentry : i < 3 * entries.length
  · have hpos : 1022 - 2 * i = (boot.take (1024 - 6 * entries.length)).length
        + 2 * (3 * entries.length - 1 - i) := by
      omega
    rw [hpos, fileWord_right, fileWord_wordBytes (by rw [List.length_reverse]; omega),
      List.getElem_reverse, List.getElem_append_left (by omega)]
    congr 1
    omega
  · obtain rfl : i = 3 * entries.length := by omega
    rw [List.getElem_append_right (by omega), fileWord_left (by omega)]
    simp only [hwords, Nat.sub_self, List.getElem_cons_zero]
    conv_rhs => rw [← List.take_append_drop (1024 - 6 * entries.length) boot]
    rw [fileWord_left (by omega)]
    congr 1
    omega

end File

/-! ### The loop -/

section Loop

variable {image : List UInt8} {fuel lba m n : ℕ} {a : ℕ} {di es bx w : UInt16} {s : LoadState}
  {p : Program} {programs : List Program} {e : Entry} {entries : List Entry}

/-- Consecutive sectors are consecutive bytes. -/
lemma flatten_sectorsAt :
    (sectorsAt image lba n).flatten = (image.drop (lba * sectorSize)).take (n * sectorSize) := by
  induction n generalizing lba with
  | zero => simp [sectorsAt]
  | succ n ih =>
      rw [sectorsAt_succ, List.flatten_cons, ih, sectorAt, Nat.succ_mul lba, ← List.drop_drop,
        Nat.succ_mul n, Nat.add_comm (n * sectorSize), List.take_add]

/-- `readprog` reads no more sectors than the program has, unless it has none. -/
lemma rounds_le (hn : 0 < n) : rounds (UInt16.ofNat n) ≤ n := by
  have hmod : (UInt16.ofNat n).toNat ≤ n := by
    rw [UInt16.toNat_ofNat']
    exact Nat.mod_le ..
  rw [rounds]
  split_ifs <;> omega

/-- A size that fits a positive `short` is the number of sectors read. -/
lemma rounds_ofNat (hn : 0 < n) (hlt : n < 2 ^ 15) : rounds (UInt16.ofNat n) = n := by
  have hmod : (UInt16.ofNat n).toNat = n := by
    rw [UInt16.toNat_ofNat']
    omega
  rw [rounds]
  split_ifs with h <;> rw [one_lt_toInt16, hmod] at h <;> omega

/-- From a larger one a single sector is read. -/
lemma rounds_large (h : 2 ^ 15 ≤ (UInt16.ofNat n).toNat) : rounds (UInt16.ofNat n) = 1 := by
  rw [rounds, if_neg]
  rw [one_lt_toInt16]
  omega

/-- The loop from `di` on finds the programs and comes to its end. -/
def Finds (image : List UInt8) (fuel : ℕ) (di : UInt16) (s : LoadState)
    (programs : List Program) : Prop :=
  ∃ (s' : LoadState) (blocks : List Block), nextblock image fuel di s = .done (s', blocks) ∧
    List.Forall₂ Block.Holds blocks programs

/-- No further program is found exactly if the next count is zero. -/
lemma finds_nil : Finds image (fuel + 1) di s [] ↔ loadWord s.mem bootSegment di = 0 := by
  constructor
  · rintro ⟨s', blocks, hdone, hblocks⟩
    cases hblocks
    by_contra hne
    rw [nextblock, if_neg hne, Outcome.bind_eq_done] at hdone
    obtain ⟨r, -, hdone⟩ := hdone
    obtain ⟨r', -, hdone⟩ := Outcome.bind_eq_done.mp hdone
    cases hdone
  · intro hzero
    refine ⟨s, [], ?_, .nil⟩
    rw [nextblock, if_pos hzero]

/-- A zero count ends the table. -/
lemma Finds.eq_nil (h : Finds image (fuel + 1) di s programs)
    (hzero : loadWord s.mem bootSegment di = 0) : programs = [] := by
  obtain ⟨s', blocks, hdone, hblocks⟩ := h
  rw [nextblock, if_pos hzero] at hdone
  obtain ⟨-, rfl⟩ := Prod.mk.inj (Outcome.done.inj hdone)
  cases hblocks
  rfl

/-- The first program has to be the one that is read, and the others have to be found below. -/
lemma finds_cons {s' : LoadState} {sectors : List (List UInt8)} {ws : List UInt16}
    (htable : TableAt s.mem di (e.words ++ ws)) (hne : e.count ≠ 0)
    (hread : readprog image diskSectors e.count e.segment e.offset s = .done (s', sectors)) :
    Finds image (fuel + 1) di s (p :: programs) ↔
      Block.Holds ⟨e.count, e.segment, e.offset, sectors⟩ p ∧
        Finds image fuel (di - 6) s' programs := by
  obtain ⟨hcount, hsegment, hoffset, -⟩ := htable.entry
  have hblock : nextblock image (fuel + 1) di s
      = (nextblock image fuel (di - 6) s').bind fun r =>
          .done (r.1, ⟨e.count, e.segment, e.offset, sectors⟩ :: r.2) := by
    rw [nextblock]
    simp only [hcount, hsegment, hoffset, if_neg hne, hread, Outcome.bind_done]
  rw [Finds, Finds, hblock]
  constructor
  · rintro ⟨r, blocks, hdone, hblocks⟩
    obtain ⟨⟨r', blocks'⟩, hrest, heq⟩ := Outcome.bind_eq_done.mp hdone
    obtain ⟨rfl, rfl⟩ := Prod.mk.inj (Outcome.done.inj heq)
    cases hblocks with
    | cons hfirst hrests => exact ⟨hfirst, r', blocks', hrest, hrests⟩
  · rintro ⟨hfirst, r, blocks, hrest, hblocks⟩
    refine ⟨r, _, Outcome.bind_eq_done.mpr ⟨_, hrest, rfl⟩, .cons hfirst hblocks⟩

/-- Nothing is found at the end of the disk. -/
lemma not_finds {ws : List UInt16} (htable : TableAt s.mem di (e.words ++ ws)) (hne : e.count ≠ 0)
    (hread : readprog image diskSectors e.count e.segment e.offset s = .tooBig) :
    ¬ Finds image (fuel + 1) di s programs := by
  rintro ⟨r, blocks, hdone, -⟩
  obtain ⟨hcount, hsegment, hoffset, -⟩ := htable.entry
  rw [nextblock] at hdone
  simp only [hcount, hsegment, hoffset, if_neg hne, hread] at hdone
  cases hdone

/-- A program whose number of sectors is a positive `short` is read as it is. -/
lemma holds_of_lt {rest : List Program} (hof : e.Of p) (hn : 0 < numSectors p.file)
    (hlt : numSectors p.file < 2 ^ 15)
    (hbytes : image.drop (lba * sectorSize) = contents (p :: rest)) :
    Block.Holds ⟨e.count, e.segment, e.offset, sectorsAt image lba (rounds e.count)⟩ p := by
  obtain ⟨hcount, haddress⟩ := hof
  refine ⟨?_, haddress, ?_⟩
  · show e.count.toNat = _
    rw [hcount, UInt16.toNat_ofNat']
    omega
  · show (sectorsAt image lba (rounds e.count)).flatten = _
    rw [hcount, rounds_ofNat hn hlt, flatten_sectorsAt, hbytes, ← length_padded]
    exact List.take_left

/-- A larger one is not. -/
lemma not_holds_of_le (hof : e.Of p) (hle : 2 ^ 15 ≤ numSectors p.file) :
    ¬ Block.Holds ⟨e.count, e.segment, e.offset, sectorsAt image lba (rounds e.count)⟩ p := by
  rintro ⟨hcount, -, hsectors⟩
  change e.count.toNat = numSectors p.file at hcount
  change (sectorsAt image lba (rounds e.count)).flatten = _ at hsectors
  have hone : rounds e.count = 1 := by
    rw [hof.1]
    refine rounds_large ?_
    rw [← hof.1, hcount]
    exact hle
  have hlen := congrArg List.length hsectors
  rw [hone, flatten_sectorsAt, List.length_take, length_padded] at hlen
  simp only [sectorSize] at hlen
  omega

/-- **When the loop finds the programs of a table**: none of them is empty, the table is followed
by a zero, and the disk is not read to its end. -/
lemma finds_iff (hs : s.pos.Valid) (hfuel : diskSectors ≤ fuel + s.pos.lba)
    (hentries : List.Forall₂ Entry.Of entries programs)
    (htable : TableAt s.mem di (tableWords entries ++ [w])) (hdi : di.toNat + 1 < 1024)
    (hlen : 6 * entries.length ≤ di.toNat) (hclear : ∀ p ∈ programs, p.Clear)
    (hbytes : image.drop (s.pos.lba * sectorSize) = contents programs) :
    Finds image fuel di s programs ↔ (∀ p ∈ programs, p.file ≠ []) ∧ w = 0 ∧
      s.pos.lba + (programs.map fun p => numSectors p.file).sum < diskSectors := by
  have hpos := hs.lba_lt
  obtain ⟨fuel, rfl⟩ : ∃ f, fuel = f + 1 := ⟨fuel - 1, by omega⟩
  induction hentries generalizing fuel di s with
  | nil =>
      obtain ⟨hw, -⟩ := htable
      rw [finds_nil, hw]
      constructor
      · exact fun hzero => ⟨nofun, hzero, hpos⟩
      · exact fun h => h.2.1
  | @cons e p entries programs hof hentries ih =>
      rw [tableWords_cons, List.append_assoc] at htable
      rw [List.length_cons] at hlen
      simp only [List.forall_mem_cons, List.map_cons, List.sum_cons] at hclear ⊢
      set n := numSectors p.file with hn
      by_cases hzero : e.count = 0
      · -- The table seems to end here.
        have hword : loadWord s.mem bootSegment di = 0 := htable.1.trans hzero
        refine iff_of_false (fun h => nomatch h.eq_nil hword) ?_
        rintro ⟨⟨hfile, -⟩, -, hsum⟩
        have hnpos : 0 < n := numSectors_pos.mpr hfile
        have hmod := congrArg UInt16.toNat (hof.1.symm.trans hzero)
        rw [UInt16.toNat_ofNat', UInt16.toNat_zero] at hmod
        simp only [diskSectors] at hsum
        omega
      have hnpos : 0 < n := by
        refine Nat.pos_of_ne_zero fun h0 => hzero ?_
        rw [hof.1, ← hn, h0]
        rfl
      have hrounds : rounds e.count ≤ n := by
        rw [hof.1]
        exact rounds_le hnpos
      obtain ⟨hbig, hend⟩ | ⟨s', hdone, hvalid, hlba, hmem⟩ :=
        readprog_eq image diskSectors e.count e.segment e.offset hs (Nat.le_add_right _ _)
      · refine iff_of_false (not_finds htable hzero hbig) ?_
        rintro ⟨-, -, hsum⟩
        omega
      rw [finds_cons htable hzero hdone]
      by_cases hlt : n < 2 ^ 15
      · have hholds := holds_of_lt hof hnpos hlt hbytes
        have hfile : p.file ≠ [] := numSectors_pos.mp hnpos
        have hcount : rounds e.count = n := by
          rw [hof.1]
          exact rounds_ofNat hnpos hlt
        rw [hcount] at hlba hmem
        have hvalidPos := hvalid.lba_lt
        obtain ⟨fuel, rfl⟩ : ∃ f, fuel = f + 1 := ⟨fuel - 1, by omega⟩
        -- The programs do not touch the table.
        have hkept : TableAt s'.mem di (e.words ++ (tableWords entries ++ [w])) := by
          refine htable.congr hdi ?_ fun a ha => hmem a ?_
          · rw [List.length_append, List.length_append, length_tableWords, List.length_singleton,
              show e.words.length = 3 from rfl]
            omega
          · obtain ⟨address, haddress⟩ := hof.2
            exact hclear.1 _ _ _ haddress a ha
        have hbelow : (di - 6).toNat = di.toNat - 6 := by
          rw [UInt16.toNat_sub]
          simp only [UInt16.reduceToNat]
          omega
        have hrest : image.drop (s'.pos.lba * sectorSize) = contents programs := by
          rw [hlba, Nat.add_mul, ← List.drop_drop, hbytes, hn, ← length_padded]
          exact List.drop_left
        have hothers := ih hvalid hkept.entry.2.2.2 (by omega) (by omega) hclear.2 hrest
          hvalidPos fuel (by omega)
        refine (and_congr_right fun _ => hothers).trans ?_
        rw [hlba, Nat.add_assoc]
        exact ⟨fun h => ⟨⟨hfile, h.2.1⟩, h.2.2⟩, fun h => ⟨hholds, h.1.2, h.2⟩⟩
      · refine iff_of_false (fun h => not_holds_of_le hof (by omega) h.1) ?_
        rintro ⟨-, -, hsum⟩
        simp only [diskSectors] at hsum
        omega

end Loop

/-! ### From the start -/

section Start

variable {boot image : List UInt8} {mem : ℕ → UInt8} {programs : List Program}

/-- The memory with both sectors of the bootstrap. -/
def bootMemory (image : List UInt8) (mem : ℕ → UInt8) : ℕ → UInt8 :=
  transfer 0 0x7e00 (sectorAt image 1) (transfer bootSegment 0 (sectorAt image 0) mem)

/-- After the second sector of the bootstrap the programs are read from the third one on. -/
lemma bootstrap_eq : bootstrap image mem
    = nextblock image diskSectors firstcount ⟨⟨0, 0, 3⟩, bootMemory image mem⟩ := rfl

lemma valid_third : Position.Valid ⟨0, 0, 3⟩ := ⟨by decide, by decide, by decide, by decide⟩

/-- The bounds on the number of rounds are never reached. -/
lemma bootstrap_ends : bootstrap image mem ≠ .cutOff := by
  rw [bootstrap_eq]
  exact nextblock_ends valid_third (Nat.le_add_right _ _)

lemma length_sectorAt {lba : ℕ} (h : (lba + 1) * sectorSize ≤ image.length) :
    (sectorAt image lba).length = sectorSize := by
  rw [sectorAt, List.length_take, List.length_drop]
  simp only [sectorSize] at h ⊢
  omega

lemma bootMemory_apply (himage : 1024 ≤ image.length) {j : ℕ} (hj : j < 1024) :
    bootMemory image mem (0x7c00 + j) = image.getD j 0 := by
  have hsecond : (sectorAt image 1).length = 512 := length_sectorAt himage
  have hfirst : (sectorAt image 0).length = 512 :=
    length_sectorAt (by simp only [sectorSize]; omega)
  by_cases hlow : j < 512
  · have hother : ∀ i < (sectorAt image 1).length,
        0x7c00 + j ≠ physical 0 (0x7e00 + UInt16.ofNat i) := by
      intro i hi
      have hoff : (0x7e00 + UInt16.ofNat i).toNat = 0x7e00 + i := by
        rw [UInt16.toNat_add, UInt16.toNat_ofNat']
        simp only [UInt16.reduceToNat]
        omega
      rw [physical, hoff, UInt16.toNat_zero]
      omega
    rw [bootMemory, transfer_of_ne hother]
    have hbyte := transfer_apply bootSegment 0 (sectorAt image 0) mem (i := j)
      (by rw [hfirst]; decide) (by rw [hfirst]; decide) (by rw [hfirst]; exact hlow)
    simp only [sectorAt, List.getElem_take, List.getElem_drop, Nat.zero_mul, Nat.zero_add] at hbyte
    rw [List.getD_eq_getElem _ _ (by omega)]
    exact hbyte
  · obtain ⟨i, rfl⟩ : ∃ i, j = 512 + i := ⟨j - 512, by omega⟩
    have hbyte := transfer_apply 0 0x7e00 (sectorAt image 1)
      (transfer bootSegment 0 (sectorAt image 0) mem) (i := i) (by rw [hsecond]; decide)
      (by rw [hsecond]; decide) (by omega)
    simp only [sectorAt, List.getElem_take, List.getElem_drop, Nat.one_mul] at hbyte
    rw [List.getD_eq_getElem _ _ (by omega), ← Nat.add_assoc]
    exact hbyte

/-- The bootstrap of an image: the loop finds the programs at `firstcount` and below. -/
lemma decodes_iff_finds (mem : ℕ → UInt8) (hboot : boot.length = 1024)
    (himage : buildImage boot programs = some image) : ∃ entries : List Entry,
      List.Forall₂ Entry.Of entries programs ∧ 3 * entries.length ≤ numInfo ∧
      TableAt (bootMemory image mem) firstcount
        (tableWords entries ++ [fileWord boot (1022 - 6 * entries.length)]) ∧
      image.drop (2 * sectorSize) = contents programs ∧
      (Decodes image mem programs ↔ Finds image diskSectors firstcount
        ⟨⟨0, 0, 3⟩, bootMemory image mem⟩ programs) := by
  obtain ⟨entries, hentries, hlen, hfits, hbuilt⟩ := buildImage_eq himage
  have hsectors : numSectors boot = 2 := by
    rw [numSectors, hboot]
    rfl
  have hpadded : padded boot = boot := by
    rw [padded, hsectors, hboot]
    exact List.append_nil boot
  rw [hpadded, hboot] at hfits hbuilt
  have htable : (boot.take (1024 - 6 * entries.length)
      ++ wordBytes (tableWords entries).reverse).length = 2 * sectorSize := by
    rw [List.length_append, length_wordBytes, List.length_reverse, length_tableWords,
      List.length_take, hboot]
    simp only [sectorSize]
    omega
  refine ⟨entries, hentries, hlen, tableAt_image hboot hlen hbuilt fun j hj => ?_, ?_, Iff.rfl⟩
  · refine bootMemory_apply ?_ hj
    rw [hbuilt, List.length_append, htable]
    exact Nat.le_add_right _ _
  · rw [hbuilt, ← htable]
    exact List.drop_left

end Start

/-- **An image is read back as it was built**, provided the programs are loaded clear of the
bootstrap, exactly if no program is empty, the word before the table is zero and the disk has a
sector to spare. -/
theorem image_decodes {boot image : List UInt8} {programs : List Program} (mem : ℕ → UInt8)
    (hboot : boot.length = 1024) (himage : buildImage boot programs = some image)
    (hclear : ∀ p ∈ programs, p.Clear) :
    Decodes image mem programs ↔ (∀ p ∈ programs, p.file ≠ []) ∧
      fileWord boot (1022 - 6 * programs.length) = 0 ∧
      2 + (programs.map fun p => numSectors p.file).sum < diskSectors := by
  obtain ⟨entries, hentries, hlen, htable, hbytes, hfinds⟩ :=
    decodes_iff_finds mem hboot himage
  have hfirst : firstcount.toNat = 1022 := rfl
  simp only [numInfo] at hlen
  rw [hfinds, ← hentries.length_eq]
  exact finds_iff (s := ⟨⟨0, 0, 3⟩, bootMemory image mem⟩) valid_third (Nat.le_add_right _ _)
    hentries htable (by omega) (by omega) hclear hbytes

/-- A program for `0x10000`. -/
def kernelProgram (file : List UInt8) : Program := ⟨file, ['0', 'x', '1', '0', '0', '0', '0']⟩

/-- A program for `0x18000`. -/
def secondProgram : Program := ⟨[2, 3], ['0', 'x', '1', '8', '0', '0', '0']⟩

/-- A program of one sector for the start of a segment above the bootstrap. -/
lemma clear_of_decode {p : Program} (seg : UInt16)
    (hdecode : (decodeAddress p.addr).map (fun x => (x.1, x.2.1)) = some (seg, 0))
    (hone : numSectors p.file = 1) (hlow : 0xbc0 ≤ seg.toNat) (hhigh : seg.toNat < 0xf000) :
    p.Clear := by
  intro segment offset address haddress a ha b hb i hi
  simp only [haddress, Option.map_some, Option.some.injEq, Prod.mk.injEq] at hdecode
  obtain ⟨rfl, rfl⟩ := hdecode
  rw [hone] at hb
  obtain rfl : b = (segment, 0) := by simpa [loads] using hb
  simp only [sectorSize] at hi
  have hoff : (0 + UInt16.ofNat i).toNat = i := by
    rw [UInt16.zero_add, UInt16.toNat_ofNat']
    omega
  simp only [physical, hoff]
  rw [Reserved] at ha
  omega

/-- Two programs, whose entries stand in the table one below the other. -/
theorem image_decodes_kernel : ∃ image : List UInt8,
    buildImage (List.replicate 1024 0) [kernelProgram [1], secondProgram] = some image ∧
      Decodes image (fun _ => 0) [kernelProgram [1], secondProgram] := by
  have hsome : (buildImage (List.replicate 1024 0) [kernelProgram [1], secondProgram]).isSome := by
    decide +kernel
  obtain ⟨image, himage⟩ := Option.isSome_iff_exists.mp hsome
  refine ⟨image, himage, (image_decodes _ (List.length_replicate ..) himage ?_).mpr
    ⟨?_, by decide +kernel, by decide⟩⟩
  · intro p hp
    simp only [List.mem_cons, List.not_mem_nil, or_false] at hp
    rcases hp with rfl | rfl
    · exact clear_of_decode 0x1000 (by decide +kernel) (by decide) (by decide) (by decide)
    · exact clear_of_decode 0x1800 (by decide +kernel) (by decide) (by decide) (by decide)
  · intro p hp
    simp only [List.mem_cons, List.not_mem_nil, or_false] at hp
    rcases hp with rfl | rfl <;> exact List.cons_ne_nil _ _

/-- **An empty program hides the ones after it**: its count of zero ends the table. -/
theorem image_ends : ¬ ∀ (boot image : List UInt8) (programs : List Program) (mem : ℕ → UInt8),
    boot.length = 1024 → buildImage boot programs = some image →
      Decodes image mem programs := by
  intro h
  have hsome : (buildImage (List.replicate 1024 0)
      [kernelProgram [], kernelProgram [1]]).isSome := by
    decide +kernel
  obtain ⟨image, himage⟩ := Option.isSome_iff_exists.mp hsome
  have hlen : (List.replicate 1024 (0 : UInt8)).length = 1024 := List.length_replicate ..
  obtain ⟨entries, hentries, -, htable, -, hfinds⟩ :=
    decodes_iff_finds (fun _ => 0) hlen himage
  cases hentries with
  | cons hof hrest =>
      rw [tableWords_cons, List.append_assoc] at htable
      have hzero := htable.entry.1.trans hof.1
      exact nomatch (hfinds.mp (h _ _ _ _ hlen himage)).eq_nil hzero

end Sp2.Loader
