import Sp2.Loader.Switch
import Sp2.Properties.BootLoad
import Sp2.Properties.Vectors

/-!
What the kernel finds when it is entered.

* `loadTable_eq`: the table registers.
* `kernel_entered`: **after the bootstrap has loaded an image and has switched to protected mode,
  the table registers point to the descriptors that were assembled, the processor goes on at the
  first byte of the program at `TARGET_ADDRESS`, and all programs are in memory**.
-/

namespace Sp2.Loader

open X86

section Switch

variable {labels : Labels} {boot bytes : List UInt8} {mem : ℕ → UInt8} {placed : List Placement}
  {offset a i : ℕ} {b : UInt8} {limit base : UInt16}

/-- The address is that of a byte of the descriptors. -/
def InGdt (a : ℕ) : Prop := 0x500 ≤ a ∧ a < 0x528

/-- The first sector is in memory. -/
def SectorAt (boot : List UInt8) (mem : ℕ → UInt8) : Prop :=
  ∀ j < 510, mem (bootAddress + j) = boot.getD j 0

lemma moveGdt_of_notMem (ha : ¬ InGdt a) : moveGdt labels mem a = mem a := by
  refine storeAt_of_notMem ?_
  change a < 0x500 ∨ 0x500 + 40 ≤ a
  rw [InGdt] at ha
  omega

/-- The descriptors are moved. -/
lemma moveGdt_apply (hboot : HasBytes boot gdt labels.startGdt) (hmem : SectorAt boot mem)
    (hb : gdt[i]? = some b) : moveGdt labels mem (0x500 + i) = b := by
  have hi : i < gdt.length := (List.getElem?_eq_some_iff.mp hb).1
  have hget : ((List.range gdt.length).map
      fun i => mem (bootAddress + labels.startGdt + i))[i]? = some b := by
    have hsector := hmem (labels.startGdt + i) (by have := hboot.1; omega)
    rw [hboot.2 i b hb, ← Nat.add_assoc] at hsector
    simp [hi, hsector]
  exact storeAt_apply hget

/-- A table register is loaded as it was assembled. -/
lemma loadTable_eq (hboot : HasBytes boot (pseudoDescriptor limit base) offset)
    (hmem : SectorAt boot mem) :
    loadTable mem (bootAddress + offset) = ⟨limit, base.toUInt32⟩ := by
  have hbyte {i : ℕ} {b : UInt8} (hb : (pseudoDescriptor limit base)[i]? = some b) :
      mem (bootAddress + offset + i) = b := by
    have hi : i < (pseudoDescriptor limit base).length := (List.getElem?_eq_some_iff.mp hb).1
    rw [Nat.add_assoc, hmem (offset + i) (by have := hboot.1; omega), hboot.2 i b hb]
  have h₀ : mem (bootAddress + offset) = limit.toUInt8 := hbyte (i := 0) rfl
  have h₁ : mem (bootAddress + offset + 1) = (limit >>> 8).toUInt8 := hbyte rfl
  have h₂ : mem (bootAddress + offset + 2) = base.toUInt8 := hbyte rfl
  have h₃ : mem (bootAddress + offset + 3) = (base >>> 8).toUInt8 := hbyte rfl
  have h₄ : mem (bootAddress + offset + 4) = 0 := hbyte rfl
  have hword (w : UInt16) : w.toUInt8.toNat + 2 ^ 8 * (w >>> 8).toUInt8.toNat = w.toNat := by
    simp only [UInt16.toNat_toUInt8, UInt16.toNat_shiftRight, UInt16.reduceToNat,
      Nat.shiftRight_eq_div_pow, Nat.reduceMod]
    have := w.toNat_lt
    omega
  rw [loadTable, h₀, h₁, h₂, h₃, h₄, hword, hword]
  congr 1
  · exact UInt16.ofNat_toNat
  · rw [← UInt32.toNat_inj, UInt32.toNat_ofNat', UInt16.toNat_toUInt32]
    have := base.toNat_lt
    simp

/-- The first sector is still there after the programs have been loaded. -/
lemma sectorAt_stored (hfits : ∀ x ∈ placed, x.Fits) (hmem : SectorAt boot mem) :
    SectorAt boot (stored placed mem) := fun j hj => by
  rw [stored_of_not_covers fun x hx hcovers => (hfits x hx).clear _ hcovers (Or.inr ?_)]
  · exact hmem j hj
  · rw [bootAddress]
    omega

/-- And after `move_gdt`. -/
lemma sectorAt_moveGdt (labels : Labels) (hmem : SectorAt boot mem) :
    SectorAt boot (moveGdt labels mem) :=
  fun j hj => by
    rw [moveGdt_of_notMem, hmem j hj]
    rw [InGdt, bootAddress]
    omega

end Switch

/-- **Entering the kernel**: after a bootable image has been loaded whose programs spare the place
of the descriptors, by a BIOS that reads each sector at one of three attempts, and after the switch
to protected mode, both table registers and the descriptors are as they were assembled, the
processor goes on at `TARGET_ADDRESS`, and every program is where it was to be loaded. -/
theorem kernel_entered {boot image : List UInt8} {bios : ℕ → ℕ → Attempt} {placed : List Placement}
    {labels : Labels} (mem : ℕ → UInt8) (h : Bootable boot image placed)
    (hasm : Assembled labels boot) (hclear : ∀ x ∈ placed, ∀ a, x.Covers a → ¬ InGdt a)
    (hbios : ∀ lba < diskSectors, ∃ t < 3, bios lba t = .success) :
    ∃ s, bootstrapRetry image bios mem = .ok s
      ∧ (switch labels s.mem).tables = tables ∧ GdtAt (switch labels s.mem).mem
      ∧ (switch labels s.mem).fetchAddress = targetAddress
      ∧ ∀ x ∈ placed, ∀ i b, (padded x.program.file)[i]? = some b →
        (switch labels s.mem).mem (UInt32.ofNat (x.address + i)) = b := by
  obtain ⟨s, mem₀, hdone, hmem, hboot, -⟩ := bootstrapRetry_stored mem h hbios
  have hsector : SectorAt boot s.mem := by
    rw [hmem]
    exact sectorAt_stored h.fits hboot
  have htables : (switch labels s.mem).tables = tables := by
    have hgdtr := loadTable_eq hasm.gdt48 (sectorAt_moveGdt labels hsector)
    have hidtr := loadTable_eq hasm.idt48 (sectorAt_moveGdt labels hsector)
    simp only [switch, hgdtr, hidtr]
    rfl
  have hgdt : GdtAt (switch labels s.mem).mem := fun i b hb => by
    have hi : i < 40 := (List.getElem?_eq_some_iff.mp hb).1
    have haddress : (gdtAddress + UInt32.ofNat i).toNat = 0x500 + i := by
      rw [UInt32.toNat_add, UInt32.toNat_ofNat']
      change (0x500 + i % 2 ^ 32) % 2 ^ 32 = _
      omega
    change moveGdt labels s.mem (gdtAddress + UInt32.ofNat i).toNat = b
    rw [haddress]
    exact moveGdt_apply hasm.gdt hsector hb
  refine ⟨s, hdone, htables, hgdt, ?_, fun x hx i b hb => ?_⟩
  · rw [Protected.fetchAddress, htables]
    change (tables.descriptor (switch labels s.mem).mem 0x0010).base + targetAddress = _
    rw [hgdt.codeSegment]
    rfl
  · have hcovers := covers_of_getElem? hb
    have haddress : (UInt32.ofNat (x.address + i)).toNat = x.address + i := by
      have hbelow := h.below x hx
      rw [UInt32.toNat_ofNat']
      exact Nat.mod_eq_of_lt (by have := hcovers.2; omega)
    change moveGdt labels s.mem (UInt32.ofNat (x.address + i)).toNat = b
    rw [haddress, moveGdt_of_notMem (hclear x hx _ hcovers), hmem]
    exact stored_apply h.apart hx hb

/-- A boot file that consists of the data alone. -/
def demoBoot : List UInt8 :=
  gdt ++ pseudoDescriptor 0x2000 0x0500 ++ pseudoDescriptor 0x0800 0x2500 ++ List.replicate 964 0

lemma demoBoot_assembled : Assembled ⟨0, 40, 50⟩ demoBoot := by
  have hbytes (bytes : List UInt8) (offset : ℕ) (hlen : offset + bytes.length ≤ 510)
      (hall : ∀ i < bytes.length, demoBoot.getD (offset + i) 0 = bytes.getD i 0) :
      HasBytes demoBoot bytes offset := by
    refine ⟨hlen, fun i b hb => ?_⟩
    rw [hall i (List.getElem?_eq_some_iff.mp hb).1, List.getD_eq_getElem?_getD, hb,
      Option.getD_some]
  exact ⟨hbytes _ _ (by decide) (by decide), hbytes _ _ (by decide) (by decide),
    hbytes _ _ (by decide) (by decide)⟩

/-- A kernel and another program, with this boot file. -/
theorem kernel_entered_demo : ∃ image s, bootstrapRetry image twice (fun _ => 0) = .ok s
    ∧ (switch ⟨0, 40, 50⟩ s.mem).fetchAddress = targetAddress
    ∧ (switch ⟨0, 40, 50⟩ s.mem).mem targetAddress = 1 := by
  have hsome : (buildImage demoBoot (demoPlaced.map (·.program))).isSome := by
    decide +kernel
  obtain ⟨image, himage⟩ := Option.isSome_iff_exists.mp hsome
  have hbootable : Bootable demoBoot image demoPlaced :=
    ⟨by decide +kernel, himage, by decide +kernel, by decide, demoPlaced_fits, demoPlaced_apart⟩
  have hclear : ∀ x ∈ demoPlaced, ∀ a, x.Covers a → ¬ InGdt a := by
    intro x hx a ha hgdt
    have hlow : 0x10000 ≤ x.address := by
      rw [demoPlaced, List.mem_cons, List.mem_singleton] at hx
      rcases hx with rfl | rfl <;> decide
    have := ha.1
    have := hgdt.2
    omega
  obtain ⟨s, hdone, -, -, hfetch, hstored⟩ := kernel_entered (fun _ => 0) hbootable
    demoBoot_assembled hclear fun lba _ => twice_succeeds lba
  exact ⟨image, s, hdone, hfetch, hstored _ List.mem_cons_self 0 1 rfl⟩

end Sp2.Loader
