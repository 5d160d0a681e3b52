import Sp2.Devices.Pci

/-!
Accesses to PCI configuration space with different widths.

* `KeepsByte`, `KeepsWord`: a byte or a word that is written is read back, and the other bytes of
  the register stay as they are.
* `keepsByte_iff`, `keepsWord_iff`: when this is so. A write goes to the low end of the register,
  and a read counts the bytes from the high end.
* `widths_agree`: **which accesses agree**. Reads do but for a byte at the last position
  (`case 4:` for `case 3:`), writes only for a word at the low end of its register.
-/

namespace Sp2

/-! ### The statement -/

/-- The contents of a register. -/
def PciState.register (s : PciState) (bus device function r : UInt16) : UInt32 :=
  s.space (configReg (pciConfigAddr bus device function r))

section Statement

variable (bus device function r : UInt16)

/-- A byte that is written at an offset is read there afterwards, and every other byte of the
register is unchanged. -/
def KeepsByte (v : UInt8) (s : PciState) : Prop :=
  let s' := writeConfigData bus device function r pciWriteConfigByte v.toUInt32 s
  (readConfigData bus device function r pciReadConfigByte s').1 = some v.toUInt32
    ∧ ∀ k < 4, k ≠ r.toNat % 4 → configByte (s'.register bus device function r) k
      = configByte (s.register bus device function r) k

/-- So is a word. -/
def KeepsWord (v : UInt16) (s : PciState) : Prop :=
  let s' := writeConfigData bus device function r pciWriteConfigWord v.toUInt32 s
  (readConfigData bus device function r pciReadConfigWord s').1 = some v.toUInt32
    ∧ ∀ k < 4, k ≠ r.toNat % 4 → k ≠ r.toNat % 4 + 1 →
      configByte (s'.register bus device function r) k
        = configByte (s.register bus device function r) k

end Statement

/-! ### Registers -/

section Registers

variable {bus device function r : UInt16} {s : PciState}

/-- An offset that is rounded down. -/
lemma sub_offset_toNat (r : UInt16) : (r - r % 4).toNat = r.toNat / 2 ^ 2 * 2 ^ 2 := by
  have hmod : (r % 4).toNat = r.toNat % 4 := UInt16.toNat_mod r 4
  rw [UInt16.toNat_sub_of_le _ _ (by rw [UInt16.le_iff_toNat_le, hmod]; omega), hmod]
  omega

/-- An offset and its multiple of four are in the same register. -/
lemma pciConfigAddr_aligned (bus device function r : UInt16) :
    pciConfigAddr bus device function (r - r % 4) = pciConfigAddr bus device function r := by
  have hmask : (r - r % 4) &&& 0xfc = r &&& 0xfc := by
    rw [← UInt16.toNat_inj, UInt16.toNat_and, UInt16.toNat_and, sub_offset_toNat]
    exact (Fields.and_mul_two_pow r.toNat 63 2).symm
  rw [pciConfigAddr, pciConfigAddr, hmask]

lemma register_byte (v : UInt8) :
    (writeConfigData bus device function r pciWriteConfigByte v.toUInt32 s).register bus device
        function r
      = (s.register bus device function r &&& 0xffffff00) ||| v.toUInt32 := by
  have hv : (v.toUInt32 &&& 0xff).toUInt8 = v := by
    have hlt := v.toNat_lt
    rw [← UInt8.toNat_inj, UInt32.toNat_toUInt8, Fields.toNat_and_mask (k := 8) _ rfl,
      UInt8.toNat_toUInt32]
    omega
  rw [writeConfigData, if_pos rfl, hv]
  exact Function.update_self ..

lemma register_word (v : UInt16) :
    (writeConfigData bus device function r pciWriteConfigWord v.toUInt32 s).register bus device
        function r
      = (s.register bus device function r &&& 0xffff0000) ||| v.toUInt32 := by
  have hv : (v.toUInt32 &&& 0xffff).toUInt16 = v := by
    have hlt := v.toNat_lt
    rw [← UInt16.toNat_inj, UInt32.toNat_toUInt16, Fields.toNat_and_mask (k := 16) _ rfl,
      UInt16.toNat_toUInt32]
    omega
  rw [writeConfigData, if_neg (by decide), if_pos rfl, hv]
  exact Function.update_self ..

end Registers

/-- The bytes of a register one by one. -/
lemma forall_byte {P : ℕ → Prop} : (∀ k < 4, P k) ↔ P 0 ∧ P 1 ∧ P 2 ∧ P 3 := by
  refine ⟨fun h => ⟨h 0 (by decide), h 1 (by decide), h 2 (by decide), h 3 (by decide)⟩,
    fun h k hk => ?_⟩
  obtain ⟨h₀, h₁, h₂, h₃⟩ := h
  obtain rfl | rfl | rfl | rfl : k = 0 ∨ k = 1 ∨ k = 2 ∨ k = 3 := by omega
  exacts [h₀, h₁, h₂, h₃]

/-! ### Writes -/

section Writes

variable {bus device function r : UInt16} {s : PciState}

/-- The value of a read, as a number. -/
lemma eq_some_iff_toNat {o : Option UInt32} {v : UInt32} :
    o = some v ↔ o.map (·.toNat) = some v.toNat := by
  cases o with
  | none => simp
  | some w => simp [UInt32.toNat_inj]

/-- **A byte is kept only by chance**: where it is in the register already, at the offset and at
the low end. -/
lemma keepsByte_iff (v : UInt8) :
    KeepsByte bus device function r v s ↔ r.toNat % 4 ≠ 3
      ∧ configByte (s.register bus device function r) (r.toNat % 4) = v.toNat
      ∧ configByte (s.register bus device function r) 3 = v.toNat := by
  have hread : ∀ s' : PciState, (readConfigData bus device function r pciReadConfigByte s').1
      = configData r pciReadConfigByte (s'.register bus device function r) := fun _ => rfl
  simp only [KeepsByte, hread, eq_some_iff_toNat, configData_byte, register_byte,
    UInt8.toNat_toUInt32]
  generalize s.register bus device function r = c
  rw [forall_byte]
  simp only [configByte_outb c v (show 0 < 4 by decide), configByte_outb c v (show 1 < 4 by decide),
    configByte_outb c v (show 2 < 4 by decide), configByte_outb c v (show 3 < 4 by decide)]
  obtain h | h | h | h := offset_cases r
  · simp [h, configByte_outb]
    exact fun _ => eq_comm
  · simp [h, configByte_outb]
    exact fun _ => eq_comm
  · simp [h, configByte_outb]
    exact fun _ => eq_comm
  · simp [h]

/-- **A word is kept at the low end of its register**, and elsewhere only by chance. -/
lemma keepsWord_iff (v : UInt16) :
    KeepsWord bus device function r v s ↔ r.toNat % 4 = 2
      ∨ r.toNat % 4 = 0 ∧ configByte (s.register bus device function r) 0 = v.toNat / 2 ^ 8
        ∧ configByte (s.register bus device function r) 1 = v.toNat % 2 ^ 8
        ∧ configByte (s.register bus device function r) 2 = v.toNat / 2 ^ 8
        ∧ configByte (s.register bus device function r) 3 = v.toNat % 2 ^ 8
      ∨ r.toNat % 4 = 1 ∧ configByte (s.register bus device function r) 1 = v.toNat / 2 ^ 8
        ∧ v.toNat / 2 ^ 8 = v.toNat % 2 ^ 8
        ∧ configByte (s.register bus device function r) 3 = v.toNat % 2 ^ 8 := by
  have hread : ∀ s' : PciState, (readConfigData bus device function r pciReadConfigWord s').1
      = configData r pciReadConfigWord (s'.register bus device function r) := fun _ => rfl
  have hbyte : ∀ c k, configByte c k < 2 ^ 8 := fun c k => Nat.mod_lt _ (by decide)
  have hv := v.toNat_lt
  simp only [KeepsWord, hread, eq_some_iff_toNat, configData_word, register_word,
    UInt16.toNat_toUInt32]
  generalize s.register bus device function r = c
  have h₀ := hbyte c 0
  have h₁ := hbyte c 1
  rw [forall_byte]
  simp only [configByte_outw c v (show 0 < 4 by decide), configByte_outw c v (show 1 < 4 by decide),
    configByte_outw c v (show 2 < 4 by decide), configByte_outw c v (show 3 < 4 by decide)]
  obtain h | h | h | h := offset_cases r
  · simp [h, configByte_outw]
    omega
  · simp [h, configByte_outw]
    omega
  · simp [h, configByte_outw]
    omega
  · simp [h]

end Writes

/-! ### The theorem -/

/-- **Which accesses to configuration space agree**, for every content of a register, whose dword
is read at the offset rounded down, with the bytes numbered from its high end. -/
theorem widths_agree (bus device function r : UInt16) (s : PciState) :
    ∃ c, (readConfigData bus device function (r - r % 4) pciReadConfigDword s).1 = some c
      ∧ ((readConfigData bus device function r pciReadConfigByte s).1.map (·.toNat)
          = some (configByte c (r.toNat % 4)) ↔ r.toNat % 4 ≠ 3)
      ∧ (r.toNat % 2 = 0 →
          (readConfigData bus device function r pciReadConfigWord s).1.map (·.toNat)
            = some (256 * configByte c (r.toNat % 4) + configByte c (r.toNat % 4 + 1)))
      ∧ (∀ v, KeepsByte bus device function r v s ↔ r.toNat % 4 ≠ 3
          ∧ configByte c (r.toNat % 4) = v.toNat ∧ configByte c 3 = v.toNat)
      ∧ ∀ v, KeepsWord bus device function r v s ↔ r.toNat % 4 = 2
          ∨ r.toNat % 4 = 0 ∧ configByte c 0 = v.toNat / 2 ^ 8 ∧ configByte c 1 = v.toNat % 2 ^ 8
            ∧ configByte c 2 = v.toNat / 2 ^ 8 ∧ configByte c 3 = v.toNat % 2 ^ 8
          ∨ r.toNat % 4 = 1 ∧ configByte c 1 = v.toNat / 2 ^ 8
            ∧ v.toNat / 2 ^ 8 = v.toNat % 2 ^ 8 ∧ configByte c 3 = v.toNat % 2 ^ 8 := by
  have hread : ∀ mode, (readConfigData bus device function r mode s).1
      = configData r mode (s.register bus device function r) := fun _ => rfl
  refine ⟨s.register bus device function r, ?_, ?_, fun hr => ?_, keepsByte_iff, keepsWord_iff⟩
  · have hzero : (r - r % 4) % 4 = 0 := by
      rw [offset_eq, sub_offset_toNat]
      exact Nat.mul_mod_left _ _
    rw [readConfigData, setConfigAddrState, pciConfigAddr_aligned, configData, if_neg (by decide),
      if_neg (by decide), if_pos rfl, if_neg (not_not.mpr hzero)]
    rfl
  · rw [hread, configData_byte]
    split_ifs with h <;> simp [h]
  · rw [hread, configData_word, if_neg (by omega)]

/-- A bus whose registers are all zero. -/
def pciZero : PciState := ⟨0, fun _ => 0⟩

/-- A word at offset 6 is kept. -/
theorem widths_agree_word : KeepsWord 0 0 0 6 0x1234 pciZero := by
  obtain ⟨c, -, -, -, -, hword⟩ := widths_agree 0 0 0 6 pciZero
  exact (hword 0x1234).mpr (Or.inl rfl)

/-- With no numbering of the bytes is the byte at each offset a part of the dword, and a byte that
is written at offset 0 is not read there. -/
theorem byte_lost :
    (¬ ∃ part : UInt32 → ℕ → ℕ, ∀ (bus device function r : UInt16) (s : PciState) (c : UInt32),
      (readConfigData bus device function (r - r % 4) pciReadConfigDword s).1 = some c →
      (readConfigData bus device function r pciReadConfigByte s).1.map (·.toNat)
        = some (part c (r.toNat % 4)))
    ∧ ¬ KeepsByte 0 0 0 0 5 pciZero := by
  refine ⟨fun ⟨part, h⟩ => absurd (h 0 0 0 3 pciZero 0 (by decide)) ?_, fun h => ?_⟩
  · rw [show (readConfigData 0 0 0 3 pciReadConfigByte pciZero).1 = none by decide]
    simp
  · exact absurd h.1 (by decide)

end Sp2
