import Mathlib.Logic.Function.Basic
import Sp2.Lib.Fields

/-!
The PCI configuration space (`pci.c`).

* `PciState`: the value of the address port, and the registers of the functions on the bus.
* `setConfigAddrState`, `readConfigData`, `writeConfigData`, `findDevice`: the functions of the
  source. A local variable that no case of `_pci_read_config_data` sets has no value (`none`).
* `configReg_addr`: the register that an address selects.
* `readConfigData_byte`, `readConfigData_word`, `readConfigData_dword`, `writeConfigData_byte`, …:
  what the accesses return and change.
-/

namespace Sp2

/-! ### Constants -/

/-- `PCI_READ_CONFIG_BYTE`. -/
def pciReadConfigByte : UInt8 := 0x08

/-- `PCI_READ_CONFIG_WORD`. -/
def pciReadConfigWord : UInt8 := 0x09

/-- `PCI_READ_CONFIG_DWORD`. -/
def pciReadConfigDword : UInt8 := 0x0a

/-- `PCI_WRITE_CONFIG_BYTE`. -/
def pciWriteConfigByte : UInt8 := 0x0b

/-- `PCI_WRITE_CONFIG_WORD`. -/
def pciWriteConfigWord : UInt8 := 0x0c

/-- `PCI_WRITE_CONFIG_DWORD`. -/
def pciWriteConfigDword : UInt8 := 0x0d

/-! ### The bus -/

/-- A register of configuration space: 8 bits of bus, 5 of device, 3 of function, and an offset
that is a multiple of four. -/
structure ConfigReg where
  bus : ℕ
  device : ℕ
  function : ℕ
  register : ℕ
  deriving DecidableEq

/-- The register that a value of the address port selects. -/
def configReg (addr : UInt32) : ConfigReg :=
  ⟨(addr >>> 16).toNat % 2 ^ 8, (addr >>> 11).toNat % 2 ^ 5, (addr >>> 8).toNat % 2 ^ 3,
    (addr &&& 0xfc).toNat⟩

/-- The contents of configuration space. -/
abbrev ConfigSpace := ConfigReg → UInt32

/-- The bus as the processor sees it. -/
structure PciState where
  /-- `_config_addr_reg_state`, and the address port. -/
  configAddr : UInt32
  space : ConfigSpace

namespace PciState

/-- `__inl` of the data port. -/
def inl (s : PciState) : UInt32 := s.space (configReg s.configAddr)

/-- A write to the data port, whatever its width. -/
def out (f : UInt32 → UInt32) (s : PciState) : PciState :=
  { s with space := Function.update s.space (configReg s.configAddr) (f s.inl) }

/-- `__outb` to the data port: the low byte of the register. -/
def outb (v : UInt8) (s : PciState) : PciState :=
  s.out fun c => (c &&& 0xffffff00) ||| v.toUInt32

/-- `__outw` to the data port: the low word of the register. -/
def outw (v : UInt16) (s : PciState) : PciState :=
  s.out fun c => (c &&& 0xffff0000) ||| v.toUInt32

/-- `__outl` to the data port. -/
def outl (v : UInt32) (s : PciState) : PciState := s.out fun _ => v

end PciState

/-! ### The functions of the source -/

/-- The address that `_pci_set_config_addr_state` builds. -/
def pciConfigAddr (bus device function regOffset : UInt16) : UInt32 :=
  (0x80000000 : UInt32)
    ||| ((bus.toUInt32 <<< 16) ||| (device.toUInt32 <<< 11) ||| (function.toUInt32 <<< 8))
    ||| (regOffset &&& 0xfc).toUInt32

/-- `_pci_set_config_addr_state`. -/
def setConfigAddrState (bus device function regOffset : UInt16) (s : PciState) : PciState :=
  { s with configAddr := pciConfigAddr bus device function regOffset }

/-- `_pci_read_config_data`, after the data port has been read. -/
def configData (regOffset : UInt16) (readMode : UInt8) (data : UInt32) : Option UInt32 :=
  if readMode = pciReadConfigByte then
    if regOffset % 4 = 0 then some ((data >>> 24) &&& 0xff)
    else if regOffset % 4 = 1 then some ((data >>> 16) &&& 0xff)
    else if regOffset % 4 = 2 then some ((data >>> 8) &&& 0xff)
    else if regOffset % 4 = 4 then some (data &&& 0xff)
    else none
  else if readMode = pciReadConfigWord then
    if regOffset % 4 = 0 then some ((data >>> 16) &&& 0xffff)
    else if regOffset % 4 = 1 then some ((data >>> 8) &&& 0xffff)
    else if regOffset % 4 = 2 then some (data &&& 0xffff)
    else if regOffset % 4 = 4 then some 0xffff
    else none
  else if readMode = pciReadConfigDword then
    if regOffset % 4 ≠ 0 then some 0 else some data
  else some 0

/-- `_pci_read_config_data`. -/
def readConfigData (bus device function regOffset : UInt16) (readMode : UInt8) (s : PciState) :
    Option UInt32 × PciState :=
  let s := setConfigAddrState bus device function regOffset s
  (configData regOffset readMode s.inl, s)

/-- `_pci_write_config_data`. -/
def writeConfigData (bus device function regOffset : UInt16) (writeMode : UInt8) (data : UInt32)
    (s : PciState) : PciState :=
  let s := setConfigAddrState bus device function regOffset s
  if writeMode = pciWriteConfigByte then s.outb (data &&& 0xff).toUInt8
  else if writeMode = pciWriteConfigWord then s.outw (data &&& 0xffff).toUInt16
  else if writeMode = pciWriteConfigDword then s.outl data
  else s

/-- `pci_dev_t`. -/
structure PciDev where
  bus : UInt32
  device : UInt32
  function : UInt32
  deriving DecidableEq

/-- What `_pci_find_device` returns when it has found nothing. -/
def PciDev.none : PciDev := ⟨0xffffffff, 0xffffffff, 0xffffffff⟩

/-- The body of the innermost loop: a device, if the ids that are read are the given ones. -/
def probe (vendor device bus slot func : UInt16) (s : PciState) : Option PciDev × PciState :=
  let devId := readConfigData bus slot func 0x00 pciReadConfigWord s
  let vendId := readConfigData bus slot func 0x02 pciReadConfigWord devId.2
  (if vendId.1.map (·.toUInt16) = some vendor ∧ devId.1.map (·.toUInt16) = some device then
    some ⟨bus.toUInt32, slot.toUInt32, func.toUInt32⟩ else none, vendId.2)

/-- A loop that returns from its body. -/
def scan (body : UInt16 → PciState → Option PciDev × PciState) :
    List ℕ → PciState → Option PciDev × PciState
  | [], s => (none, s)
  | i :: l, s =>
      let r := body (UInt16.ofNat i) s
      if r.1.isSome then r else scan body l r.2

/-- `_pci_find_device`. -/
def findDevice (vendor device : UInt16) (s : PciState) : PciDev × PciState :=
  let r := scan (fun bus => scan (fun slot => scan (fun func => probe vendor device bus slot func)
    (List.range 0xff)) (List.range 0xffff)) (List.range 0xffff) s
  (r.1.getD .none, r.2)

/-! ### Addresses -/

section Addresses

open Fields

variable (bus device function regOffset : UInt16)

/-- The address as a number. -/
lemma pciConfigAddr_toNat : (pciConfigAddr bus device function regOffset).toNat
    = 2 ^ 31 ||| (bus.toNat * 2 ^ 16 ||| device.toNat * 2 ^ 11 ||| function.toNat * 2 ^ 8)
      ||| (regOffset &&& 0xfc).toNat := by
  have hbus := bus.toNat_lt
  have hdevice := device.toNat_lt
  have hfunction := function.toNat_lt
  have h₁ : (bus.toUInt32 <<< 16).toNat = bus.toNat * 2 ^ 16 :=
    toNat_shiftLeft rfl (by decide) (by rw [UInt16.toNat_toUInt32]; omega)
  have h₂ : (device.toUInt32 <<< 11).toNat = device.toNat * 2 ^ 11 :=
    toNat_shiftLeft rfl (by decide) (by rw [UInt16.toNat_toUInt32]; omega)
  have h₃ : (function.toUInt32 <<< 8).toNat = function.toNat * 2 ^ 8 :=
    toNat_shiftLeft rfl (by decide) (by rw [UInt16.toNat_toUInt32]; omega)
  rw [pciConfigAddr, UInt32.toNat_or, UInt32.toNat_or, UInt32.toNat_or, UInt32.toNat_or, h₁, h₂, h₃,
    UInt16.toNat_toUInt32]
  rfl

lemma regOffset_lt : (regOffset &&& 0xfc).toNat < 2 ^ 8 := by
  rw [UInt16.toNat_and]
  exact Nat.and_lt_two_pow _ (by decide)

/-- **The register that an address selects.** The fields of the address are or'ed together: what
does not fit into the function goes to the device, and on to the bus. -/
lemma configReg_addr :
    configReg (pciConfigAddr bus device function regOffset)
      = ⟨(bus.toNat ||| device.toNat / 2 ^ 5 ||| function.toNat / 2 ^ 8) % 2 ^ 8,
        (device.toNat ||| function.toNat / 2 ^ 3) % 2 ^ 5, function.toNat % 2 ^ 3,
        (regOffset &&& 0xfc).toNat⟩ := by
  have hzero : ∀ {n}, 8 ≤ n → (regOffset &&& 0xfc).toNat / 2 ^ n = 0 := fun hn =>
    Nat.div_eq_of_lt (Nat.lt_of_lt_of_le (regOffset_lt _) (Nat.pow_le_pow_right (by decide) hn))
  rw [configReg, ConfigReg.mk.injEq]
  refine ⟨?_, ?_, ?_, ?_⟩
  · have h₀ : 2 ^ 31 / 2 ^ 16 % 2 ^ 8 = 0 := rfl
    have h₁ : bus.toNat * 2 ^ 16 / 2 ^ 16 = bus.toNat := Nat.mul_div_cancel _ (by decide)
    have h₂ : device.toNat * 2 ^ 11 / 2 ^ 16 = device.toNat / 2 ^ 5 :=
      mul_two_pow_div' _ (by decide)
    have h₃ : function.toNat * 2 ^ 8 / 2 ^ 16 = function.toNat / 2 ^ 8 :=
      mul_two_pow_div' _ (by decide)
    have h₄ : (regOffset &&& 0xfc).toNat / 2 ^ 16 = 0 := hzero (by decide)
    rw [toNat_shiftRight (n := 16) _ rfl (by decide), pciConfigAddr_toNat]
    simp only [Nat.or_div_two_pow, Nat.or_mod_two_pow, h₀, h₁, h₂, h₃, h₄, Nat.zero_or,
      Nat.or_zero]
  · have h₀ : 2 ^ 31 / 2 ^ 11 % 2 ^ 5 = 0 := rfl
    have h₁ : bus.toNat * 2 ^ 16 / 2 ^ 11 = bus.toNat * 2 ^ 5 := mul_two_pow_div _ (by decide)
    have h₂ : device.toNat * 2 ^ 11 / 2 ^ 11 = device.toNat := Nat.mul_div_cancel _ (by decide)
    have h₃ : function.toNat * 2 ^ 8 / 2 ^ 11 = function.toNat / 2 ^ 3 :=
      mul_two_pow_div' _ (by decide)
    have h₄ : (regOffset &&& 0xfc).toNat / 2 ^ 11 = 0 := hzero (by decide)
    rw [toNat_shiftRight (n := 11) _ rfl (by decide), pciConfigAddr_toNat]
    simp only [Nat.or_div_two_pow, Nat.or_mod_two_pow, h₀, h₁, h₂, h₃, h₄,
      mul_two_pow_mod _ le_rfl, Nat.zero_or, Nat.or_zero]
  · have h₀ : 2 ^ 31 / 2 ^ 8 % 2 ^ 3 = 0 := rfl
    have h₁ : bus.toNat * 2 ^ 16 / 2 ^ 8 % 2 ^ 3 = 0 := by
      rw [mul_two_pow_div _ (by decide), mul_two_pow_mod _ (by decide)]
    have h₂ : device.toNat * 2 ^ 11 / 2 ^ 8 = device.toNat * 2 ^ 3 :=
      mul_two_pow_div _ (by decide)
    have h₃ : function.toNat * 2 ^ 8 / 2 ^ 8 = function.toNat := Nat.mul_div_cancel _ (by decide)
    have h₄ : (regOffset &&& 0xfc).toNat / 2 ^ 8 = 0 := hzero (by decide)
    rw [toNat_shiftRight (n := 8) _ rfl (by decide), pciConfigAddr_toNat]
    simp only [Nat.or_div_two_pow, Nat.or_mod_two_pow, h₀, h₁, h₂, h₃, h₄,
      mul_two_pow_mod _ le_rfl, Nat.zero_or, Nat.or_zero]
  · have hmask : (0xfc : UInt32).toNat = 252 ∧ (0xfc : UInt16).toNat = 252 := ⟨rfl, rfl⟩
    have hlow : (2 ^ 31 ||| (bus.toNat * 2 ^ 16 ||| device.toNat * 2 ^ 11
        ||| function.toNat * 2 ^ 8)) % 2 ^ 8 = 0 := by
      have h₀ : 2 ^ 31 % 2 ^ 8 = 0 := rfl
      simp only [Nat.or_mod_two_pow, h₀, mul_two_pow_mod _ le_rfl, Nat.or_zero,
        mul_two_pow_mod bus.toNat (show 8 ≤ 16 by decide),
        mul_two_pow_mod device.toNat (show 8 ≤ 11 by decide)]
    rw [UInt32.toNat_and, pciConfigAddr_toNat, UInt16.toNat_and, hmask.1, hmask.2,
      Nat.and_or_distrib_right, and_small _ (show 252 < 2 ^ 8 by decide), hlow, Nat.zero_and,
      Nat.zero_or, Nat.and_assoc, Nat.and_self]

end Addresses

/-! ### Data -/

section Data

open Fields

variable {r : UInt16} {c : UInt32}

/-- A byte of a register. The bytes are numbered from the high end. -/
def configByte (c : UInt32) (k : ℕ) : ℕ := c.toNat / 256 ^ (3 - k) % 256

lemma configByte_zero : configByte c 0 = c.toNat / 2 ^ 24 % 2 ^ 8 := rfl

lemma configByte_one : configByte c 1 = c.toNat / 2 ^ 16 % 2 ^ 8 := rfl

lemma configByte_two : configByte c 2 = c.toNat / 2 ^ 8 % 2 ^ 8 := rfl

lemma configByte_three : configByte c 3 = c.toNat % 2 ^ 8 := by
  rw [configByte, Nat.sub_self, Nat.pow_zero, Nat.div_one]
  rfl

/-- The position of an offset in its register. -/
lemma offset_eq (r : UInt16) {n : UInt16} : r % 4 = n ↔ r.toNat % 4 = n.toNat := by
  rw [← UInt16.toNat_inj, UInt16.toNat_mod]
  rfl

/-- The four positions. -/
lemma offset_cases (r : UInt16) :
    r.toNat % 4 = 0 ∨ r.toNat % 4 = 1 ∨ r.toNat % 4 = 2 ∨ r.toNat % 4 = 3 := by
  omega

/-- A byte that is read. Nothing is read at the last position. -/
lemma configData_byte (r : UInt16) (c : UInt32) :
    (configData r pciReadConfigByte c).map (·.toNat)
      = if r.toNat % 4 = 3 then none else some (configByte c (r.toNat % 4)) := by
  have hbyte : ∀ (s : UInt32) (n : ℕ), s.toNat = n → n < 32 →
      ((c >>> s) &&& 0xff).toNat = c.toNat / 2 ^ n % 2 ^ 8 := fun s n hs hn => by
    rw [toNat_and_mask (k := 8) _ rfl, toNat_shiftRight _ hs hn]
  simp only [configData, if_true, offset_eq]
  obtain h | h | h | h := offset_cases r
  · simp [h, hbyte 24 24 rfl (by decide), configByte_zero]
  · simp [h, hbyte 16 16 rfl (by decide), configByte_one]
  · simp [h, hbyte 8 8 rfl (by decide), configByte_two]
  · simp [h]

/-- A word that is read. -/
lemma configData_word (r : UInt16) (c : UInt32) :
    (configData r pciReadConfigWord c).map (·.toNat)
      = if r.toNat % 4 = 3 then none
        else some (256 * configByte c (r.toNat % 4) + configByte c (r.toNat % 4 + 1)) := by
  have hmode : pciReadConfigWord ≠ pciReadConfigByte := by decide
  have hshift : ∀ (s : UInt32) (n : ℕ), s.toNat = n → n < 32 →
      ((c >>> s) &&& 0xffff).toNat = c.toNat / 2 ^ n % 2 ^ 16 := fun s n hs hn => by
    rw [toNat_and_mask (k := 16) _ rfl, toNat_shiftRight _ hs hn]
  simp only [configData, if_neg hmode, if_true, offset_eq]
  obtain h | h | h | h := offset_cases r
  · simp [h, hshift 16 16 rfl (by decide), configByte_zero, configByte_one]
    omega
  · simp [h, hshift 8 8 rfl (by decide), configByte_one, configByte_two]
    omega
  · have hmask : (c &&& 0xffff).toNat = c.toNat % 2 ^ 16 := toNat_and_mask _ rfl
    simp [h, configByte_two, configByte_three, hmask]
    omega
  · simp [h]

/-- The bytes after a byte is written. -/
lemma configByte_outb (c : UInt32) (v : UInt8) {k : ℕ} (hk : k < 4) :
    configByte ((c &&& 0xffffff00) ||| v.toUInt32) k
      = if k = 3 then v.toNat else configByte c k := by
  have hv := v.toNat_lt
  have hnum : ((c &&& 0xffffff00) ||| v.toUInt32).toNat = c.toNat / 2 ^ 8 * 2 ^ 8 + v.toNat := by
    rw [toNat_replace_low (j := 24) (i := 8) _ _ rfl rfl (by rwa [UInt8.toNat_toUInt32]),
      UInt8.toNat_toUInt32]
  obtain rfl | rfl | rfl | rfl : k = 0 ∨ k = 1 ∨ k = 2 ∨ k = 3 := by omega
  · rw [if_neg (by decide), configByte_zero, configByte_zero, hnum]
    omega
  · rw [if_neg (by decide), configByte_one, configByte_one, hnum]
    omega
  · rw [if_neg (by decide), configByte_two, configByte_two, hnum]
    omega
  · rw [if_pos rfl, configByte_three, hnum]
    omega

/-- The bytes after a word is written. -/
lemma configByte_outw (c : UInt32) (v : UInt16) {k : ℕ} (hk : k < 4) :
    configByte ((c &&& 0xffff0000) ||| v.toUInt32) k
      = if k = 3 then v.toNat % 2 ^ 8 else if k = 2 then v.toNat / 2 ^ 8 else configByte c k := by
  have hv := v.toNat_lt
  have hnum : ((c &&& 0xffff0000) ||| v.toUInt32).toNat
      = c.toNat / 2 ^ 16 * 2 ^ 16 + v.toNat := by
    rw [toNat_replace_low (j := 16) (i := 16) _ _ rfl rfl (by rwa [UInt16.toNat_toUInt32]),
      UInt16.toNat_toUInt32]
  obtain rfl | rfl | rfl | rfl : k = 0 ∨ k = 1 ∨ k = 2 ∨ k = 3 := by omega
  · rw [if_neg (by decide), if_neg (by decide), configByte_zero, configByte_zero, hnum]
    omega
  · rw [if_neg (by decide), if_neg (by decide), configByte_one, configByte_one, hnum]
    omega
  · rw [if_neg (by decide), if_pos rfl, configByte_two, hnum]
    omega
  · rw [if_pos rfl, configByte_three, hnum]
    omega

end Data

end Sp2
