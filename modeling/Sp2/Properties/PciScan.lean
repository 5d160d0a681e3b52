import Sp2.Devices.Pci

/-!
The search for a PCI device.

* `FirstMatch`: the first function on the bus, in the order of bus, device and function, that has
  the given ids.
* `findDevice_eq`: the three loops as a search in three nested ranges.
* `findDevice_of_firstMatch`: what the search returns for the first match. The loops run over more
  than the fields of an address hold, and what does not fit goes to the next field: the search
  meets every function while `bus` is still zero, and nearly every one of a bus while `slot` is.
* `device_found`: `_pci_find_device` returns the first match **exactly if that is on device 0 of
  bus 0**, or there is none.
-/

namespace Sp2

/-! ### The statement -/

/-- The ids in the first register of a function: the vendor in the low word, the device in the high
one. -/
def HasIds (vendor device : UInt16) (c : UInt32) : Prop :=
  c.toNat % 2 ^ 16 = vendor.toNat ∧ c.toNat / 2 ^ 16 = device.toNat

instance (vendor device : UInt16) (c : UInt32) : Decidable (HasIds vendor device c) :=
  inferInstanceAs (Decidable (_ ∧ _))

/-- A function of the bus has the ids. -/
structure Matching (space : ConfigSpace) (vendor device : UInt16) (b d f : ℕ) : Prop where
  bus_lt : b < 2 ^ 8
  device_lt : d < 2 ^ 5
  function_lt : f < 2 ^ 3
  ids : HasIds vendor device (space ⟨b, d, f, 0⟩)

/-- The place of a function in the order of bus, device and function. -/
def functionNumber (b d f : ℕ) : ℕ := 256 * b + 8 * d + f

/-- The first function in this order that has the ids. -/
structure FirstMatch (space : ConfigSpace) (vendor device : UInt16) (b d f : ℕ) : Prop where
  matching : Matching space vendor device b d f
  first : ∀ b' d' f', Matching space vendor device b' d' f' →
    functionNumber b d f ≤ functionNumber b' d' f'

/-- What is to be returned: the first match, or all ones if no function matches. -/
structure IsFound (space : ConfigSpace) (vendor device : UInt16) (found : PciDev) : Prop where
  first : ∀ b d f, FirstMatch space vendor device b d f →
    found = ⟨UInt32.ofNat b, UInt32.ofNat d, UInt32.ofNat f⟩
  none : (∀ b d f, ¬ Matching space vendor device b d f) → found = .none

/-! ### The loops -/

section Loops

variable {space : ConfigSpace} {vendor device : UInt16}

/-- A search in a range finds the first hit. -/
lemma findSome?_range_eq_some {α : Type} {n i : ℕ} {g : ℕ → Option α} {x : α} (hi : i < n)
    (hx : g i = some x) (hfirst : ∀ j < i, g j = none) : (List.range n).findSome? g = some x := by
  induction n with
  | zero => exact absurd hi (Nat.not_lt_zero i)
  | succ n ih =>
      rw [List.range_succ, List.findSome?_append]
      by_cases hin : i < n
      · rw [ih hin]
        rfl
      · obtain rfl : i = n := by omega
        have hnone : (List.range i).findSome? g = none :=
          List.findSome?_eq_none_iff.mpr fun j hj => hfirst j (List.mem_range.mp hj)
        rw [hnone, Option.none_or, List.findSome?_cons, hx]

/-- What a loop returns, if its body leaves configuration space alone. -/
lemma scan_spec (body : UInt16 → PciState → Option PciDev × PciState) {g : ℕ → Option PciDev}
    {n : ℕ} (hbody : ∀ i < n, ∀ s, s.space = space →
      (body (UInt16.ofNat i) s).1 = g i ∧ (body (UInt16.ofNat i) s).2.space = space) :
    ∀ l : List ℕ, (∀ i ∈ l, i < n) → ∀ s, s.space = space →
      (scan body l s).1 = l.findSome? g ∧ (scan body l s).2.space = space := by
  intro l
  induction l with
  | nil => exact fun _ s hs => ⟨rfl, hs⟩
  | cons i l ih =>
      intro hl s hs
      obtain ⟨hi, hl⟩ := List.forall_mem_cons.mp hl
      obtain ⟨hvalue, hspace⟩ := hbody i hi s hs
      rw [scan, List.findSome?_cons, hvalue]
      cases hg : g i with
      | none => simpa [hvalue, hg] using ih hl _ hspace
      | some x => simpa [hvalue, hg] using hspace

/-- The function that an innermost step of the search looks at, and what it finds. -/
def probed (space : ConfigSpace) (vendor device : UInt16) (bus slot func : ℕ) : Option PciDev :=
  if HasIds vendor device
      (space ⟨(bus ||| slot / 2 ^ 5) % 2 ^ 8, (slot ||| func / 2 ^ 3) % 2 ^ 5, func % 2 ^ 3, 0⟩)
  then some ⟨UInt32.ofNat bus, UInt32.ofNat slot, UInt32.ofNat func⟩ else none

/-- The two words that are read are the halves of the first register. -/
lemma hasIds_iff (c : UInt32) : HasIds vendor device c ↔
    (configData 2 pciReadConfigWord c).map (·.toUInt16) = some vendor
      ∧ (configData 0 pciReadConfigWord c).map (·.toUInt16) = some device := by
  have hlow : ((c &&& 0xffff).toUInt16).toNat = c.toNat % 2 ^ 16 := by
    rw [UInt32.toNat_toUInt16, Fields.toNat_and_mask (k := 16) _ rfl, Nat.mod_mod]
  have hhigh : (((c >>> 16) &&& 0xffff).toUInt16).toNat = c.toNat / 2 ^ 16 := by
    have := c.toNat_lt
    rw [UInt32.toNat_toUInt16, Fields.toNat_and_mask (k := 16) _ rfl,
      Fields.toNat_shiftRight (n := 16) _ rfl (by decide)]
    omega
  have hread₂ : configData 2 pciReadConfigWord c = some (c &&& 0xffff) := rfl
  have hread₀ : configData 0 pciReadConfigWord c = some ((c >>> 16) &&& 0xffff) := rfl
  rw [hread₂, hread₀, Option.map_some, Option.map_some, Option.some_inj, Option.some_inj,
    ← UInt16.toNat_inj, ← UInt16.toNat_inj, hlow, hhigh, HasIds]

/-- The body of the innermost loop. -/
lemma probe_spec {bus slot func : ℕ} (hbus : bus < 2 ^ 16) (hslot : slot < 2 ^ 16)
    (hfunc : func < 2 ^ 8) {s : PciState} (hs : s.space = space) :
    (probe vendor device (UInt16.ofNat bus) (UInt16.ofNat slot) (UInt16.ofNat func) s).1
        = probed space vendor device bus slot func
      ∧ (probe vendor device (UInt16.ofNat bus) (UInt16.ofNat slot) (UInt16.ofNat func) s).2.space
        = space := by
  have haddr : ∀ off : UInt16, off &&& 0xfc = 0 →
      configReg (pciConfigAddr (UInt16.ofNat bus) (UInt16.ofNat slot) (UInt16.ofNat func) off)
        = ⟨(bus ||| slot / 2 ^ 5) % 2 ^ 8, (slot ||| func / 2 ^ 3) % 2 ^ 5, func % 2 ^ 3, 0⟩ := by
    intro off hoff
    have hzero : func / 2 ^ 8 = 0 := Nat.div_eq_of_lt hfunc
    have hfunc' : func < 2 ^ 16 := by omega
    rw [configReg_addr, hoff, UInt16.toNat_ofNat', UInt16.toNat_ofNat', UInt16.toNat_ofNat',
      Nat.mod_eq_of_lt hbus, Nat.mod_eq_of_lt hslot, Nat.mod_eq_of_lt hfunc', hzero, Nat.or_zero]
    rfl
  have hword : ∀ n < 2 ^ 16, (UInt16.ofNat n).toUInt32 = UInt32.ofNat n := by
    intro n hn
    rw [← UInt32.toNat_inj, UInt16.toNat_toUInt32, UInt16.toNat_ofNat', UInt32.toNat_ofNat']
    omega
  have hread : ∀ off : UInt16, off &&& 0xfc = 0 → ∀ t : PciState, t.space = space →
      (readConfigData (UInt16.ofNat bus) (UInt16.ofNat slot) (UInt16.ofNat func) off
        pciReadConfigWord t).1 = configData off pciReadConfigWord (space
          ⟨(bus ||| slot / 2 ^ 5) % 2 ^ 8, (slot ||| func / 2 ^ 3) % 2 ^ 5, func % 2 ^ 3, 0⟩) := by
    intro off hoff t ht
    rw [← haddr off hoff, ← ht]
    rfl
  refine ⟨if_congr ?_ ?_ rfl, hs⟩
  · have hsecond := hread 2 rfl (readConfigData (UInt16.ofNat bus) (UInt16.ofNat slot)
      (UInt16.ofNat func) 0 pciReadConfigWord s).2 hs
    rw [hasIds_iff, hread 0 rfl s hs, hsecond]
  · rw [hword bus hbus, hword slot hslot, hword func (by omega)]

/-- **The search**, as nested searches in ranges. -/
lemma findDevice_eq (s : PciState) : (findDevice vendor device s).1
    = ((List.range 0xffff).findSome? fun bus => (List.range 0xffff).findSome? fun slot =>
      (List.range 0xff).findSome? fun func => probed s.space vendor device bus slot func).getD
        .none := by
  have hfunc : ∀ bus < 0xffff, ∀ slot < 0xffff, ∀ t : PciState, t.space = s.space →
      (scan (fun func => probe vendor device (UInt16.ofNat bus) (UInt16.ofNat slot) func)
        (List.range 0xff) t).1
          = ((List.range 0xff).findSome? fun func => probed s.space vendor device bus slot func)
        ∧ (scan (fun func => probe vendor device (UInt16.ofNat bus) (UInt16.ofNat slot) func)
          (List.range 0xff) t).2.space = s.space := fun bus hbus slot hslot t ht =>
    scan_spec (n := 0xff) (probe vendor device _ _)
      (fun func hf t ht => probe_spec (by omega) (by omega) (by omega) ht) _
      (fun _ => List.mem_range.mp) t ht
  have hslot : ∀ bus < 0xffff, ∀ t : PciState, t.space = s.space →
      (scan (fun slot => scan (fun func => probe vendor device (UInt16.ofNat bus) slot func)
        (List.range 0xff)) (List.range 0xffff) t).1
          = ((List.range 0xffff).findSome? fun slot => (List.range 0xff).findSome? fun func =>
            probed s.space vendor device bus slot func)
        ∧ (scan (fun slot => scan (fun func => probe vendor device (UInt16.ofNat bus) slot func)
          (List.range 0xff)) (List.range 0xffff) t).2.space = s.space := fun bus hbus t ht =>
    scan_spec (n := 0xffff) (fun slot => scan (fun func =>
        probe vendor device (UInt16.ofNat bus) slot func) (List.range 0xff)) (hfunc bus hbus) _
      (fun _ => List.mem_range.mp) t ht
  have hbus := (scan_spec (n := 0xffff) (fun bus => scan (fun slot => scan (fun func =>
    probe vendor device bus slot func) (List.range 0xff)) (List.range 0xffff)) hslot
      (List.range 0xffff) (fun _ => List.mem_range.mp) s rfl).1
  rw [findDevice, hbus]

/-! ### The first match -/

/-- What an innermost step looks at is a function of the bus. -/
lemma probed_eq_none {bus slot func : ℕ} (h : ¬ Matching space vendor device
    ((bus ||| slot / 2 ^ 5) % 2 ^ 8) ((slot ||| func / 2 ^ 3) % 2 ^ 5) (func % 2 ^ 3)) :
    probed space vendor device bus slot func = none :=
  if_neg fun hids => h ⟨Nat.mod_lt _ (by decide), Nat.mod_lt _ (by decide),
    Nat.mod_lt _ (by decide), hids⟩

/-- While `bus` is zero, so are the upper bits of the bus: the upper bits of `slot` are the bus. -/
lemma probed_zero {slot func : ℕ} (hslot : slot < 2 ^ 13) :
    probed space vendor device 0 slot func =
      if HasIds vendor device
        (space ⟨slot / 2 ^ 5, (slot ||| func / 2 ^ 3) % 2 ^ 5, func % 2 ^ 3, 0⟩)
      then some ⟨0, UInt32.ofNat slot, UInt32.ofNat func⟩ else none := by
  rw [probed, Nat.zero_or, Nat.mod_eq_of_lt (show slot / 2 ^ 5 < 2 ^ 8 by omega)]
  rfl

variable {b d f : ℕ}

/-- Nothing is found before the first match. -/
lemma FirstMatch.none_before (h : FirstMatch space vendor device b d f) {slot func : ℕ}
    (hslot : slot < 2 ^ 13)
    (hlt : functionNumber (slot / 2 ^ 5) ((slot ||| func / 2 ^ 3) % 2 ^ 5) (func % 2 ^ 3)
      < functionNumber b d f) : probed space vendor device 0 slot func = none := by
  refine probed_eq_none fun hm => ?_
  rw [Nat.zero_or, Nat.mod_eq_of_lt (show slot / 2 ^ 5 < 2 ^ 8 by omega)] at hm
  have := h.first _ _ _ hm
  omega

/-- The slots of an earlier bus find nothing. -/
lemma FirstMatch.none_slot (h : FirstMatch space vendor device b d f) {slot : ℕ}
    (hslot : slot / 2 ^ 5 < b) :
    ((List.range 0xff).findSome? fun func => probed space vendor device 0 slot func) = none := by
  have hb := h.matching.bus_lt
  refine List.findSome?_eq_none_iff.mpr fun func _ => h.none_before (by omega) ?_
  have hd := Nat.mod_lt (slot ||| func / 2 ^ 3) (show 0 < 2 ^ 5 by decide)
  rw [functionNumber, functionNumber]
  omega

/-- **What the search returns for the first match.** -/
lemma findDevice_of_firstMatch {s : PciState} (h : FirstMatch s.space vendor device b d f) :
    (findDevice vendor device s).1 = if d = 31 ∧ f = 7
      then ⟨0, UInt32.ofNat (32 * b + 1), 247⟩
      else ⟨0, UInt32.ofNat (32 * b), UInt32.ofNat (8 * d + f)⟩ := by
  have hb := h.matching.bus_lt
  have hd := h.matching.device_lt
  have hf := h.matching.function_lt
  -- the slot and the function of the first hit, while the bus is zero
  have key : ∀ slot func : ℕ, slot < 2 ^ 13 → func < 0xff → slot / 2 ^ 5 = b →
      (slot ||| func / 2 ^ 3) % 2 ^ 5 = d → func % 2 ^ 3 = f →
      (∀ slot' < slot, slot' / 2 ^ 5 < b ∨ ∀ func' < 0xff,
        functionNumber (slot' / 2 ^ 5) ((slot' ||| func' / 2 ^ 3) % 2 ^ 5) (func' % 2 ^ 3)
          < functionNumber b d f) →
      (∀ func' < func, functionNumber b ((slot ||| func' / 2 ^ 3) % 2 ^ 5) (func' % 2 ^ 3)
          < functionNumber b d f) →
      (findDevice vendor device s).1 = ⟨0, UInt32.ofNat slot, UInt32.ofNat func⟩ := by
    intro slot func hslot hfunc hsb hsd hsf hslots hfuncs
    have hhit : probed s.space vendor device 0 slot func
        = some ⟨0, UInt32.ofNat slot, UInt32.ofNat func⟩ := by
      rw [probed_zero hslot, hsb, hsd, hsf, if_pos h.matching.ids]
    have hinner : ((List.range 0xff).findSome? fun func =>
        probed s.space vendor device 0 slot func)
          = some ⟨0, UInt32.ofNat slot, UInt32.ofNat func⟩ :=
      findSome?_range_eq_some hfunc hhit fun func' hlt => h.none_before hslot (by
        rw [hsb]
        exact hfuncs func' hlt)
    have hmiddle : ((List.range 0xffff).findSome? fun slot => (List.range 0xff).findSome?
        fun func => probed s.space vendor device 0 slot func)
          = some ⟨0, UInt32.ofNat slot, UInt32.ofNat func⟩ :=
      findSome?_range_eq_some (by omega) hinner fun slot' hlt => by
        rcases hslots slot' hlt with hbefore | hbefore
        · exact h.none_slot hbefore
        · exact List.findSome?_eq_none_iff.mpr fun func' hmem =>
            h.none_before (by omega) (hbefore func' (List.mem_range.mp hmem))
    have houter : ((List.range 0xffff).findSome? fun bus => (List.range 0xffff).findSome?
        fun slot => (List.range 0xff).findSome?
          fun func => probed s.space vendor device bus slot func)
            = some ⟨0, UInt32.ofNat slot, UInt32.ofNat func⟩ :=
      findSome?_range_eq_some (Nat.zero_lt_succ _) hmiddle fun j hj => absurd hj (Nat.not_lt_zero j)
    rw [findDevice_eq, houter, Option.getD_some]
  have hor₀ : ∀ x < 2 ^ 5, (32 * b ||| x) % 2 ^ 5 = x := fun x hx => by
    rw [Nat.or_mod_two_pow, show 32 * b % 2 ^ 5 = 0 by omega, Nat.zero_or, Nat.mod_eq_of_lt hx]
  have hor₁ : ∀ x < 2 ^ 5, (32 * b + 1 ||| x) % 2 ^ 5 = 1 ||| x := fun x hx => by
    rw [Nat.or_mod_two_pow, show (32 * b + 1) % 2 ^ 5 = 1 by omega, Nat.mod_eq_of_lt hx]
  by_cases hlast : d = 31 ∧ f = 7
  · -- The last function of a bus is the only one that no step finds while the slot is zero.
    obtain ⟨rfl, rfl⟩ := hlast
    have hsmall : ∀ x < 30, 1 ||| x < 30 := by decide
    rw [if_pos ⟨rfl, rfl⟩]
    refine key (32 * b + 1) 247 (by omega) (by decide) (by omega) (hor₁ 30 (by decide)) rfl
      (fun slot' hlt => ?_) fun func' hlt => ?_
    · by_cases hslot : slot' < 32 * b
      · exact Or.inl (by omega)
      · obtain rfl : slot' = 32 * b := by omega
        refine Or.inr fun func' hlt' => ?_
        rw [hor₀ _ (by omega), functionNumber, functionNumber]
        omega
    · rw [hor₁ _ (by omega), functionNumber, functionNumber]
      by_cases hfunc : func' / 2 ^ 3 < 30
      · have := hsmall _ hfunc
        omega
      · have hthirty : func' / 2 ^ 3 = 30 := by omega
        rw [hthirty, show 1 ||| 30 = 31 from rfl]
        omega
  · rw [if_neg hlast]
    have hfunc : 8 * d + f < 0xff := by omega
    have hdiv : (8 * d + f) / 2 ^ 3 = d := by omega
    refine key (32 * b) (8 * d + f) (by omega) hfunc (by omega) ?_ (by omega)
      (fun slot' hlt => Or.inl (by omega)) fun func' hlt => ?_
    · rw [hdiv, hor₀ d hd]
    · rw [hor₀ _ (by omega), functionNumber, functionNumber]
      omega

/-- The search finds nothing where no function matches. -/
lemma findDevice_of_none {s : PciState} (h : ∀ b d f, ¬ Matching s.space vendor device b d f) :
    (findDevice vendor device s).1 = .none := by
  have hnone : ((List.range 0xffff).findSome? fun bus => (List.range 0xffff).findSome?
      fun slot => (List.range 0xff).findSome?
        fun func => probed s.space vendor device bus slot func) = none :=
    List.findSome?_eq_none_iff.mpr fun _ _ => List.findSome?_eq_none_iff.mpr fun _ _ =>
      List.findSome?_eq_none_iff.mpr fun _ _ => probed_eq_none (h _ _ _)
  rw [findDevice_eq, hnone, Option.getD_none]

end Loops

/-! ### The theorem -/

/-- **The search returns the first match exactly if that is on device 0 of bus 0**, or there is
none. -/
theorem device_found (vendor device : UInt16) (s : PciState) :
    IsFound s.space vendor device (findDevice vendor device s).1 ↔
      ∀ b d f, FirstMatch s.space vendor device b d f → b = 0 ∧ d = 0 := by
  constructor
  · intro h b d f hfirst
    have hb := hfirst.matching.bus_lt
    have hd := hfirst.matching.device_lt
    have heq := (findDevice_of_firstMatch hfirst).symm.trans (h.first b d f hfirst)
    have hinj : ∀ m < 2 ^ 16, ∀ n < 2 ^ 16, UInt32.ofNat m = UInt32.ofNat n → m = n := by
      intro m hm n hn hmn
      rw [← UInt32.toNat_inj, UInt32.toNat_ofNat', UInt32.toNat_ofNat'] at hmn
      omega
    split_ifs at heq with hlast
    · obtain ⟨rfl, rfl⟩ := hlast
      exact absurd (PciDev.mk.inj heq).2.2 (by decide)
    · obtain ⟨hbus, -, hfunction⟩ := PciDev.mk.inj heq
      have hf := hfirst.matching.function_lt
      have hzero := hinj 0 (by decide) b (by omega) hbus
      have hsum := hinj (8 * d + f) (by omega) f (by omega) hfunction
      exact ⟨hzero.symm, by omega⟩
  · intro h
    refine ⟨fun b d f hfirst => ?_, findDevice_of_none⟩
    obtain ⟨rfl, rfl⟩ := h b d f hfirst
    rw [findDevice_of_firstMatch hfirst, if_neg (by simp)]
    simp

/-- A bus with one function. -/
def pciSingle (r : ConfigReg) (ids : UInt32) : PciState :=
  ⟨0, fun r' => if r' = r then ids else 0xffffffff⟩

/-- The IDE controller on device 1 of bus 0 is not found there. -/
theorem device_misplaced : ¬ ∀ (vendor device : UInt16) (s : PciState),
    IsFound s.space vendor device (findDevice vendor device s).1 := by
  intro h
  have hfirst : FirstMatch (pciSingle ⟨0, 1, 0, 0⟩ 0x24db8086).space 0x8086 0x24db 0 1 0 := by
    refine ⟨⟨by decide, by decide, by decide, by decide⟩, fun b d f hm => ?_⟩
    by_cases hr : (⟨b, d, f, 0⟩ : ConfigReg) = ⟨0, 1, 0, 0⟩
    · obtain ⟨rfl, rfl, rfl, -⟩ := ConfigReg.mk.inj hr
      exact le_rfl
    · have hother : (pciSingle ⟨0, 1, 0, 0⟩ 0x24db8086).space ⟨b, d, f, 0⟩ = 0xffffffff := if_neg hr
      have hids := hm.ids
      rw [hother] at hids
      exact absurd hids (by decide)
  have hwanted := (h 0x8086 0x24db _).first 0 1 0 hfirst
  rw [findDevice_of_firstMatch hfirst] at hwanted
  exact absurd hwanted (by decide)

end Sp2
