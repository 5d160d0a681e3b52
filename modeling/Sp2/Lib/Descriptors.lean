import Sp2.Lib.X86

/-!
The tables of the 32-bit x86 that an interrupt goes through.

* `load16`, `store16`: halfwords; `load16_store16`, `load16_congr`.
* `storeHalves`: halfwords one behind the other; `load16_storeHalves`.
* `Gate`, `readGate`, `writeGate`: an entry of the interrupt descriptor table. What is written is
  read, and what is elsewhere stays.
* `Descriptor`, `readDescriptor`: an entry of the global descriptor table.
* `Tables`, `deliver`: what the processor does with an interrupt. `deliver_eq` when it accepts it.
* `slots_apart`: different entries of a table.
-/

namespace X86

open Words Address

variable {mem mem' : Bytes} {a b : UInt32} {v : UInt16} {n m i j k w : ℕ}

/-! ### Halfwords -/

/-- The halfword at an address. -/
def load16 (mem : Bytes) (a : UInt32) : UInt16 :=
  UInt16.ofNat ((mem a).toNat + 2 ^ 8 * (mem (a + 1)).toNat)

/-- Write the halfword at an address. -/
def store16 (a : UInt32) (v : UInt16) (mem : Bytes) : Bytes :=
  Function.update (Function.update mem a v.toUInt8) (a + 1) (v >>> 8).toUInt8

lemma load16_congr (h : SameOn mem' mem a 2) : load16 mem' a = load16 mem a := by
  have h₀ : mem' a = mem a := by simpa using h 0 (by omega)
  have h₁ : mem' (a + 1) = mem (a + 1) := h 1 (by omega)
  rw [load16, load16, h₀, h₁]

/-- What is written is read. -/
lemma load16_store16 : load16 (store16 a v mem) a = v := by
  have hne : a ≠ a + 1 := by
    intro h
    have h' := congrArg UInt32.toNat h
    simp only [UInt32.toNat_add, UInt32.toNat_one] at h'
    have := a.toNat_lt
    omega
  rw [load16, store16, Function.update_of_ne hne, Function.update_self, Function.update_self,
    ← UInt16.toNat_inj]
  simp only [UInt16.toNat_ofNat', UInt16.toNat_toUInt8, UInt16.toNat_shiftRight,
    UInt16.reduceToNat, Nat.shiftRight_eq_div_pow, Nat.reduceMod]
  have := v.toNat_lt
  omega

lemma SameOn.store16 (h : Apart a 2 b n) : SameOn (store16 a v mem) mem b n :=
  (SameOn.update (h.sub_left (k := 1) (l := 1) (by omega))).trans
    (SameOn.update fun i hi j hj => h i (by omega) j hj)

/-- Write halfwords one behind the other. -/
def storeHalves : UInt32 → List UInt16 → Bytes → Bytes
  | _, [], mem => mem
  | a, v :: vs, mem => storeHalves (a + 2) vs (store16 a v mem)

lemma SameOn.storeHalves {vs : List UInt16} (h : Apart a (2 * vs.length) b n) :
    SameOn (storeHalves a vs mem) mem b n := by
  induction vs generalizing a mem with
  | nil => exact SameOn.rfl
  | cons v vs ih =>
      rw [List.length_cons] at h
      have hfirst : Apart a 2 b n := fun i hi => h i (by omega)
      exact (ih (h.sub_left (k := 2) (by omega))).trans (SameOn.store16 hfirst)

/-- What is written is read. -/
lemma load16_storeHalves {vs : List UInt16} (hlen : 2 * vs.length ≤ 2 ^ 32) (hv : vs[i]? = some v) :
    load16 (storeHalves a vs mem) (a + UInt32.ofNat (2 * i)) = v := by
  induction vs generalizing a mem i with
  | nil => exact absurd hv (by simp)
  | cons w vs ih =>
      rw [List.length_cons] at hlen
      cases i with
      | zero =>
          obtain rfl := Option.some_inj.mp hv
          have happart : Apart (a + 2) (2 * vs.length) a 2 :=
            (apart_offset (m := 2) (by omega)).symm
          have hzero : a + UInt32.ofNat (2 * 0) = a := by simp
          rw [hzero]
          exact (load16_congr (SameOn.storeHalves happart)).trans load16_store16
      | succ i =>
          have hnext : a + UInt32.ofNat (2 * (i + 1)) = a + 2 + UInt32.ofNat (2 * i) := by
            have h := add_ofNat_add a 2 (2 * i)
            rw [Nat.add_comm] at h
            exact h.symm
          rw [hnext]
          exact ih (by omega) hv

/-! ### Gates -/

/-- A gate of the interrupt descriptor table. -/
@[ext]
structure Gate where
  offset : UInt32
  selector : UInt16
  flags : UInt16

/-- The gate at an address. -/
def readGate (mem : Bytes) (a : UInt32) : Gate where
  offset := UInt32.ofNat ((load16 mem a).toNat + 2 ^ 16 * (load16 mem (a + 6)).toNat)
  selector := load16 mem (a + 2)
  flags := load16 mem (a + 4)

/-- Write the gate at an address. -/
def writeGate (a : UInt32) (g : Gate) (mem : Bytes) : Bytes :=
  store16 (a + 6) (UInt16.ofNat (g.offset.toNat / 2 ^ 16))
    (store16 (a + 4) g.flags (store16 (a + 2) g.selector
      (store16 a (UInt16.ofNat g.offset.toNat) mem)))

/-- A gate takes eight bytes. -/
lemma readGate_congr (h : SameOn mem' mem a 8) : readGate mem' a = readGate mem a := by
  have hpart {k : ℕ} (hk : k + 2 ≤ 8) :
      load16 mem' (a + UInt32.ofNat k) = load16 mem (a + UInt32.ofNat k) :=
    load16_congr (h.sub hk)
  have h₀ : load16 mem' a = load16 mem a := load16_congr (h.left (by omega))
  have h₂ : load16 mem' (a + 2) = load16 mem (a + 2) := hpart (k := 2) (by omega)
  have h₄ : load16 mem' (a + 4) = load16 mem (a + 4) := hpart (k := 4) (by omega)
  have h₆ : load16 mem' (a + 6) = load16 mem (a + 6) := hpart (k := 6) (by omega)
  rw [readGate, readGate, h₀, h₂, h₄, h₆]

/-- Two parts of one entry. -/
lemma parts_apart (h : i + m ≤ j) (hj : j + n ≤ 2 ^ 32) :
    Apart (a + UInt32.ofNat i) m (a + UInt32.ofNat j) n := by
  intro k hk l hl heq
  rw [add_ofNat_add, add_ofNat_add] at heq
  have := add_ofNat_inj (by omega) (by omega) heq
  omega

/-- What is written is read. -/
lemma readGate_writeGate (g : Gate) : readGate (writeGate a g mem) a = g := by
  have hup {i j : ℕ} (hij : i + 2 ≤ j) (hj : j < 8) {x : UInt16} {mem : Bytes} :
      load16 (store16 (a + UInt32.ofNat j) x mem) (a + UInt32.ofNat i)
        = load16 mem (a + UInt32.ofNat i) :=
    load16_congr (SameOn.store16 (parts_apart (m := 2) hij (by omega)).symm)
  have hfirst {j : ℕ} (hj : 2 ≤ j) (hj' : j < 8) {x : UInt16} {mem : Bytes} :
      load16 (store16 (a + UInt32.ofNat j) x mem) a = load16 mem a := by
    have h : load16 (store16 (a + UInt32.ofNat j) x mem) (a + UInt32.ofNat 0)
        = load16 mem (a + UInt32.ofNat 0) := hup hj hj'
    rwa [show a + UInt32.ofNat 0 = a from UInt32.add_zero a] at h
  have h₀ : load16 (writeGate a g mem) a = UInt16.ofNat g.offset.toNat :=
    (hfirst (j := 6) (by omega) (by omega)).trans ((hfirst (j := 4) (by omega) (by omega)).trans
      ((hfirst (j := 2) (by omega) (by omega)).trans load16_store16))
  have h₂ : load16 (writeGate a g mem) (a + 2) = g.selector :=
    (hup (i := 2) (j := 6) (by omega) (by omega)).trans
      ((hup (i := 2) (j := 4) (by omega) (by omega)).trans load16_store16)
  have h₄ : load16 (writeGate a g mem) (a + 4) = g.flags :=
    (hup (i := 4) (j := 6) (by omega) (by omega)).trans load16_store16
  have h₆ : load16 (writeGate a g mem) (a + 6) = UInt16.ofNat (g.offset.toNat / 2 ^ 16) :=
    load16_store16
  ext1
  · rw [readGate, h₀, h₆, ← UInt32.toNat_inj]
    simp only [UInt16.toNat_ofNat', UInt32.toNat_ofNat']
    have := g.offset.toNat_lt
    omega
  · exact h₂
  · exact h₄

lemma SameOn.writeGate {g : Gate} (h : Apart a 8 b n) : SameOn (writeGate a g mem) mem b n := by
  have hpart {k : ℕ} (hk : k + 2 ≤ 8) {x : UInt16} {mem : Bytes} :
      SameOn (X86.store16 (a + UInt32.ofNat k) x mem) mem b n :=
    SameOn.store16 (h.sub_left hk)
  have h₀ {x : UInt16} {mem : Bytes} : SameOn (X86.store16 a x mem) mem b n :=
    SameOn.store16 fun i hi j hj => h i (by omega) j hj
  exact (hpart (k := 6) (by omega)).trans ((hpart (k := 4) (by omega)).trans
    ((hpart (k := 2) (by omega)).trans h₀))

/-- Different entries of a table of up to `n` entries of the size `w`. -/
lemma slots_apart (hi : i < n) (hj : j < n) (hne : i ≠ j) (hn : w * n ≤ 2 ^ 32) :
    Apart (a + UInt32.ofNat (w * i)) w (a + UInt32.ofNat (w * j)) w := by
  have hbound {x : ℕ} (hx : x < n) : w * x + w ≤ w * n := by
    rw [← Nat.mul_succ]
    exact Nat.mul_le_mul_left _ hx
  rcases Nat.lt_or_gt_of_ne hne with hlt | hlt
  · refine parts_apart ?_ (Nat.le_trans (hbound hj) hn)
    rw [← Nat.mul_succ]
    exact Nat.mul_le_mul_left _ hlt
  · refine (parts_apart ?_ (Nat.le_trans (hbound hi) hn)).symm
    rw [← Nat.mul_succ]
    exact Nat.mul_le_mul_left _ hlt

/-! ### Segment descriptors -/

/-- A segment: where it begins, its last offset, and the access byte of its descriptor. -/
structure Descriptor where
  base : UInt32
  limit : ℕ
  access : UInt8
  deriving DecidableEq

/-- The descriptor at an address. -/
def readDescriptor (mem : Bytes) (a : UInt32) : Descriptor :=
  let low := load32 mem a
  let high := load32 mem (a + 4)
  let limit := (low &&& 0xffff ||| high &&& 0x000f0000).toNat
  { base := low >>> 16 ||| (high &&& 0xff) <<< 16 ||| high &&& 0xff000000
    limit := if high &&& 0x00800000 = 0 then limit else 4096 * limit + 4095
    access := (high >>> 8).toUInt8 }

/-- The segment is present, of privilege level 0 and can be executed. -/
def Descriptor.IsCode (d : Descriptor) : Prop := d.access &&& 0xf8 = 0x98

instance (d : Descriptor) : Decidable d.IsCode := inferInstanceAs (Decidable (_ = _))

/-! ### Interrupts -/

/-- A table register. -/
structure TableRegister where
  limit : UInt16
  base : UInt32

/-- The registers that point to the two tables. -/
structure Tables where
  gdtr : TableRegister
  idtr : TableRegister

/-- The address of the gate of a vector. -/
def Tables.gateAddress (t : Tables) (vector : UInt8) : UInt32 :=
  t.idtr.base + UInt32.ofNat (8 * vector.toNat)

/-- The descriptor of a selector into the global table. -/
def Tables.descriptor (t : Tables) (mem : Bytes) (selector : UInt16) : Descriptor :=
  readDescriptor mem (t.gdtr.base + UInt32.ofNat (8 * (selector.toNat / 8)))

/-- The selector names an entry of the global table other than the first. -/
def Tables.InGdt (t : Tables) (selector : UInt16) : Prop :=
  8 ≤ selector.toNat ∧ selector &&& 4 = 0 ∧ 8 * (selector.toNat / 8) + 7 ≤ t.gdtr.limit.toNat

instance (t : Tables) (selector : UInt16) : Decidable (t.InGdt selector) :=
  inferInstanceAs (Decidable (_ ∧ _ ∧ _))

/-- A present gate for interrupts of 32 bits. -/
def Gate.IsInterrupt (g : Gate) : Prop := g.flags &&& 0x9f00 = 0x8e00

instance (g : Gate) : Decidable g.IsInterrupt := inferInstanceAs (Decidable (_ = _))

/-- The processor accepts an interrupt: it goes on at the gate of the vector, unless there is a
fault. -/
def deliver (t : Tables) (upper : UInt16) (vector : UInt8) (code : UInt32) (m : Cpu) : Option Cpu :=
  let g := readGate m.mem (t.gateAddress vector)
  if 8 * vector.toNat + 7 ≤ t.idtr.limit.toNat ∧ g.IsInterrupt ∧ t.InGdt g.selector
      ∧ (t.descriptor m.mem g.selector).IsCode then
    some (m.interrupt upper vector code g.selector g.offset)
  else none

/-- The linear address of the next instruction. -/
def fetchAddress (t : Tables) (m : Cpu) : UInt32 := (t.descriptor m.mem m.cs).base + m.eip

end X86
