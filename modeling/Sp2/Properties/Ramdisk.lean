import Sp2.Kernel.Ramdisk
import Sp2.Lib.Address
import Sp2.Lib.History

/-!
The ramdisk as a store of blocks.

* `memcpy_apply`, `memcpy_of_ne`: what `_memcpy` does with two ranges that do not overlap.
* `rdRead_eq`, `rdWrite_eq`: a transfer is one copy between the buffer and the bytes of the
  ramdisk from byte `lba` on: the block number is used as a byte offset.
* `lastWritten`: what a block store holds after the steps taken.
* `blocks_stored`: **as long as all transfers begin at the same block the ramdisk is a block
  store**.
* `blocks_overlap`: block 1 written over block 0.
-/

namespace Sp2

open Transition Address

/-! ### Copying -/

section Copy

variable {dst src x lba nblocks buffer ramdisk : UInt32} {n k : ℕ} {mem : Memory}

/-- The bytes that are not written stay. -/
lemma memcpy_of_ne (hx : ∀ k < n, x ≠ dst + UInt32.ofNat k) : memcpy dst src n mem x = mem x := by
  induction n generalizing dst src mem with
  | zero => rfl
  | succ n ih =>
      have hx₀ : x ≠ dst := by simpa using hx 0 (Nat.succ_pos n)
      rw [memcpy, ih fun k hk => ?_, Function.update_of_ne hx₀]
      rw [add_one_add_ofNat]
      exact hx (k + 1) (by omega)

/-- The bytes that are written, when the ranges do not overlap. -/
lemma memcpy_apply (hn : n ≤ 2 ^ 32)
    (hapart : ∀ i < n, ∀ j < n, dst + UInt32.ofNat i ≠ src + UInt32.ofNat j) (hk : k < n) :
    memcpy dst src n mem (dst + UInt32.ofNat k) = mem (src + UInt32.ofNat k) := by
  induction n generalizing dst src mem k with
  | zero => exact absurd hk (Nat.not_lt_zero k)
  | succ n ih =>
      rw [memcpy]
      cases k with
      | zero =>
          rw [memcpy_of_ne fun j hj heq => ?_]
          · simp
          · rw [add_one_add_ofNat] at heq
            have := add_ofNat_inj (by omega) (by omega) heq
            omega
      | succ k =>
          rw [← add_one_add_ofNat, ih (by omega) (fun i hi j hj => ?_) (by omega),
            add_one_add_ofNat, Function.update_of_ne]
          · have := hapart 0 (by omega) (k + 1) hk
            exact fun heq => this (by simpa using heq.symm)
          · rw [add_one_add_ofNat, add_one_add_ofNat]
            exact hapart (i + 1) (by omega) (j + 1) (by omega)

/-- Two copies in a row are one. -/
lemma memcpy_add (m n : ℕ) : memcpy dst src (m + n) mem
    = memcpy (dst + UInt32.ofNat m) (src + UInt32.ofNat m) n (memcpy dst src m mem) := by
  induction m generalizing dst src mem with
  | zero => simp [memcpy]
  | succ m ih =>
      rw [Nat.succ_add, memcpy, memcpy, ih, add_one_add_ofNat, add_one_add_ofNat]

/-- The block loop copies the blocks from the `i`-th on in one row. -/
lemma rdLoop_eq (dst src lba : UInt32) (hbound : lba.toNat + n * diskBlockSize < 2 ^ 32) :
    ∀ (fuel i : ℕ) (mem : Memory), i ≤ n → n - i < fuel →
    rdLoop (fun block => memcpy (dst + (block - lba)) (src + (block - lba)) diskBlockSize)
      (lba + UInt32.ofNat (n * diskBlockSize)) fuel (lba + UInt32.ofNat (i * diskBlockSize)) mem
    = memcpy (dst + UInt32.ofNat (i * diskBlockSize)) (src + UInt32.ofNat (i * diskBlockSize))
      ((n - i) * diskBlockSize) mem
  | 0, _, _, _, hfuel => absurd hfuel (Nat.not_lt_zero _)
  | fuel + 1, i, mem, hi, hfuel => by
      have hcmp : lba + UInt32.ofNat (i * diskBlockSize) < lba + UInt32.ofNat (n * diskBlockSize)
          ↔ i < n := by
        rw [UInt32.lt_iff_toNat_lt]
        simp only [UInt32.toNat_add, UInt32.toNat_ofNat', diskBlockSize] at hbound ⊢
        omega
      rw [rdLoop]
      by_cases h : i < n
      · have hnext : lba + UInt32.ofNat (i * diskBlockSize) + 512
            = lba + UInt32.ofNat ((i + 1) * diskBlockSize) := by
          rw [Nat.succ_mul, ← add_ofNat_add]
          rfl
        rw [if_pos (hcmp.mpr h), hnext, rdLoop_eq dst src lba hbound fuel (i + 1) _ h (by omega),
          add_sub_cancel_left']
        have hlen : (n - i) * diskBlockSize
            = diskBlockSize + (n - (i + 1)) * diskBlockSize := by
          rw [show n - i = (n - (i + 1)) + 1 by omega, Nat.succ_mul, Nat.add_comm]
        rw [hlen, memcpy_add, add_ofNat_add, add_ofNat_add, Nat.succ_mul]
      · obtain rfl : i = n := by omega
        rw [if_neg (mt hcmp.mp h), Nat.sub_self, Nat.zero_mul]
        rfl

/-- The whole loop of a transfer within the disk. -/
lemma rdLoop_copy (hrange : lba.toNat + nblocks.toNat ≤ rdMaxLba) :
    rdLoop (fun block => memcpy (dst + (block - lba)) (src + (block - lba)) diskBlockSize)
      (lba + nblocks * 512) rdFuel lba mem
    = memcpy dst src (nblocks.toNat * diskBlockSize) mem := by
  have hbytes : nblocks * 512 = UInt32.ofNat (nblocks.toNat * diskBlockSize) := by
    rw [← UInt32.toNat_inj, UInt32.toNat_mul, UInt32.toNat_ofNat']
    rfl
  have hloop := rdLoop_eq dst src lba (n := nblocks.toNat)
    (by simp only [rdMaxLba, diskBlockSize] at *; omega) rdFuel 0 mem (Nat.zero_le _)
    (by simp only [rdMaxLba, rdFuel] at *; omega)
  rw [hbytes]
  simpa using hloop

/-- **A read** copies from byte `lba` of the ramdisk on. -/
lemma rdRead_eq (hrange : lba.toNat + nblocks.toNat ≤ rdMaxLba) :
    rdRead ramdisk lba nblocks buffer mem
      = memcpy buffer (ramdisk + lba) (nblocks.toNat * diskBlockSize) mem := by
  rw [← rdLoop_copy hrange, rdRead]
  simp only [add_add_sub]

/-- **A write** copies to byte `lba` of the ramdisk on. -/
lemma rdWrite_eq (hrange : lba.toNat + nblocks.toNat ≤ rdMaxLba) :
    rdWrite ramdisk lba nblocks buffer mem
      = memcpy (ramdisk + lba) buffer (nblocks.toNat * diskBlockSize) mem := by
  rw [← rdLoop_copy hrange, rdWrite]
  simp only [add_add_sub]

end Copy

/-! ### Transfers -/

/-- A transfer, or a store by somebody else. -/
inductive RdOp
  | read (lba nblocks buffer : UInt32)
  | write (lba nblocks buffer : UInt32)
  | store (address : UInt32) (value : UInt8)

/-- Memory, and the first blocks of the writes so far that moved anything. -/
structure RdState where
  mem : Memory
  starts : List UInt32

/-- One operation, `ramdisk` being the address of `_ramdisk`. -/
def rdStep (ramdisk : UInt32) (s : RdState) : RdOp → Except Empty RdState
  | .read lba nblocks buffer => .ok { s with mem := rdRead ramdisk lba nblocks buffer s.mem }
  | .write lba nblocks buffer =>
      .ok { mem := rdWrite ramdisk lba nblocks buffer s.mem
            starts := if nblocks = 0 then s.starts else lba :: s.starts }
  | .store address value => .ok { s with mem := Function.update s.mem address value }

/-- The number of bytes of `_ramdisk`. -/
abbrev rdBytes : ℕ := rdMaxLba * diskBlockSize

/-- None of the `n` bytes at the address is one of the ramdisk. -/
def OffRamdisk (ramdisk address : UInt32) (n : ℕ) : Prop :=
  ∀ i < n, ∀ j < rdBytes, address + UInt32.ofNat i ≠ ramdisk + UInt32.ofNat j

/-- The blocks of a transfer are blocks of the disk, and nothing but `_rd_write` stores into
the ramdisk. -/
def RdUsage (ramdisk : UInt32) (_ : RdState) : RdOp → Prop
  | .read lba nblocks buffer | .write lba nblocks buffer =>
      lba.toNat + nblocks.toNat ≤ rdMaxLba ∧
        OffRamdisk ramdisk buffer (nblocks.toNat * diskBlockSize)
  | .store address _ => OffRamdisk ramdisk address 1

/-- A transfer that moves anything begins where the writes before it began. -/
def SameStart (s : RdState) : RdOp → Prop
  | .read lba nblocks _ | .write lba nblocks _ => nblocks ≠ 0 → ∀ a ∈ s.starts, a = lba
  | .store _ _ => True

/-- The blocks after one step more: byte `k` of block `b`. -/
def recordWrite (blocks : ℕ → ℕ → UInt8) (t : Taken RdState RdOp) : ℕ → ℕ → UInt8 :=
  match t.event with
  | .write lba nblocks buffer => fun b k =>
      if lba.toNat ≤ b ∧ b < lba.toNat + nblocks.toNat then
        t.before.mem (buffer + UInt32.ofNat ((b - lba.toNat) * diskBlockSize + k))
      else blocks b k
  | _ => blocks

/-- The bytes last written to each block number, zeros if none. -/
def lastWritten (l : List (Taken RdState RdOp)) : ℕ → ℕ → UInt8 :=
  l.foldl recordWrite fun _ _ => 0

/-- The operations allowed: those used well, under a further condition. -/
def RdAllowed (ramdisk : UInt32) (P : RdState → RdOp → Prop) (s : RdState) (e : RdOp) : Prop :=
  RdUsage ramdisk s e ∧ P s e

/-- After the steps `l` the ramdisk is a block store, as far as the operations allowed show. -/
structure BlockStore (ramdisk : UInt32) (P : RdState → RdOp → Prop)
    (l : List (Taken RdState RdOp)) (s : RdState) : Prop where
  /-- a read gives for each of its blocks what was last written to that block number -/
  reads : ∀ lba nblocks buffer, RdAllowed ramdisk P s (.read lba nblocks buffer) →
    ∀ b k, lba.toNat ≤ b → b < lba.toNat + nblocks.toNat → k < diskBlockSize →
      rdRead ramdisk lba nblocks buffer s.mem
        (buffer + UInt32.ofNat ((b - lba.toNat) * diskBlockSize + k)) = lastWritten l b k
  /-- a write does not change what a read gives for a block outside its range -/
  writes : ∀ lba nblocks buffer, RdAllowed ramdisk P s (.write lba nblocks buffer) →
    ∀ s', rdStep ramdisk s (.write lba nblocks buffer) = .ok s' →
    ∀ lba' nblocks' buffer', RdAllowed ramdisk P s (.read lba' nblocks' buffer') →
      RdAllowed ramdisk P s' (.read lba' nblocks' buffer') →
    ∀ b k, lba'.toNat ≤ b → b < lba'.toNat + nblocks'.toNat → k < diskBlockSize →
      ¬ (lba.toNat ≤ b ∧ b < lba.toNat + nblocks.toNat) →
      rdRead ramdisk lba' nblocks' buffer' s'.mem
          (buffer' + UInt32.ofNat ((b - lba'.toNat) * diskBlockSize + k))
        = rdRead ramdisk lba' nblocks' buffer' s.mem
          (buffer' + UInt32.ofNat ((b - lba'.toNat) * diskBlockSize + k))

/-- The ramdisk has the blocks of a block store from the place where the writes begin. -/
def Stored (ramdisk : UInt32) (l : List (Taken RdState RdOp)) (s : RdState) : Prop :=
  ∀ lba : UInt32, (∀ a ∈ s.starts, a = lba) → ∀ b k, lba.toNat ≤ b → b < rdMaxLba →
    k < diskBlockSize →
    s.mem (ramdisk + lba + UInt32.ofNat ((b - lba.toNat) * diskBlockSize + k)) = lastWritten l b k

section Blocks

variable {ramdisk address : UInt32} {lba nblocks buffer : UInt32} {n i : ℕ} {b k : ℕ}
  {l : List (Taken RdState RdOp)} {s s' : RdState} {e : RdOp} {es : List RdOp} {mem : Memory}

@[simp] lemma lastWritten_concat (t : Taken RdState RdOp) :
    lastWritten (l ++ [t]) = recordWrite (lastWritten l) t := by
  rw [lastWritten, List.foldl_concat]
  rfl

/-- The bytes of a block of the disk, from the block where the transfer begins. -/
lemma offset_lt (hb : b < rdMaxLba) (hk : k < diskBlockSize) (hlba : lba.toNat ≤ b) :
    lba.toNat + ((b - lba.toNat) * diskBlockSize + k) < rdBytes := by
  simp only [rdBytes, rdMaxLba, diskBlockSize] at *
  omega

/-- A byte of a block that is not one of the ramdisk is not stored into. -/
lemma OffRamdisk.ne (h : OffRamdisk ramdisk address n) (hb : b < rdMaxLba) (hk : k < diskBlockSize)
    (hlba : lba.toNat ≤ b) (hi : i < n) :
    ramdisk + lba + UInt32.ofNat ((b - lba.toNat) * diskBlockSize + k)
      ≠ address + UInt32.ofNat i := by
  intro heq
  refine h i hi _ (offset_lt hb hk hlba) ?_
  rw [← heq, add_add_ofNat]

/-- The bytes a write stores. -/
lemma write_apply (hu : RdUsage ramdisk s (.write lba nblocks buffer)) (hlba : lba.toNat ≤ b)
    (hb : b < rdMaxLba) (hk : k < diskBlockSize) :
    rdWrite ramdisk lba nblocks buffer s.mem
        (ramdisk + lba + UInt32.ofNat ((b - lba.toNat) * diskBlockSize + k))
      = if b < lba.toNat + nblocks.toNat then
          s.mem (buffer + UInt32.ofNat ((b - lba.toNat) * diskBlockSize + k))
        else s.mem (ramdisk + lba + UInt32.ofNat ((b - lba.toNat) * diskBlockSize + k)) := by
  obtain ⟨hrange, hoff⟩ := hu
  rw [rdWrite_eq hrange]
  split_ifs with hin
  · refine memcpy_apply ?_ (fun i hi j hj heq => ?_) ?_
    · simp only [rdMaxLba, diskBlockSize] at *
      omega
    · refine hoff j hj (lba.toNat + i) ?_ ?_
      · simp only [rdBytes, rdMaxLba, diskBlockSize] at *
        omega
      · rw [← heq, add_add_ofNat]
    · simp only [diskBlockSize] at *
      omega
  · refine memcpy_of_ne fun j hj heq => ?_
    simp only [rdMaxLba, diskBlockSize] at *
    have := add_ofNat_inj (by omega) (by omega) heq
    omega

/-- The bytes a read stores. -/
lemma read_apply (hu : RdUsage ramdisk s (.read lba nblocks buffer)) (hlba : lba.toNat ≤ b)
    (hb : b < lba.toNat + nblocks.toNat) (hk : k < diskBlockSize) :
    rdRead ramdisk lba nblocks buffer s.mem
        (buffer + UInt32.ofNat ((b - lba.toNat) * diskBlockSize + k))
      = s.mem (ramdisk + lba + UInt32.ofNat ((b - lba.toNat) * diskBlockSize + k)) := by
  obtain ⟨hrange, hoff⟩ := hu
  rw [rdRead_eq hrange]
  refine memcpy_apply ?_ (fun i hi j hj heq => ?_) ?_
  · simp only [rdMaxLba, diskBlockSize] at *
    omega
  · refine hoff i hi (lba.toNat + j) ?_ ?_
    · simp only [rdBytes, rdMaxLba, diskBlockSize] at *
      omega
    · rw [heq, add_add_ofNat]
  · simp only [diskBlockSize] at *
    omega

/-! ### One step and the run -/

/-- Before the first write all blocks are zero. -/
lemma stored_nil (hzero : ∀ j < rdBytes, mem (ramdisk + UInt32.ofNat j) = 0) :
    Stored ramdisk [] ⟨mem, []⟩ := by
  intro lba _ b k hlba hb hk
  have h := hzero _ (offset_lt hb hk hlba)
  rwa [← add_add_ofNat] at h

/-- An allowed operation keeps the blocks. -/
lemma Stored.step (h : Stored ramdisk l s) (ha : RdAllowed ramdisk SameStart s e)
    (hs : rdStep ramdisk s e = .ok s') : Stored ramdisk (l ++ [⟨s, e, s'⟩]) s' := by
  obtain ⟨hu, hsame⟩ := ha
  intro lba hstart b k hlba hb hk
  rw [lastWritten_concat]
  cases e with
  | read lba' nblocks buffer =>
      obtain rfl := Except.ok.inj hs
      refine Eq.trans ?_ (h lba hstart b k hlba hb hk)
      change rdRead ramdisk lba' nblocks buffer s.mem _ = _
      rw [rdRead_eq hu.1]
      exact memcpy_of_ne fun i hi => hu.2.ne hb hk hlba hi
  | store address value =>
      obtain rfl := Except.ok.inj hs
      refine Eq.trans (Function.update_of_ne ?_ _ _) (h lba hstart b k hlba hb hk)
      simpa using OffRamdisk.ne hu hb hk hlba (i := 0) Nat.zero_lt_one
  | write lba' nblocks buffer =>
      obtain rfl := Except.ok.inj hs
      rw [recordWrite]
      by_cases hn : nblocks = 0
      · -- nothing is written
        subst hn
        have hnot : ¬ (lba'.toNat ≤ b ∧ b < lba'.toNat + (0 : UInt32).toNat) := by
          simp only [UInt32.toNat_zero]
          omega
        simp only [if_neg hnot]
        refine Eq.trans ?_ (h lba (by simpa using hstart) b k hlba hb hk)
        rw [rdWrite_eq hu.1]
        rfl
      · rw [if_neg hn] at hstart
        obtain rfl : lba' = lba := hstart lba' List.mem_cons_self
        have hbefore := h lba' (hsame hn) b k hlba hb hk
        refine (write_apply hu hlba hb hk).trans ?_
        rw [hbefore]
        simp only [hlba, true_and]

lemma stored_run (hzero : ∀ j < rdBytes, mem (ramdisk + UInt32.ofNat j) = 0)
    (h : Transition.Run (rdStep ramdisk) (RdAllowed ramdisk SameStart) ⟨mem, []⟩ es s) :
    Stored ramdisk (trace (rdStep ramdisk) ⟨mem, []⟩ es) s :=
  h.history (Stored ramdisk) (stored_nil hzero) fun _ _ _ _ hl ha hs => hl.step ha hs

/-- A read from where the writes begin gives what was last written. -/
lemma Stored.reads (h : Stored ramdisk l s)
    (ha : RdAllowed ramdisk SameStart s (.read lba nblocks buffer)) (hlba : lba.toNat ≤ b)
    (hb : b < lba.toNat + nblocks.toNat) (hk : k < diskBlockSize) :
    rdRead ramdisk lba nblocks buffer s.mem
      (buffer + UInt32.ofNat ((b - lba.toNat) * diskBlockSize + k)) = lastWritten l b k := by
  obtain ⟨hu, hsame⟩ := ha
  have hn : nblocks ≠ 0 := by
    rintro rfl
    rw [UInt32.toNat_zero] at hb
    omega
  rw [read_apply hu hlba hb hk]
  exact h lba (hsame hn) b k hlba (by have := hu.1; omega) hk

end Blocks

/-- **When the ramdisk is a block store**: as long as all transfers begin at one block. -/
theorem blocks_stored {ramdisk : UInt32} {mem : Memory} {es : List RdOp} {s : RdState}
    (hzero : ∀ j < rdBytes, mem (ramdisk + UInt32.ofNat j) = 0)
    (h : Transition.Run (rdStep ramdisk) (RdAllowed ramdisk SameStart) ⟨mem, []⟩ es s) :
    BlockStore ramdisk SameStart (trace (rdStep ramdisk) ⟨mem, []⟩ es) s where
  reads _ _ _ ha _ _ := (stored_run hzero h).reads ha
  writes lba nblocks buffer ha s' hs lba' nblocks' buffer' hr hr' b k hlba hb hk hout := by
    have hstored := stored_run hzero h
    rw [hstored.reads hr hlba hb hk, (hstored.step ha hs).reads hr' hlba hb hk, lastWritten_concat]
    simp only [recordWrite, if_neg hout]

/-- A buffer below the ramdisk. -/
lemma offRamdisk_of_le {ramdisk address : UInt32} {n : ℕ}
    (h : address.toNat + n ≤ ramdisk.toNat) (hlt : ramdisk.toNat + rdBytes < 2 ^ 32) :
    OffRamdisk ramdisk address n := by
  intro i hi j hj heq
  have h' := congrArg UInt32.toNat heq
  simp only [UInt32.toNat_add, UInt32.toNat_ofNat', rdBytes, rdMaxLba, diskBlockSize] at *
  omega

/-- Memory with ones below the ramdisk, which is at `0x10000`. -/
def onesBelow : Memory := fun x => if x < 0x10000 then 1 else 0

lemma onesBelow_ramdisk : ∀ j < rdBytes, onesBelow (0x10000 + UInt32.ofNat j) = 0 := by
  intro j hj
  refine if_neg fun hlt => ?_
  rw [UInt32.lt_iff_toNat_lt] at hlt
  simp only [UInt32.toNat_add, UInt32.toNat_ofNat', rdBytes, rdMaxLba, diskBlockSize,
    UInt32.reduceToNat] at *
  omega

/-- One block is written from `0x1000`. -/
lemma run_write (lba : UInt32) (hlba : lba.toNat + 1 ≤ rdMaxLba) (P : RdState → RdOp → Prop)
    (hP : P ⟨onesBelow, []⟩ (.write lba 1 0x1000)) :
    Transition.Run (rdStep 0x10000) (RdAllowed 0x10000 P) ⟨onesBelow, []⟩ [.write lba 1 0x1000]
      ⟨rdWrite 0x10000 lba 1 0x1000 onesBelow, [lba]⟩ :=
  .cons ⟨⟨hlba, offRamdisk_of_le (by decide) (by decide)⟩, hP⟩ rfl (.nil _)

theorem blocks_stored_written : BlockStore 0x10000 SameStart
    (trace (rdStep 0x10000) ⟨onesBelow, []⟩ [.write 0 1 0x1000])
    ⟨rdWrite 0x10000 0 1 0x1000 onesBelow, [0]⟩ :=
  blocks_stored onesBelow_ramdisk (run_write 0 (by decide) SameStart fun _ => by simp)

/-- **Block 1 overlaps block 0**: after a write of block 1 a read of block 0, which has never
been written, does not give zeros. -/
theorem blocks_overlap :
    ¬ ∀ (ramdisk : UInt32) (mem : Memory) (es : List RdOp) (s : RdState),
      (∀ j < rdBytes, mem (ramdisk + UInt32.ofNat j) = 0) →
      Transition.Run (rdStep ramdisk) (RdAllowed ramdisk fun _ _ => True) ⟨mem, []⟩ es s →
      BlockStore ramdisk (fun _ _ => True) (trace (rdStep ramdisk) ⟨mem, []⟩ es) s := by
  intro hall
  have hstore := hall 0x10000 onesBelow _ _ onesBelow_ramdisk
    (run_write 1 (by decide) (fun _ _ => True) trivial)
  have hu : RdUsage 0x10000 ⟨rdWrite 0x10000 1 1 0x1000 onesBelow, [1]⟩ (.read 0 1 0x1000) :=
    ⟨by decide, offRamdisk_of_le (by decide) (by decide)⟩
  have hu₁ : RdUsage 0x10000 ⟨onesBelow, []⟩ (.write 1 1 0x1000) :=
    ⟨by decide, offRamdisk_of_le (by decide) (by decide)⟩
  have hread := hstore.reads 0 1 0x1000 ⟨hu, trivial⟩ 0 1 (by decide) (by decide) (by decide)
  rw [read_apply hu (by decide) (by decide) (by decide)] at hread
  have hwrite := write_apply (b := 1) (k := 0) hu₁ (by decide) (by decide) (by decide)
  rw [if_pos (by decide)] at hwrite
  -- byte 1 of block 0 is byte 0 of block 1
  have haddr : (0x10000 : UInt32) + 0 + UInt32.ofNat ((0 - (0 : UInt32).toNat) * diskBlockSize + 1)
      = 0x10000 + 1 + UInt32.ofNat ((1 - (1 : UInt32).toNat) * diskBlockSize + 0) := by decide
  have hlast :
      lastWritten (trace (rdStep 0x10000) ⟨onesBelow, []⟩ [.write 1 1 0x1000]) 0 1 = 0 := by
    have hstep : rdStep 0x10000 ⟨onesBelow, []⟩ (.write 1 1 0x1000)
        = .ok ⟨rdWrite 0x10000 1 1 0x1000 onesBelow, [1]⟩ := rfl
    rw [trace_cons hstep]
    simp [lastWritten, recordWrite]
  dsimp only at hread hwrite
  rw [haddr, hlast, hwrite] at hread
  exact absurd hread (by decide)

end Sp2
