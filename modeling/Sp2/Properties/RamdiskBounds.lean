import Sp2.Kernel.Requests
import Sp2.Properties.Ramdisk
import Sp2.Table.Boot

/-!
The bytes that a ramdisk request reaches.

* `mem_rdBlocks`, `rdBlocks_wrap`: the blocks that the copy loop visits; none if the bound of the
  loop wraps around.
* `Confined`: a block within `_ramdisk` and within the buffer.
* `CopyBounded`: a request that passes the check of `_rd_request` copies such blocks only, and one
  that does not is refused.
* `request_bounded`: this holds **exactly if the check refuses the request, it moves nothing, the
  bound of the loop wraps around, or the request ends within the disk**. The check compares a
  number of bytes with a number of blocks and an offset with an address, so it lets too much pass.
-/

namespace Sp2

open Address

/-! ### The statement -/

/-- The bytes of a block on the disk are bytes of `_ramdisk`, and those in memory are bytes of the
buffer of the request. -/
structure Confined (cfg : Config) (r : DiskRequest) (c : RdCopy) : Prop where
  disk : ∀ i < diskBlockSize, ∃ j < rdBytes,
    c.disk + UInt32.ofNat i = cfg.ramdisk + UInt32.ofNat j
  buffer : ∀ i < diskBlockSize, ∃ j < r.nblocks.toNat * diskBlockSize,
    c.buffer + UInt32.ofNat i = r.buffer + UInt32.ofNat j

/-- What is to hold of a request. -/
structure CopyBounded (cfg : Config) (dr : UInt32) (s : KState) : Prop where
  /-- serving it later copies its blocks -/
  served : RdCheck cfg (s.requests dr) → ∀ (t t' : KState) status,
    t.requests dr = { s.requests dr with status := status } → t.serveRequest cfg dr = .ok t' →
    t'.mem = (rdCopies cfg (s.requests dr)).foldl (RdCopy.run (s.requests dr).cmd) t.mem
  /-- and these are within the disk and the buffer -/
  confined : RdCheck cfg (s.requests dr) →
    ∀ c ∈ rdCopies cfg (s.requests dr), Confined cfg (s.requests dr) c
  /-- a request that does not pass the check is refused, and put into no queue -/
  refused : ¬ RdCheck cfg (s.requests dr) → ∃ s',
    s.rdRequest cfg dr = .ok (diskErrInvalidReqSize, s') ∧ s'.procs = s.procs
      ∧ (s'.requests dr).status = diskErrInvalidReqSize

/-- The number of bytes of a request, as the code computes it. -/
def DiskRequest.bytes (r : DiskRequest) : UInt32 := r.nblocks * 512

/-! ### The loop -/

section Loop

variable {lba b : UInt32} {n : ℕ}

/-- The blocks that the loop visits from the `i`-th on, by induction on the rounds. -/
lemma mem_rdBlocks (hbound : lba.toNat + n * diskBlockSize < 2 ^ 32) :
    ∀ (fuel i : ℕ), i ≤ n → n - i < fuel →
    (b ∈ rdBlocks (lba + UInt32.ofNat (n * diskBlockSize)) fuel
        (lba + UInt32.ofNat (i * diskBlockSize))
      ↔ ∃ j, i ≤ j ∧ j < n ∧ b = lba + UInt32.ofNat (j * diskBlockSize)) := by
  intro fuel
  induction fuel with
  | zero => exact fun _ _ hfuel => absurd hfuel (Nat.not_lt_zero _)
  | succ fuel ih =>
      intro i hi hfuel
      have hcmp : lba + UInt32.ofNat (i * diskBlockSize) < lba + UInt32.ofNat (n * diskBlockSize)
          ↔ i < n := by
        rw [UInt32.lt_iff_toNat_lt]
        simp only [UInt32.toNat_add, UInt32.toNat_ofNat', diskBlockSize] at hbound ⊢
        omega
      rw [rdBlocks]
      by_cases h : i < n
      · have hnext : lba + UInt32.ofNat (i * diskBlockSize) + 512
            = lba + UInt32.ofNat ((i + 1) * diskBlockSize) := by
          rw [Nat.succ_mul, ← add_ofNat_add]
          rfl
        rw [if_pos (hcmp.mpr h), hnext, List.mem_cons,
          ih (i + 1) h (by omega)]
        constructor
        · rintro (rfl | ⟨j, hij, hjn, rfl⟩)
          · exact ⟨i, le_rfl, h, rfl⟩
          · exact ⟨j, by omega, hjn, rfl⟩
        · rintro ⟨j, hij, hjn, rfl⟩
          rcases Nat.eq_or_lt_of_le hij with rfl | hlt
          · exact Or.inl rfl
          · exact Or.inr ⟨j, hlt, hjn, rfl⟩
      · rw [if_neg (mt hcmp.mp h)]
        refine ⟨fun hb => absurd hb List.not_mem_nil, fun hj => ?_⟩
        obtain ⟨j, hij, hjn, -⟩ := hj
        omega

/-- If the bound of the loop wraps around, nothing is copied. -/
lemma rdBlocks_wrap {m : UInt32} (h : 2 ^ 32 ≤ lba.toNat + m.toNat) (fuel : ℕ) :
    rdBlocks (lba + m) fuel lba = [] := by
  have hlt := m.toNat_lt
  have hnot : ¬ lba < lba + m := by
    rw [UInt32.lt_iff_toNat_lt, UInt32.toNat_add]
    omega
  cases fuel with
  | zero => rfl
  | succ fuel => rw [rdBlocks, if_neg hnot]

end Loop

/-! ### The blocks of a request -/

section Requests

variable {cfg : Config} {r : DiskRequest} {c : RdCopy}

/-- The number of bytes is a multiple of the block size. -/
lemma DiskRequest.bytes_eq (r : DiskRequest) :
    ∃ n, n ≤ r.nblocks.toNat ∧ r.bytes = UInt32.ofNat (n * diskBlockSize)
      ∧ r.bytes.toNat = n * diskBlockSize ∧ n < 2 ^ 23 := by
  have hbytes : r.bytes.toNat = r.nblocks.toNat % 2 ^ 23 * diskBlockSize := by
    rw [DiskRequest.bytes, UInt32.toNat_mul, show (512 : UInt32).toNat = 512 from rfl]
    simp only [diskBlockSize]
    omega
  refine ⟨r.nblocks.toNat % 2 ^ 23, Nat.mod_le _ _, ?_, hbytes, Nat.mod_lt _ (by decide)⟩
  rw [← hbytes, UInt32.ofNat_toNat]

/-- The blocks of a request that is copied. -/
lemma mem_rdCopies {n : ℕ} (hn : n < 2 ^ 23) (hbytes : r.bytes = UInt32.ofNat (n * diskBlockSize))
    (hbound : r.lba.toNat + n * diskBlockSize < 2 ^ 32) :
    c ∈ rdCopies cfg r ↔ ∃ j < n, c = ⟨cfg.ramdisk + (r.lba + UInt32.ofNat (j * diskBlockSize)),
      r.buffer + UInt32.ofNat (j * diskBlockSize)⟩ := by
  have hmem : ∀ b, b ∈ rdBlocks (r.lba + r.nblocks * 512) rdFuel r.lba
      ↔ ∃ j < n, b = r.lba + UInt32.ofNat (j * diskBlockSize) := fun b => by
    have h := mem_rdBlocks (b := b) hbound rdFuel 0 (Nat.zero_le _) (by rw [rdFuel]; omega)
    rw [DiskRequest.bytes] at hbytes
    simpa [hbytes] using h
  rw [rdCopies, List.mem_map]
  constructor
  · rintro ⟨b, hb, rfl⟩
    obtain ⟨j, hj, rfl⟩ := (hmem b).mp hb
    exact ⟨j, hj, by rw [add_sub_cancel_left']⟩
  · rintro ⟨j, hj, rfl⟩
    exact ⟨_, (hmem _).mpr ⟨j, hj, rfl⟩, by rw [add_sub_cancel_left']⟩

/-- A byte of a block, as an offset from the ramdisk. -/
lemma disk_byte (ramdisk lba : UInt32) (k i : ℕ) :
    ramdisk + (lba + UInt32.ofNat k) + UInt32.ofNat i
      = ramdisk + UInt32.ofNat (lba.toNat + k + i) := by
  rw [UInt32.add_assoc, add_ofNat_add, ← UInt32.add_assoc, add_add_ofNat, Nat.add_assoc]

/-- **The blocks of a request are within the disk** exactly if it moves nothing, the bound wraps
around, or the request ends within the disk. -/
lemma confined_iff (cfg : Config) (r : DiskRequest) :
    (∀ c ∈ rdCopies cfg r, Confined cfg r c) ↔ r.bytes = 0
      ∨ 2 ^ 32 ≤ r.lba.toNat + r.bytes.toNat ∨ r.lba.toNat + r.bytes.toNat ≤ rdBytes := by
  obtain ⟨n, hle, hbytes, htoNat, hn⟩ := r.bytes_eq
  by_cases hwrap : 2 ^ 32 ≤ r.lba.toNat + r.bytes.toNat
  · have hnone : rdCopies cfg r = [] := by
      rw [rdCopies, ← DiskRequest.bytes, rdBlocks_wrap hwrap, List.map_nil]
    exact ⟨fun _ => Or.inr (Or.inl hwrap), fun _ => by simp [hnone]⟩
  have hbound : r.lba.toNat + n * diskBlockSize < 2 ^ 32 := by omega
  have hmem : ∀ c, c ∈ rdCopies cfg r ↔ _ := fun c => mem_rdCopies hn hbytes hbound
  have hzero : r.bytes = 0 ↔ n = 0 := by
    rw [← UInt32.toNat_inj, htoNat, UInt32.toNat_zero]
    simp only [diskBlockSize]
    omega
  rw [hzero, htoNat]
  constructor
  · intro h
    by_contra hnot
    rw [not_or, not_or] at hnot
    obtain ⟨hn₀, -, hend⟩ := hnot
    -- the last byte of the last block
    obtain ⟨j, hj, heq⟩ := (h _ ((hmem _).mpr ⟨n - 1, by omega, rfl⟩)).disk 511 (by decide)
    simp only [diskBlockSize, rdBytes, rdMaxLba] at hbound hend hj heq
    rw [disk_byte] at heq
    have := add_ofNat_inj (by omega) (by omega) heq
    omega
  · intro h c hc
    obtain ⟨j, hj, rfl⟩ := (hmem c).mp hc
    have hend := (h.resolve_left (by omega)).resolve_left (by omega)
    simp only [diskBlockSize, rdBytes, rdMaxLba] at hend
    refine ⟨fun i hi => ⟨r.lba.toNat + j * diskBlockSize + i, ?_, disk_byte ..⟩,
      fun i hi => ⟨j * diskBlockSize + i, ?_, add_ofNat_add ..⟩⟩
    · simp only [diskBlockSize, rdBytes, rdMaxLba] at hi ⊢
      omega
    · simp only [diskBlockSize] at hi ⊢
      omega

end Requests

/-! ### The theorem -/

/-- **Ramdisk bounds**: a read or a write is bounded exactly if the check of `_rd_request` refuses
it, it moves nothing, the bound of its copy loop wraps around, or it ends within the disk. -/
theorem request_bounded (cfg : Config) {dr : UInt32} {s : KState} (hdr : dr ≠ 0)
    (hcmd : (s.requests dr).cmd = diskCmdRead ∨ (s.requests dr).cmd = diskCmdWrite) :
    CopyBounded cfg dr s ↔ ¬ RdCheck cfg (s.requests dr) ∨ (s.requests dr).bytes = 0
      ∨ 2 ^ 32 ≤ (s.requests dr).lba.toNat + (s.requests dr).bytes.toNat
      ∨ (s.requests dr).lba.toNat + (s.requests dr).bytes.toNat ≤ rdBytes := by
  rw [← confined_iff cfg]
  constructor
  · intro h
    by_cases hcheck : RdCheck cfg (s.requests dr)
    · exact Or.inr (h.confined hcheck)
    · exact Or.inl hcheck
  · intro h
    refine ⟨fun _ t t' status ht hserve => ?_, fun hcheck => h.resolve_left (not_not.mpr hcheck),
      fun hcheck => ⟨s.setRequestStatus dr diskErrInvalidReqSize,
        by rw [KState.rdRequest, if_neg hdr, if_pos hcheck], rfl, ?_⟩⟩
    · have hmem := serveRequest_mem (by rwa [ht]) hserve
      rwa [ht] at hmem
    · simp [KState.setRequestStatus]

/-- The state after `_init` in which a request to read the given number of blocks from address 0
of the disk on stands at `0x1000`. -/
def requestState (nblocks : UInt32) : KState :=
  { bootState with requests := fun _ => ⟨diskCmdRead, 0, 0, nblocks, 0x5000⟩ }

/-- One block is within the disk. -/
theorem request_bounded_block : CopyBounded demoConfig 0x1000 (requestState 1) :=
  (request_bounded demoConfig (by decide) (Or.inl rfl)).mpr (by decide)

/-- The disk has 20 blocks, but 21 pass the check: it subtracts the address of `_ramdisk`, so what
it takes for the room that is left is larger the higher the disk is. -/
theorem block_beyond_disk : ¬ CopyBounded demoConfig 0x1000 (requestState 21) := by
  intro h
  have hconfined := h.confined (by decide)
  rw [confined_iff] at hconfined
  revert hconfined
  decide

end Sp2
