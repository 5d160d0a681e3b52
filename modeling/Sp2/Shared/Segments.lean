import Sp2.Table.Boot
import Sp2.Lib.Arena

/-!
Segment records and the variables of `shared_mem.c`.

* `Config.Linked`: what the linker promises about the addresses.
* `SharedmemSegment.join`, `SharedmemSegment.leave`, `Shm.created`: what `_sys_shmat`,
  `_sys_shmdt` and `_sys_shmget` make of a record and of the variables.
* `SharedmemSegment.recorded`, `recorded_join`, `recorded_leave`: the members a record shows.
* `SharedmemSegment.Has`, `SharedmemSegment.block`, `has_iff_block`: the bytes of a segment.
* `shmMalloc_eq`: `_shm_malloc` when its sum is not cut to 32 bits.
-/

namespace Sp2

/-! ### Addresses -/

/-- What the linker promises: the elements of `_shms` and `_memory` are not at address zero,
and the end of `_memory` has an address. -/
structure Config.Linked (cfg : Config) : Prop where
  shm_ne : ∀ i, cfg.shm i ≠ 0
  memory_ne : cfg.memory ≠ 0
  memory_end : cfg.memory.toNat + maxMemSize.toNat < 2 ^ 32

lemma demoConfig_linked : demoConfig.Linked := ⟨by decide, by decide, by decide⟩

/-- The element of `_shms` is a live segment: it is not marked `SHM_FREE`. -/
def KState.Live (cfg : Config) (i : Fin maxShms) (s : KState) : Prop :=
  (s.shm.segments (cfg.shm i)).status = 1

instance (cfg : Config) (i : Fin maxShms) (s : KState) : Decidable (s.Live cfg i) :=
  inferInstanceAs (Decidable ((s.shm.segments (cfg.shm i)).status = 1))

/-- The elements of `_shms` have different addresses. -/
lemma Config.shm_injective (cfg : Config) : Function.Injective cfg.shm := by
  intro i j h
  have hoffset : ∀ i j : Fin maxShms, 24 * UInt32.ofNat i = 24 * UInt32.ofNat j → i = j := by
    decide
  exact hoffset i j ((UInt32.add_right_inj _).mp h)

/-! ### Records and variables -/

/-- The place of a new member, which `_sys_shmat` finds from the number of members. -/
def SharedmemSegment.slot (segment : SharedmemSegment) : Option (Fin maxMembers) :=
  if segment.numMembers = 0 then some 0 else if segment.numMembers = 1 then some 1 else none

/-- The place of a member. -/
def SharedmemSegment.place (pid : UInt16) (segment : SharedmemSegment) : Option (Fin maxMembers) :=
  if segment.currentPids 0 = pid then some 0 else if segment.currentPids 1 = pid then some 1
  else none

/-- A member is recorded in a place. -/
def SharedmemSegment.join (i : Fin maxMembers) (pid : UInt16) (segment : SharedmemSegment) :
    SharedmemSegment :=
  { segment with
    currentPids := Function.update segment.currentPids i pid
    numMembers := segment.numMembers + 1 }

/-- A place is given up. -/
def SharedmemSegment.leave (i : Fin maxMembers) (segment : SharedmemSegment) :
    SharedmemSegment :=
  { segment with
    currentPids := Function.update segment.currentPids i 0
    numMembers := segment.numMembers - 1 }

/-- The entries of `current_pids` that are not zero. -/
def SharedmemSegment.recorded (segment : SharedmemSegment) : List UInt16 :=
  ((List.finRange maxMembers).map segment.currentPids).filter (· ≠ 0)

/-- The bytes of a segment. -/
def SharedmemSegment.block (segment : SharedmemSegment) : Arena.Block :=
  ⟨segment.address.toNat, segment.size.toNat⟩

/-- The byte is one of the segment; a segment with a null address has none. -/
def SharedmemSegment.Has (segment : SharedmemSegment) (x : UInt32) : Prop :=
  segment.address ≠ 0 ∧ (x - segment.address).toNat < segment.size.toNat

/-- The number of bytes of the segment. -/
def SharedmemSegment.capacity (segment : SharedmemSegment) : ℕ :=
  if segment.address = 0 then 0 else segment.size.toNat

/-- The address after the last byte of `_memory`. -/
def Config.memoryEnd (cfg : Config) : ℕ := cfg.memory.toNat + maxMemSize.toNat

/-- What `_sys_shmget` makes of the variables when it takes the record at an address. -/
def Shm.created (memory address size mode : UInt32) (s : Shm) : Shm where
  segments := Function.update s.segments address
    ⟨(s.shmMalloc memory size).1, 0, size, mode, s.nextShm, fun _ => 0, 1⟩
  currentShms := address
  nextShm := s.nextShm + 1
  freePtr := (s.shmMalloc memory size).2.freePtr

section Records

variable {s : Shm} {a b : UInt32} {f : SharedmemSegment → SharedmemSegment}

@[simp] lemma setSegment_currentShms : (s.setSegment a f).currentShms = s.currentShms := rfl

@[simp] lemma setSegment_freePtr : (s.setSegment a f).freePtr = s.freePtr := rfl

@[simp] lemma setSegment_self : (s.setSegment a f).segments a = f (s.segments a) :=
  Function.update_self ..

lemma setSegment_of_ne (h : b ≠ a) : (s.setSegment a f).segments b = s.segments b :=
  Function.update_of_ne h _ _

/-- A field that a store keeps is the same in every record. -/
lemma setSegment_field {β : Type} (g : SharedmemSegment → β)
    (hf : g (f (s.segments a)) = g (s.segments a)) (b : UInt32) :
    g ((s.setSegment a f).segments b) = g (s.segments b) := by
  by_cases hb : b = a
  · rw [hb, setSegment_self, hf]
  · rw [setSegment_of_ne hb]

lemma created_self {memory size mode : UInt32} : (s.created memory a size mode).segments a
    = ⟨(s.shmMalloc memory size).1, 0, size, mode, s.nextShm, fun _ => 0, 1⟩ :=
  Function.update_self ..

lemma created_of_ne {memory size mode : UInt32} (h : b ≠ a) :
    (s.created memory a size mode).segments b = s.segments b :=
  Function.update_of_ne h _ _

end Records

section Members

variable {r : SharedmemSegment} {pid : UInt16} {i : Fin maxMembers}

lemma recorded_eq : r.recorded = [r.currentPids 0, r.currentPids 1].filter (· ≠ 0) := rfl

lemma mem_recorded : pid ∈ r.recorded ↔ pid ≠ 0 ∧ ∃ k, r.currentPids k = pid := by
  rw [SharedmemSegment.recorded, List.mem_filter, List.mem_map]
  simp [and_comm]

lemma recorded_length_le : r.recorded.length ≤ maxMembers := by
  refine (List.length_filter_le _ _).trans ?_
  rw [List.length_map, List.length_finRange]

lemma hasMember_iff : r.hasMember pid = true ↔ ∃ k, r.currentPids k = pid := by
  rw [SharedmemSegment.hasMember, decide_eq_true_eq, Fin.exists_fin_two, eq_comm,
    eq_comm (a := pid)]

lemma mem_recorded_iff (hpid : pid ≠ 0) : pid ∈ r.recorded ↔ r.hasMember pid = true := by
  rw [mem_recorded, hasMember_iff, and_iff_right hpid]

/-- There is a place for a new member as long as the count is below two. -/
lemma exists_slot (h : r.numMembers.toNat < maxMembers) : ∃ k, r.slot = some k := by
  have hnum : r.numMembers = 0 ∨ r.numMembers = 1 := by
    rw [← UInt32.toNat_inj, ← UInt32.toNat_inj]
    change _ = 0 ∨ _ = 1
    change _ < 2 at h
    omega
  rw [SharedmemSegment.slot]
  rcases hnum with hnum | hnum
  · exact ⟨0, if_pos hnum⟩
  · exact ⟨1, by rw [hnum]; rfl⟩

/-- With a place for a new member the count is below two. -/
lemma slot_num (h : r.slot = some i) : r.numMembers.toNat < maxMembers := by
  rw [SharedmemSegment.slot] at h
  split_ifs at h with h0 h1
  · rw [h0]
    decide
  · rw [h1]
    decide

lemma place_spec (h : r.place pid = some i) : r.currentPids i = pid := by
  rw [SharedmemSegment.place] at h
  split_ifs at h with h0 h1
  · rwa [← Option.some.inj h]
  · rwa [← Option.some.inj h]

lemma place_none (h : r.place pid = none) : r.hasMember pid = false := by
  rw [SharedmemSegment.place] at h
  split_ifs at h with h0 h1
  rw [← Bool.not_eq_true, hasMember_iff, Fin.exists_fin_two]
  exact not_or.mpr ⟨h0, h1⟩

/-- A member recorded in a free place is one more. -/
lemma recorded_join (hi : r.currentPids i = 0) (hpid : pid ≠ 0) :
    (r.join i pid).recorded.Perm (pid :: r.recorded) := by
  rw [recorded_eq, recorded_eq]
  match i with
  | 0 => simp [SharedmemSegment.join, hi, hpid]
  | 1 =>
      by_cases h0 : r.currentPids 0 = 0
      · simp [SharedmemSegment.join, h0, hi, hpid]
      · simpa [SharedmemSegment.join, h0, hi, hpid] using List.Perm.swap _ _ _

/-- A member whose place is given up is one less. -/
lemma recorded_leave (hi : r.currentPids i = pid) (hpid : pid ≠ 0) :
    r.recorded.Perm (pid :: (r.leave i).recorded) := by
  have hjoin := recorded_join (r := r.leave i) (i := i) (Function.update_self ..) hpid
  have hsame : ((r.leave i).join i pid).recorded = r.recorded := by
    rw [SharedmemSegment.recorded, SharedmemSegment.recorded]
    refine congrArg _ (List.map_congr_left fun k _ => ?_)
    change Function.update (Function.update r.currentPids i 0) i pid k = _
    rw [Function.update_idem, ← hi, Function.update_eq_self]
  rwa [hsame] at hjoin

end Members

section Memory

variable {s : Shm} {r : SharedmemSegment} {x : UInt32} {k : ℕ}

/-- The bytes of a segment that ends below `2 ^ 32` are those of its block. -/
lemma has_iff_block (hend : r.address.toNat + r.size.toNat < 2 ^ 32) :
    r.Has x ↔ r.address ≠ 0 ∧ r.block.Has x.toNat := by
  rw [SharedmemSegment.Has, SharedmemSegment.block, Arena.Block.Has, UInt32.toNat_sub]
  refine and_congr Iff.rfl ?_
  change _ ↔ r.address.toNat ≤ x.toNat ∧ x.toNat < r.address.toNat + r.size.toNat
  have hx := x.toNat_lt
  omega

lemma has_of_lt_capacity (hk : k < r.capacity) : r.Has (r.address + UInt32.ofNat k) := by
  rw [SharedmemSegment.capacity] at hk
  split_ifs at hk with hnull
  · exact absurd hk (Nat.not_lt_zero k)
  · refine ⟨hnull, ?_⟩
    have hlt := hk.trans r.size.toNat_lt
    rw [UInt32.toNat_sub, UInt32.toNat_add, UInt32.toNat_ofNat', Nat.mod_eq_of_lt hlt]
    have haddress := r.address.toNat_lt
    omega

lemma memoryEnd_eq {cfg : Config} (hl : cfg.Linked) :
    (cfg.memory + maxMemSize).toNat = cfg.memoryEnd := by
  rw [UInt32.toNat_add, Nat.mod_eq_of_lt hl.memory_end, Config.memoryEnd]

/-- `_shm_malloc`, when the sum it compares is not cut. -/
lemma shmMalloc_eq {cfg : Config} (hl : cfg.Linked) {size : UInt32}
    (hsum : s.freePtr.toNat + size.toNat < 2 ^ 32) : s.shmMalloc cfg.memory size
      = if s.freePtr.toNat + size.toNat ≤ cfg.memoryEnd
        then (s.freePtr, { s with freePtr := s.freePtr + size }) else (0, s) := by
  have hless : cfg.memory + maxMemSize < s.freePtr + size
      ↔ ¬ s.freePtr.toNat + size.toNat ≤ cfg.memoryEnd := by
    rw [UInt32.lt_iff_toNat_lt, memoryEnd_eq hl, UInt32.toNat_add, Nat.mod_eq_of_lt hsum, not_le]
  rw [Shm.shmMalloc]
  by_cases hfits : s.freePtr.toNat + size.toNat ≤ cfg.memoryEnd
  · rw [if_pos hfits, if_neg fun h => hless.mp h hfits]
  · rw [if_neg hfits, if_pos (hless.mpr hfits)]

end Memory

end Sp2
