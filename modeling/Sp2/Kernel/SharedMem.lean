import Sp2.Kernel.Processes

/-!
Memory and the shared memory module (`klibc.c`, `shared_mem.c`).

* `Memory`: the bytes of memory that no kernel variable of the model occupies: the buffers
  and strings of the processes, the arena `_memory` and the ramdisk.
* `memclr`, `memcpy`, `strcpy`: the byte loops of `klibc.c`.
* `SharedmemSegment` and `Shm`: the segment records, addressed anywhere in memory, and the
  variables of the module.
* `shmMalloc`, `shmAlloc`, `shmDealloc`, `shmInit`: the functions of the module.
-/

namespace Sp2

/-! ### Memory -/

/-- Memory outside the kernel's variables, byte by byte. -/
abbrev Memory := UInt32 → UInt8

/-- `_memcpy`: copy `length` bytes upwards. -/
def memcpy (dst src : UInt32) : ℕ → Memory → Memory
  | 0, mem => mem
  | n + 1, mem => memcpy (dst + 1) (src + 1) n (Function.update mem dst (mem src))

/-- `_strcpy`: copy up to and including the NUL. Memory has `2 ^ 32` bytes, and a copy
that has read as many without a NUL only meets bytes it has read or written, none of them
NUL, so it never ends: that case is `none`. -/
def strcpy (dst src : UInt32) : ℕ → Memory → Option Memory
  | 0, _ => none
  | n + 1, mem =>
      let mem' := Function.update mem dst (mem src)
      if mem src = 0 then some mem' else strcpy (dst + 1) (src + 1) n mem'

/-- The number of bytes of memory. -/
def memorySize : ℕ := 2 ^ 32

/-- `_memclr`: clear `length` bytes. -/
def memclr (buffer : UInt32) : ℕ → Memory → Memory
  | 0, mem => mem
  | n + 1, mem => memclr (buffer + 1) n (Function.update mem buffer 0)

/-- `*(uint16_t *) ptr = v`, low byte first. -/
def storeUInt16 (ptr : UInt32) (v : UInt16) (mem : Memory) : Memory :=
  Function.update (Function.update mem ptr v.toUInt8) (ptr + 1) (v >>> 8).toUInt8

/-! ### Segments -/

/-- `MAX_MEMBERS`. -/
abbrev maxMembers : ℕ := 2

instance neZero_maxMembers : NeZero maxMembers := ⟨Nat.succ_ne_zero _⟩

/-- `MAX_MEM_SIZE`. -/
def maxMemSize : UInt32 := 512

/-- `sharedmem_segment`. -/
structure SharedmemSegment where
  address : UInt32
  numMembers : UInt32
  size : UInt32
  mode : UInt32
  id : UInt16
  currentPids : Fin maxMembers → UInt16
  status : UInt8

/-- A segment record cleared by `_memclr`. -/
def SharedmemSegment.zero : SharedmemSegment := ⟨0, 0, 0, 0, 0, fun _ => 0, 0⟩

/-- `pid` is one of the members recorded. -/
def SharedmemSegment.hasMember (segment : SharedmemSegment) (pid : UInt16) : Bool :=
  pid = segment.currentPids 0 ∨ pid = segment.currentPids 1

/-- The variables of `shared_mem.c`: the segment record at each address, among them the
elements of `_shms`; the current segment, zero being null; and the free pointer. Each address
has a record of its own: a record in the memory of a process that changes with another record or
with single bytes is one that the process stores again, and stores into the elements of `_shms`
are for the conditions on runs to exclude. -/
structure Shm where
  segments : UInt32 → SharedmemSegment
  currentShms : UInt32
  nextShm : UInt16
  freePtr : UInt32

namespace Shm

/-- A store into a segment record. -/
def setSegment (address : UInt32) (f : SharedmemSegment → SharedmemSegment) (s : Shm) : Shm :=
  { s with segments := Function.update s.segments address (f (s.segments address)) }

/-- The record of the current segment. -/
def current (s : Shm) : SharedmemSegment := s.segments s.currentShms

/-- `_shm_malloc`: take `size` bytes of the arena `memory`, or none. -/
def shmMalloc (memory size : UInt32) (s : Shm) : UInt32 × Shm :=
  if memory + maxMemSize < s.freePtr + size then (0, s)
  else (s.freePtr, { s with freePtr := s.freePtr + size })

/-- `_shm_alloc`: allocate a segment; zero is null. -/
def shmAlloc (s : Shm) (procs : Procs) : UInt32 × Shm × Procs :=
  let r := procs.qRemove .freeShms
  let shmSeg : UInt32 := r.1.getD (0 : UInt32)
  (shmSeg, if shmSeg ≠ 0 then s.setSegment shmSeg ({ · with status := 1 }) else s, r.2)

/-- `_shm_dealloc`: put a segment into the free pool. -/
def shmDealloc (shmSeg : UInt32) (s : Shm) (procs : Procs) : Stat × Shm × Procs :=
  let s := s.setSegment shmSeg ({ · with status := 0 })
  let r := procs.qInsert .freeShms shmSeg
  (r.1, s, r.2)

end Shm

end Sp2
