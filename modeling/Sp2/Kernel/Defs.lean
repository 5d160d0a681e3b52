import Sp2.Queues.Refinement
import Mathlib.Algebra.Ring.Nat
import Mathlib.Data.Fintype.Prod
import Mathlib.Tactic.DeriveFintype

/-!
The constants and data types of the kernel (`defs.h`, `processes.h`, `shared_mem.h`,
`disk.h`).

* `ProcStatus`, `Context`, `Pcb`: the process states, the saved registers and the process
  control block. A pointer into one of the kernel's tables is its index, a pointer to
  a record elsewhere is its 32-bit address.
* `QueueName`: the queue headers of the kernel, all of which take their nodes from the one
  pool of `queues.c`, and `QueueName.Elem`, the objects each of them holds.
* `Obj`: what a `void *` in a queue node points to.
-/

namespace Sp2

/-! ### Constants -/

/-- `MAX_PROCS`. -/
abbrev maxProcs : ℕ := 24

/-- `MAX_SHMS`. -/
abbrev maxShms : ℕ := 4

/-- `FUDGE_FACTOR`, the number of extra queue nodes. -/
abbrev fudgeFactor : ℕ := 5

/-- The number of elements of `_qnodes`. -/
abbrev numQnodes : ℕ := 2 * maxProcs + maxShms + fudgeFactor

/-- `MLQ_LEVELS`. -/
abbrev mlqLevels : ℕ := 3

-- The tables have a first element: their indices may be written as numbers.
instance neZero_maxProcs : NeZero maxProcs := ⟨Nat.succ_ne_zero _⟩
instance neZero_maxShms : NeZero maxShms := ⟨Nat.succ_ne_zero _⟩
instance neZero_numQnodes : NeZero numQnodes := ⟨Nat.succ_ne_zero _⟩
instance neZero_mlqLevels : NeZero mlqLevels := ⟨Nat.succ_ne_zero _⟩

/-- `LEVEL_DEFAULT`, that is `LEVEL_MEDIUM`. -/
def levelDefault : UInt8 := 1

/-- `LEVEL_LOW`. -/
def levelLow : UInt8 := 2

/-- `QUANTUM_DEFAULT`. -/
def quantumDefault : UInt8 := 2

/-! ### Processes -/

/-- The process states, in the order of their codes. -/
inductive ProcStatus where
  | free
  | new
  | ready
  | running
  | zombie
  | sleeping
  | blocked
  deriving DecidableEq, Repr

/-- The code of a process state. -/
def ProcStatus.code : ProcStatus → UInt32
  | free => 0
  | new => 1
  | ready => 2
  | running => 3
  | zombie => 4
  | sleeping => 5
  | blocked => 6

/-- `status > PROC_NEW`: the process is active. -/
def ProcStatus.isActive (status : ProcStatus) : Bool := ProcStatus.new.code < status.code

/-- `context_t`, the save area of a process. -/
structure Context where
  ss : UInt32
  gs : UInt32
  fs : UInt32
  es : UInt32
  ds : UInt32
  edi : UInt32
  esi : UInt32
  ebp : UInt32
  esp : UInt32
  ebx : UInt32
  edx : UInt32
  ecx : UInt32
  eax : UInt32
  vector : UInt32
  code : UInt32
  eip : UInt32
  cs : UInt32
  eflags : UInt32
  deriving DecidableEq, Repr

/-- A context filled with zeros. -/
def Context.zero : Context := ⟨0, 0, 0, 0, 0, 0, 0, 0, 0, 0, 0, 0, 0, 0, 0, 0, 0, 0⟩

/-- A pointer to an element of `_pcbs`. -/
abbrev PcbId := Fin maxProcs

/-- A pointer to an element of `_stacks`. -/
abbrev StackId := Fin maxProcs

/-- `pcb_t`. The save area is reached through the pointer `context`; the pending request
is the address of its record, zero being the null pointer. -/
structure Pcb where
  context : Option Context
  stack : Option StackId
  wakeup : UInt32
  pendingRequest : UInt32
  pid : UInt16
  ppid : UInt16
  status : ProcStatus
  level : UInt8
  quantum : UInt8
  deriving DecidableEq, Repr

/-- A process control block cleared by `_memclr`. -/
def Pcb.zero : Pcb := ⟨none, none, 0, 0, 0, 0, .free, 0, 0⟩

/-! ### Queues -/

/-- The queues a process is in while it is not running: the pool of free PCBs, the ready
queue of each level, `_sleeping` and `_reading`. -/
inductive PcbQueue where
  | freePcbs
  | ready (level : Fin mlqLevels)
  | sleeping
  | reading
  deriving DecidableEq, Repr, Fintype

/-- The queue headers of the kernel. -/
inductive QueueName where
  | pcbs (queue : PcbQueue)
  | blockedRequests
  | freeStacks
  | freeShms
  | ramdiskIoPending
  | ataIoPending
  deriving DecidableEq, Repr, Fintype

/-- What the data pointer of a queue node points to: an element of `_pcbs` or `_stacks`,
or the segment record or disk request at an address. -/
inductive Obj where
  | pcb (pcb : PcbId)
  | stack (stack : StackId)
  | shm (address : UInt32)
  | request (address : UInt32)
  deriving DecidableEq, Repr

/-- The objects a queue holds. -/
abbrev QueueName.Elem : QueueName → Type
  | pcbs _ => PcbId
  | blockedRequests => PcbId
  | freeStacks => StackId
  | freeShms => UInt32
  | ramdiskIoPending => UInt32
  | ataIoPending => UInt32

/-- The cast of an object to `void *`. -/
def QueueName.obj : (q : QueueName) → q.Elem → Obj
  | pcbs _, pcb => .pcb pcb
  | blockedRequests, pcb => .pcb pcb
  | freeStacks, stack => .stack stack
  | freeShms, address => .shm address
  | ramdiskIoPending, address => .request address
  | ataIoPending, address => .request address

/-- The cast back of what was removed from a queue. -/
def QueueName.elem? : (q : QueueName) → Obj → Option q.Elem
  | pcbs _, .pcb pcb => some pcb
  | blockedRequests, .pcb pcb => some pcb
  | freeStacks, .stack stack => some stack
  | freeShms, .shm address => some address
  | ramdiskIoPending, .request address => some address
  | ataIoPending, .request address => some address
  | _, _ => none

@[simp] lemma QueueName.elem?_obj (q : QueueName) (x : q.Elem) : q.elem? (q.obj x) = some x := by
  cases q <;> rfl

/-- `_hash_sleep`: the key of a process in `_sleeping` is its wakeup time. -/
def hashSleep (pcbs : PcbId → Pcb) : Option Obj → UInt32
  | some (.pcb pcb) => (pcbs pcb).wakeup
  | _ => 0

/-- The hash function each queue header is reset with: only `_sleeping` is ordered. -/
def QueueName.hashfcn : QueueName → Option ((PcbId → Pcb) → Option Obj → UInt32)
  | pcbs .sleeping => some hashSleep
  | _ => none

end Sp2
