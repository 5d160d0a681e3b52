import Sp2.Kernel.Interrupts
import Sp2.Lib.Transition

/-!
Initialisation and the steps of the machine (`system.c`, `isr_stubs.S`).

* `init`: `_init`, module by module, starting from what memory holds when the kernel is
  entered (`Loaded`).
* `Event`, `step`: what can happen while a process runs, and what the kernel makes of it.
* `Run`, `Reachable`: runs of the kernel from the end of `_init`.
-/

namespace Sp2

/-! ### `_init` -/

/-- What memory holds when the kernel is entered, apart from the kernel's variables. -/
structure Loaded where
  mem : Memory
  segments : UInt32 → SharedmemSegment
  requests : UInt32 → DiskRequest

namespace Procs

/-- `_pcb_init`: clear the PCBs and put each of them into the free pool; the status of the
last insertion is checked. -/
def pcbInit (s : Procs) : Res Procs :=
  let r := (List.finRange maxProcs).foldl (fun r pcb => r.2.pcbDealloc pcb)
    (Stat.success, { s with pcbs := fun _ => Pcb.zero })
  if r.1 ≠ .success then .error (.panic .pcbInit, r.2)
  else .ok { r.2 with current := none, nextPid := 0 }

/-- `_stack_init`. -/
def stackInit (s : Procs) : Res Procs :=
  let r := (List.finRange maxProcs).foldl (fun r stack => r.2.stackDealloc stack)
    (Stat.success, s)
  if r.1 ≠ .success then .error (.panic .stackInit, r.2) else .ok r.2

/-- The making of one of the first processes in `_init`. -/
def initProc (noPcb noStack : Panic) (fcn : UInt32) (level : UInt8) (s : Procs) : Res Procs :=
  match s.pcbAlloc with
  | (none, s) => .error (.panic noPcb, s)
  | (some pcb, s) =>
      match s.stackAlloc with
      | (none, s) => .error (.panic noStack, s)
      | (some stack, s) => .ok ((s.makeProc pcb stack fcn level).2.schedule pcb).2

/-- The process modules after `_q_init`. -/
def loaded : Procs := ⟨QSys.init, fun _ => Pcb.zero, none, 0, []⟩

end Procs

/-- `_shm_init`: clear the segments and put each of them into the free pool. -/
def shmInit (cfg : Config) (s : KState) : Res KState :=
  let segments := (List.finRange maxShms).foldl
    (fun segments i => Function.update segments (cfg.shm i) SharedmemSegment.zero)
    s.shm.segments
  let r := (List.finRange maxShms).foldl (fun r i => r.2.1.shmDealloc (cfg.shm i) r.2.2)
    (Stat.success, { s.shm with segments := segments }, s.procs)
  let s := { s with shm := r.2.1, procs := r.2.2 }
  if r.1 ≠ .success then .error (.panic .shmInit, s)
  else .ok { s with shm := { s.shm with currentShms := 0, nextShm := 0 } }

/-- `_mem_init`: clear the arena of the segments. -/
def memInit (cfg : Config) (s : KState) : KState :=
  { s with
    mem := memclr cfg.memory maxMemSize.toNat s.mem
    shm := { s.shm with freePtr := cfg.memory } }

/-- `_init`, from the queue module on. The idle process is made first, then the first
user process, then the disk test. -/
def init (cfg : Config) (loaded : Loaded) : Except (Halt × KState) KState := do
  let s : KState :=
    { procs := Procs.loaded
      sio := Sio.init
      clock := ⟨0, 0, 0⟩
      shm := ⟨loaded.segments, 0, 0, 0⟩
      requests := loaded.requests
      mem := loaded.mem }
  let s ← s.liftProcs Procs.pcbInit
  let s ← s.liftProcs Procs.stackInit
  let s ← shmInit cfg (memInit cfg s)
  let s ← s.liftProcs (·.initProc .idlePcb .idleStack cfg.userIdle levelLow)
  let s ← s.liftProcs (·.initProc .firstPcb .firstStack cfg.userFirst levelDefault)
  let s ← s.liftProcs (·.initProc .firstPcb .firstStack cfg.ataTestProc levelDefault)
  let s ← s.liftProcs Procs.dispatch
  .ok { s with sio := (s.sio.sioEnable true true).2 }

/-! ### Events -/

/-- What can happen while a process runs. An interrupt comes with the registers that the
entry code saves: a system call has its code in EAX and its arguments behind the save
area, a serial interrupt comes with what the device will report. Between interrupts the
process may store into memory and into segment records of its own. -/
inductive Event where
  | syscall (context : Context) (args : Args)
  | clock (context : Context)
  | sio (context : Context) (polls : List (UInt8 × UInt8))
  | store (address : UInt32) (byte : UInt8)
  | record (address : UInt32) (segment : SharedmemSegment)

namespace KState

/-- `isr_save`: leave the registers in the save area of the current process. -/
def isrSave (context : Context) (s : KState) : KState :=
  match s.procs.current with
  | none => s
  | some current =>
      { s with procs := s.procs.setPcb current ({ · with context := some context }) }

/-- A process stores a segment record of its own, which is not an element of `_shms`. -/
def storeRecord (cfg : Config) (address : UInt32) (segment : SharedmemSegment) (s : KState) :
    KState :=
  if ∃ i, cfg.shm i = address then s
  else { s with shm := s.shm.setSegment address fun _ => segment }

end KState

/-- What the kernel makes of an event. -/
def step (cfg : Config) (s : KState) : Event → Res KState
  | .syscall context args => isrSyscall cfg args (s.isrSave context)
  | .clock context => isrClock cfg (s.isrSave context)
  | .sio context polls => isrSio polls (s.isrSave context)
  | .store address byte => .ok { s with mem := Function.update s.mem address byte }
  | .record address segment => .ok (s.storeRecord cfg address segment)

/-- A run of the kernel whose steps all satisfy `P`. -/
abbrev Run (cfg : Config) (P : KState → Event → Prop) : KState → List Event → KState → Prop :=
  Transition.Run (step cfg) P

/-- A state at the end of `_init`. -/
def Initial (cfg : Config) (s : KState) : Prop := ∃ loaded, init cfg loaded = .ok s

/-- The states reached from the end of `_init` by steps that all satisfy `P`. -/
abbrev Reachable (cfg : Config) (P : KState → Event → Prop) : KState → Prop :=
  Transition.Reachable (step cfg) P (Initial cfg)

end Sp2
