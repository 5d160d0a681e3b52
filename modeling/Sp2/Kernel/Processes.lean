import Sp2.Kernel.Queues

/-!
Processes, stacks, the scheduler and the process half of `system.c`.

* `Halt`, `Panic`: the ways the kernel stops.
* `Procs`: the PCBs, the current process, the PID counter and the queues.
* `pcbAlloc`, `pcbDealloc`, `stackAlloc`, `stackDealloc`: the pools of PCBs and stacks.
* `schedule`, `dispatch`: the scheduler and the dispatcher, whose loop is `dispatchLoop`.
* `makeProc`, `cleanup`: making a process and taking it apart.

A stack is identified with its number; what user code and the exit stub keep on it is not
part of the model, the save area is (`Pcb.context`).
-/

namespace Sp2

/-! ### Stopping -/

/-- The calls of `_kpanic` in the modelled code. -/
inductive Panic where
  | pcbInit
  | stackInit
  | shmInit
  | idlePcb
  | idleStack
  | firstPcb
  | firstStack
  | nonReadyInDispatch
  | nullPcbInDispatch
  | sleepInsert
  | readBlock
  | serialWakeup
  | deviceStatus
  | nullCurrent
  | nullContext
  | attach
  | detach
  | remove
  deriving DecidableEq, Repr

/-- The message a panic prints. -/
def Panic.message : Panic → String
  | pcbInit => "pcb init: insert fail"
  | stackInit => "stack init: insert fail"
  | shmInit => "shm init: insert fail"
  | idlePcb => "_init: idle pcb alloc failed"
  | idleStack => "_init: idle stack alloc failed"
  | firstPcb => "_init: first pcb alloc failed"
  | firstStack => "_init: first stack alloc failed"
  | nonReadyInDispatch => "non-ready non-zombie in dispatch"
  | nullPcbInDispatch => "null pcb in dispatch"
  | sleepInsert => "sleep: insert failed"
  | readBlock => "sys read: can't block current process"
  | serialWakeup => "sio isr - serial wakeup failed"
  | deviceStatus => "sio isr - unknown device status"
  | nullCurrent => "syscall: null current"
  | nullContext => "syscall: null current context"
  | attach => "wrong shmid: attach fail"
  | detach => "wrong shmid: detach fail"
  | remove => "wrong shmid: remove fail"

/-- How the kernel stops: in a panic, at a null pointer, or in a loop it never leaves. -/
inductive Halt where
  | panic (panic : Panic)
  | nullPointer
  | hang
  deriving DecidableEq, Repr

/-- The outcome of a kernel function: a new state, or a stop with the state it left. -/
abbrev Res (σ : Type*) := Except (Halt × σ) σ

/-! ### The state of the process modules -/

/-- The variables of `processes.c`, with the queues. `inserts` is a history variable that
no function reads: the status of each `_q_insert` so far, the latest first. -/
structure Procs where
  queues : QSys
  pcbs : PcbId → Pcb
  current : Option PcbId
  nextPid : UInt16
  inserts : List (QueueName × Stat)

namespace Procs

/-- A store into a PCB. -/
def setPcb (pcb : PcbId) (f : Pcb → Pcb) (s : Procs) : Procs :=
  { s with pcbs := Function.update s.pcbs pcb (f (s.pcbs pcb)) }

/-- `context->eax = v` in the save area of a process. -/
def setEax (pcb : PcbId) (v : UInt32) (s : Procs) : Procs :=
  s.setPcb pcb fun p => { p with context := p.context.map ({ · with eax := v }) }

/-- `_q_insert`. -/
def qInsert (q : QueueName) (x : q.Elem) (s : Procs) : Stat × Procs :=
  let r := s.queues.insert s.pcbs q x
  (r.1, { s with queues := r.2, inserts := (q, r.1) :: s.inserts })

/-- `_q_remove`. -/
def qRemove (q : QueueName) (s : Procs) : Option q.Elem × Procs :=
  let r := s.queues.remove q
  (r.1, { s with queues := r.2 })

/-- `_q_remove_if_le`. -/
def qRemoveIfLe (q : QueueName) (key : UInt32) (s : Procs) : Option q.Elem × Procs :=
  let r := s.queues.removeIfLe q key
  (r.1, { s with queues := r.2 })

/-! ### `processes.c` and `stacks.c` -/

/-- `_pcb_alloc`: allocate a PCB. -/
def pcbAlloc (s : Procs) : Option PcbId × Procs :=
  match s.qRemove (.pcbs .freePcbs) with
  | (none, s) => (none, s)
  | (some pcb, s) => (some pcb, s.setPcb pcb ({ · with status := .new }))

/-- `_pcb_dealloc`: deallocate a PCB. -/
def pcbDealloc (pcb : PcbId) (s : Procs) : Stat × Procs :=
  (s.setPcb pcb ({ · with status := .free })).qInsert (.pcbs .freePcbs) pcb

/-- `_stack_alloc`: allocate a stack. -/
def stackAlloc (s : Procs) : Option StackId × Procs := s.qRemove .freeStacks

/-- `_stack_dealloc`: deallocate a stack. -/
def stackDealloc (stack : StackId) (s : Procs) : Stat × Procs := s.qInsert .freeStacks stack

/-! ### `system.c` -/

/-- `DEFAULT_EFLAGS`. -/
def defaultEflags : UInt32 := 0x202

/-- The context `_make_proc` builds on the new stack for the entry point `fcn`. -/
def initialContext (fcn : UInt32) : Context :=
  { Context.zero with
    ss := 0x20, gs := 0x18, fs := 0x18, es := 0x18, ds := 0x18, cs := 0x10,
    eflags := defaultEflags, eip := fcn }

/-- `_make_proc`: initialise the PCB and the stack of a new process, and return its PID. -/
def makeProc (pcb : PcbId) (stack : StackId) (fcn : UInt32) (level : UInt8) (s : Procs) :
    UInt16 × Procs :=
  let s := s.setPcb pcb fun _ =>
    { Pcb.zero with
      context := some (initialContext fcn), stack := some stack, pid := s.nextPid,
      level := level }
  ((s.pcbs pcb).pid, { s with nextPid := s.nextPid + 1 })

/-- `_cleanup`: deallocate the stack and the PCB of a process. -/
def cleanup (pcb : Option PcbId) (s : Procs) : Procs :=
  match pcb with
  | none => s
  | some pcb =>
      let s := match (s.pcbs pcb).stack with
        | some stack => (s.stackDealloc stack).2
        | none => s
      (s.pcbDealloc pcb).2

/-! ### `scheduler.c` -/

/-- `_schedule`: put a PCB into the ready queue. -/
def schedule (pcb : PcbId) (s : Procs) : Stat × Procs :=
  if h : (s.pcbs pcb).level.toNat < mlqLevels then
    (s.setPcb pcb ({ · with status := .ready })).qInsert
      (.pcbs (.ready ⟨(s.pcbs pcb).level.toNat, h⟩)) pcb
  else (.badLevel, s)

/-- The loop of `_dispatch` from a level on: the first process that is ready, or null.
Every round leaves a level or takes an entry out of the ready queues, so the fuel bounds
their number. -/
def dispatchLoop : ℕ → ℕ → Procs → Except (Halt × Procs) (Option PcbId × Procs)
  | 0, _, s => .error (.hang, s)
  | fuel + 1, level, s =>
      if h : level < mlqLevels then
        if s.queues.isEmpty (.pcbs (.ready ⟨level, h⟩)) then dispatchLoop fuel (level + 1) s
        else
          match s.qRemove (.pcbs (.ready ⟨level, h⟩)) with
          | (none, s) => .error (.nullPointer, s)
          | (some pcb, s) =>
              match (s.pcbs pcb).status with
              | .ready => .ok (some pcb, s)
              | .zombie => dispatchLoop fuel level (s.cleanup (some pcb))
              | _ => .error (.panic .nonReadyInDispatch, s)
      else .ok (none, s)

/-- Enough fuel for `dispatchLoop`. -/
def dispatchFuel : ℕ := numQnodes + mlqLevels + 1

/-- `_dispatch`: dispatch the next process. -/
def dispatch (s : Procs) : Res Procs :=
  match dispatchLoop dispatchFuel 0 s with
  | .error e => .error e
  | .ok (none, s) => .error (.panic .nullPcbInDispatch, s)
  | .ok (some pcb, s) =>
      let s := s.setPcb pcb ({ · with status := .running, quantum := quantumDefault })
      .ok { s with current := some pcb }

/-! ### The rounds of the loop of `_dispatch` -/

section Rounds

variable {s : Procs} {fuel level : ℕ} {pcb : PcbId} (hlevel : level < mlqLevels)
include hlevel

/-- From a level without entries the loop goes on to the next one. -/
lemma dispatchLoop_empty (h : s.queues.isEmpty (.pcbs (.ready ⟨level, hlevel⟩)) = true) :
    dispatchLoop (fuel + 1) level s = dispatchLoop fuel (level + 1) s := by
  rw [dispatchLoop, dif_pos hlevel, if_pos h]

/-- A process that is ready ends the loop. -/
lemma dispatchLoop_ready (h : ¬ s.queues.isEmpty (.pcbs (.ready ⟨level, hlevel⟩)) = true)
    (hpcb : (s.qRemove (.pcbs (.ready ⟨level, hlevel⟩))).1 = some pcb)
    (hs : (s.pcbs pcb).status = .ready) :
    dispatchLoop (fuel + 1) level s
      = .ok (some pcb, (s.qRemove (.pcbs (.ready ⟨level, hlevel⟩))).2) := by
  have hs' : ((s.qRemove (.pcbs (.ready ⟨level, hlevel⟩))).2.pcbs pcb).status = .ready := hs
  rw [dispatchLoop, dif_pos hlevel, if_neg h,
    ← Prod.mk.eta (p := s.qRemove (.pcbs (.ready ⟨level, hlevel⟩))), hpcb]
  simp only [hs']

/-- A zombie is taken apart, and the loop goes on. -/
lemma dispatchLoop_zombie (h : ¬ s.queues.isEmpty (.pcbs (.ready ⟨level, hlevel⟩)) = true)
    (hpcb : (s.qRemove (.pcbs (.ready ⟨level, hlevel⟩))).1 = some pcb)
    (hs : (s.pcbs pcb).status = .zombie) :
    dispatchLoop (fuel + 1) level s
      = dispatchLoop fuel level
          ((s.qRemove (.pcbs (.ready ⟨level, hlevel⟩))).2.cleanup (some pcb)) := by
  have hs' : ((s.qRemove (.pcbs (.ready ⟨level, hlevel⟩))).2.pcbs pcb).status = .zombie := hs
  rw [dispatchLoop, dif_pos hlevel, if_neg h,
    ← Prod.mk.eta (p := s.qRemove (.pcbs (.ready ⟨level, hlevel⟩))), hpcb]
  simp only [hs']

end Rounds

end Procs

end Sp2
