import Sp2.Kernel.State

/-!
The system calls (`syscalls.c`).

* `Procs.spawn`, `Procs.sleep`, `Procs.kill`, `Procs.exit`, `Procs.blockReading`: what the
  process calls do to the process modules.
* `SysCall` and `sysHandler`: the call codes and the table `_syscalls`; the handlers
  `sysSpawn`, ..., `sysShmrm` keep the names and the order of the source.
* `isrSyscall`: the interrupt routine.

A handler gets the save area of its caller, which is named by the caller's PCB, and the
arguments.
-/

namespace Sp2

/-- The arguments of a system call, `args[0]`, `args[1]`, ... -/
abbrev Args := ℕ → UInt32

/-- The value `-1` in a register. -/
def minusOne : UInt32 := 0xffffffff

/-! ### The process calls -/

namespace Procs

/-- `_spawn`: make a process and schedule it and its parent, the child first. -/
def spawn (currcon : PcbId) (fcn : UInt32) (level : UInt8) (s : Procs) : Res Procs :=
  match s.pcbAlloc with
  | (none, s) => .ok (s.setEax currcon minusOne)
  | (some pcb, s) =>
      match s.stackAlloc with
      | (none, s) => .ok ((s.pcbDealloc pcb).2.setEax currcon minusOne)
      | (some stack, s) =>
          let r := s.makeProc pcb stack fcn level
          let s := r.2.setEax currcon r.1.toUInt32
          let s := s.setPcb pcb ({ · with ppid := (s.pcbs currcon).pid })
          ((s.schedule pcb).2.schedule currcon).2.dispatch

/-- `_sys_sleep` with the sum of the system time and the sleeping time: a sleep of zero
seconds only yields. -/
def sleep (current : PcbId) (num : UInt16) (wakeup : UInt32) (s : Procs) : Res Procs :=
  if num ≠ 0 then
    let s := s.setPcb current ({ · with wakeup := wakeup, status := .sleeping })
    let r := s.qInsert (.pcbs .sleeping) current
    if r.1 ≠ .success then .error (.panic .sleepInsert, r.2) else r.2.dispatch
  else (s.schedule current).2.dispatch

/-- The branch of `_sys_read` that finds no character. -/
def blockReading (current : PcbId) (s : Procs) : Res Procs :=
  let s := s.setPcb current ({ · with status := .blocked })
  let r := s.qInsert (.pcbs .reading) current
  if r.1 ≠ .success then .error (.panic .readBlock, r.2) else r.2.dispatch

/-- `_sys_exit`. -/
def exit (current : PcbId) (s : Procs) : Res Procs := (s.cleanup (some current)).dispatch

/-- The process `_sys_kill` finds: the first active one with the PID. -/
def findPid (pid : UInt16) (s : Procs) : Option PcbId :=
  (List.finRange maxProcs).find? fun pcb => (s.pcbs pcb).pid = pid && (s.pcbs pcb).status.isActive

/-- `_sys_kill`: the idle process is refused, the caller cleaned up, another active process
marked. -/
def kill (current : PcbId) (pid : UInt16) (s : Procs) : Res Procs :=
  let s := s.setEax current minusOne
  if pid = 0 then .ok s
  else if pid = (s.pcbs current).pid then s.exit current
  else
    match s.findPid pid with
    | none => .ok s
    | some pcb =>
        .ok ((s.setEax current (s.pcbs pcb).status.code).setPcb pcb
          ({ · with status := .zombie }))

end Procs

/-! ### The handlers -/

variable (cfg : Config) (context : PcbId) (args : Args) (s : KState)

/-- `_sys_spawn`. -/
def sysSpawn : Res KState := s.liftProcs (·.spawn context (args 0) levelDefault)

/-- `_sys_spawnl`: the level is cut to 8 bits. -/
def sysSpawnl : Res KState := s.liftProcs (·.spawn context (args 0) (args 1).toUInt8)

/-- `_sys_sleep`. -/
def sysSleep : Res KState :=
  let num := (args 0).toUInt16
  s.liftProcs (·.sleep context num (s.clock.systemTime + num.toUInt32 * cfg.ticksPerSecond))

/-- `_sys_exit`. -/
def sysExit : Res KState := s.liftProcs (·.exit context)

/-- `_sys_kill`: the PID is cut to 16 bits. -/
def sysKill : Res KState := s.liftProcs (·.kill context (args 0).toUInt16)

/-- `_sys_read`: the next character, or wait for one. -/
def sysRead : Res KState :=
  match s.sio.sioRead with
  | (some ch, sio) => .ok ({ s with sio := sio }.setEax context ch.toUInt32)
  | (none, sio) => { s with sio := sio }.liftProcs (·.blockReading context)

/-- `_sys_write`. -/
def sysWrite : Res KState := .ok { s with sio := s.sio.sioWrite (args 0) }

/-- `_sys_time`. -/
def sysTime : Res KState := .ok (s.setEax context (s.clock.systemTime / cfg.ticksPerSecond))

/-- `_sys_getpid`. -/
def sysGetpid : Res KState := .ok (s.setEax context (s.procs.pcbs context).pid.toUInt32)

/-- `_sys_getppid`. -/
def sysGetppid : Res KState := .ok (s.setEax context (s.procs.pcbs context).ppid.toUInt32)

/-- The local variables of `_sys_getpidlist`, with the memory its buffer is in. -/
structure PidList where
  mem : Memory
  ptr : UInt32
  size : UInt32
  num : UInt32

/-- One round of the loop of `_sys_getpidlist`. -/
def PidList.round (l : PidList) (pcb : Pcb) : PidList :=
  if pcb.status.isActive then
    let l := { l with num := l.num + 1 }
    if l.size ≠ 0 then
      { l with mem := storeUInt16 l.ptr pcb.pid l.mem, ptr := l.ptr + 2, size := l.size - 1 }
    else l
  else l

/-- `_sys_getpidlist`. -/
def sysGetpidlist : Res KState :=
  let l : PidList := (List.finRange maxProcs).foldl
    (fun l pcb => PidList.round l (s.procs.pcbs pcb)) ⟨s.mem, args 0, args 1, 0⟩
  .ok ({ s with mem := l.mem }.setEax context l.num)

/-- `_sys_shmget`. -/
def sysShmget : Res KState :=
  let (seg, shm, procs) := s.shm.shmAlloc s.procs
  let s := { s with shm := { shm with currentShms := seg }, procs := procs }
  if seg = 0 then .ok (s.setEax context minusOne)
  else
    let shm := s.shm.setSegment seg fun segment =>
      { segment with
        numMembers := 0, size := args 0, mode := args 1, id := s.shm.nextShm,
        currentPids := fun _ => 0 }
    let (address, shm) := { shm with nextShm := shm.nextShm + 1 }.shmMalloc cfg.memory
      shm.current.size
    let shm := shm.setSegment seg ({ · with address := address })
    .ok ({ s with shm := shm }.setEax context shm.current.id.toUInt32)

/-- `_sys_shmat`. -/
def sysShmat : Res KState :=
  if s.shm.currentShms = 0 then .error (.nullPointer, s)
  else if args 0 ≠ s.shm.current.id.toUInt32 then .error (.panic .attach, s)
  else
    let pid := (s.procs.pcbs context).pid
    let join (i : Fin maxMembers) : Res KState :=
      let shm := s.shm.setSegment s.shm.currentShms fun segment =>
        { segment with
          currentPids := Function.update segment.currentPids i pid,
          numMembers := segment.numMembers + 1 }
      .ok ({ s with shm := shm }.setEax context shm.current.address)
    if s.shm.current.numMembers = 0 then join 0
    else if s.shm.current.numMembers = 1 then join 1
    else .ok (s.setEax context 0)

/-- `_sys_shmwrite`. -/
def sysShmwrite : Res KState :=
  let shms := s.shm.segments (args 0)
  if !shms.hasMember (s.procs.pcbs context).pid then .ok (s.setEax context minusOne)
  else
    match strcpy shms.address (args 1) memorySize s.mem with
    | none => .error (.hang, s)
    | some mem => .ok ({ s with mem := mem }.setEax context 1)

/-- `_sys_shmread`. -/
def sysShmread : Res KState :=
  let shms := s.shm.segments (args 0)
  if !shms.hasMember (s.procs.pcbs context).pid then .ok (s.setEax context minusOne)
  else
    match strcpy (args 1) shms.address memorySize s.mem with
    | none => .error (.hang, s)
    | some mem => .ok ({ s with mem := mem }.setEax context 1)

/-- `_sys_shmdt`. -/
def sysShmdt : Res KState :=
  let shms := s.shm.segments (args 0)
  let pid := (s.procs.pcbs context).pid
  if !shms.hasMember pid then .ok (s.setEax context minusOne)
  else if s.shm.currentShms = 0 then .error (.nullPointer, s)
  else if shms.id ≠ s.shm.current.id then .error (.panic .detach, s)
  else
    let leave (i : Fin maxMembers) : Res KState :=
      let shm := s.shm.setSegment s.shm.currentShms fun segment =>
        { segment with
          currentPids := Function.update segment.currentPids i 0,
          numMembers := segment.numMembers - 1 }
      .ok ({ s with shm := shm }.setEax context 1)
    if 0 < s.shm.current.numMembers then
      if s.shm.current.currentPids 0 = pid then leave 0
      else if s.shm.current.currentPids 1 = pid then leave 1
      else .ok (s.setEax context minusOne)
    else .ok (s.setEax context 1)

/-- `_sys_shmrm`. -/
def sysShmrm : Res KState :=
  if s.shm.currentShms = 0 then .error (.nullPointer, s)
  else if (s.shm.segments (args 0)).id ≠ s.shm.current.id then .error (.panic .remove, s)
  else
    let (result, shm, procs) := s.shm.shmDealloc (args 0) s.procs
    let s := { s with shm := shm, procs := procs }
    match result with
    | .success => .ok (s.setEax context 1)
    | .allocFail => .ok (s.setEax context minusOne)
    | .badLevel => .ok s

/-! ### The interrupt routine -/

/-- The system calls, in the order of their codes. -/
inductive SysCall where
  | spawn
  | spawnl
  | sleep
  | exit
  | kill
  | read
  | write
  | time
  | getpid
  | getppid
  | getpidlist
  | shmget
  | shmat
  | shmwrite
  | shmread
  | shmdt
  | shmrm
  deriving DecidableEq, Repr

/-- The call that a code is carried out as: a code that is out of range makes the process
exit. -/
def SysCall.ofNum (num : UInt32) : SysCall :=
  match num.toNat with
  | 0 => spawn
  | 1 => spawnl
  | 2 => sleep
  | 3 => exit
  | 4 => kill
  | 5 => read
  | 6 => write
  | 7 => time
  | 8 => getpid
  | 9 => getppid
  | 10 => getpidlist
  | 11 => shmget
  | 12 => shmat
  | 13 => shmwrite
  | 14 => shmread
  | 15 => shmdt
  | 16 => shmrm
  | _ => exit

/-- The jump table `_syscalls`. -/
def sysHandler : SysCall → Res KState
  | .spawn => sysSpawn context args s
  | .spawnl => sysSpawnl context args s
  | .sleep => sysSleep cfg context args s
  | .exit => sysExit context s
  | .kill => sysKill context args s
  | .read => sysRead context s
  | .write => sysWrite args s
  | .time => sysTime cfg context s
  | .getpid => sysGetpid context s
  | .getppid => sysGetppid context s
  | .getpidlist => sysGetpidlist context args s
  | .shmget => sysShmget cfg context args s
  | .shmat => sysShmat context args s
  | .shmwrite => sysShmwrite context args s
  | .shmread => sysShmread context args s
  | .shmdt => sysShmdt context args s
  | .shmrm => sysShmrm context args s

/-- `_isr_syscall`: carry out the call whose code is in the saved EAX of the current
process. -/
def isrSyscall (cfg : Config) (args : Args) (s : KState) : Res KState :=
  match s.procs.current with
  | none => .error (.panic .nullCurrent, s)
  | some current =>
      match (s.procs.pcbs current).context with
      | none => .error (.panic .nullContext, s)
      | some context => sysHandler cfg current args s (SysCall.ofNum context.eax)

end Sp2
