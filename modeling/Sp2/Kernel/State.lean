import Sp2.Kernel.Sio
import Sp2.Kernel.Ramdisk

/-!
The state of the kernel.

* `Config`: what the build decides, the clock rate and the addresses of the tables and
  entry points that the kernel stores or compares.
* `KState`: the variables of all modules.
-/

namespace Sp2

/-- What the build decides: `TIMER_TICKS_PER_SECOND`, which comes from a header outside the
repository, the addresses of `_shms`, `_memory` and `_ramdisk`, and the entry points of the
processes that `_init` makes. -/
structure Config where
  ticksPerSecond : UInt32
  shms : UInt32
  memory : UInt32
  ramdisk : UInt32
  userIdle : UInt32
  userFirst : UInt32
  ataTestProc : UInt32

/-- The address of an element of `_shms`, each of which takes 24 bytes. -/
def Config.shm (cfg : Config) (i : Fin maxShms) : UInt32 :=
  cfg.shms + 24 * UInt32.ofNat i

/-- The variables of `clock.c`. -/
structure Clock where
  systemTime : UInt32
  pinwheel : UInt32
  pindex : UInt32

/-- The state of the kernel. -/
structure KState where
  procs : Procs
  sio : Sio
  clock : Clock
  shm : Shm
  requests : UInt32 → DiskRequest
  mem : Memory

namespace KState

/-- `context->eax = v` in the save area of a process. -/
def setEax (pcb : PcbId) (v : UInt32) (s : KState) : KState :=
  { s with procs := s.procs.setEax pcb v }

/-- A function of the process modules, run on the whole state. -/
def liftProcs (s : KState) (f : Procs → Res Procs) : Res KState :=
  match f s.procs with
  | .ok procs => .ok { s with procs := procs }
  | .error (halt, procs) => .error (halt, { s with procs := procs })

end KState

end Sp2
