import Sp2.Kernel.Syscalls

/-!
The clock and serial interrupts (`clock.c`, `sio.c`).

* `wakeLoop`: the loop of `_isr_clock` that wakes sleepers up.
* `blockedLoop`, `serveRamdisk`: the part of `_isr_clock` that serves a ramdisk request.
* `expireQuantum`, `isrClock`: its last part, and the whole of it.
* `rxInterrupt`, `isrSio`: the receiver branch of `_isr_sio`, and its loop over the events
  the device reports.
-/

namespace Sp2

/-! ### The clock -/

/-- The loop of `_isr_clock` that moves every process to its ready queue whose wakeup time
has come. Every round takes an entry out of `_sleeping`, so the fuel bounds their number. -/
def wakeLoop : ℕ → UInt32 → Procs → Res Procs
  | 0, _, s => .error (.hang, s)
  | fuel + 1, systemTime, s =>
      match s.qRemoveIfLe (.pcbs .sleeping) systemTime with
      | (none, s) => .ok s
      | (some pcb, s) => wakeLoop fuel systemTime (s.schedule pcb).2

/-- Enough fuel for `wakeLoop`. -/
def wakeFuel : ℕ := numQnodes + 1

/-- The loop of `_isr_clock` over the processes that wait for a ramdisk request: one that
waits for another request goes back to the end of the queue. Without a process that waits
for `dr` a queue that is not empty is turned round for ever. -/
def blockedLoop : ℕ → UInt32 → Procs → Except (Halt × Procs) (Bool × Procs)
  | 0, _, s => .error (.hang, s)
  | fuel + 1, dr, s =>
      match s.qRemove .blockedRequests with
      | (none, s) => .ok (false, s)
      | (some proc, s) =>
          if (s.pcbs proc).pendingRequest = dr then
            .ok (true, ((s.setPcb proc ({ · with pendingRequest := 0 })).schedule proc).2)
          else blockedLoop fuel dr (s.qInsert .blockedRequests proc).2

/-- The number of rounds after which `blockedLoop` has seen every process. -/
def blockedFuel : ℕ := numQnodes + 1

/-- `ramdisk_service`. -/
def ramdiskService : UInt32 := 4

namespace KState

/-- `dr->status = status`. -/
def setRequestStatus (dr : UInt32) (status : UInt8) (s : KState) : KState :=
  { s with requests := Function.update s.requests dr { s.requests dr with status := status } }

/-- The part of `_isr_clock` that serves the ramdisk request `dr`. -/
def serveRequest (cfg : Config) (dr : UInt32) (s : KState) : Res KState :=
  let r := s.requests dr
  if r.cmd = diskCmdRead then
    let s := { s with mem := rdRead cfg.ramdisk r.lba r.nblocks r.buffer s.mem }
    match blockedLoop blockedFuel dr s.procs with
    | .error (halt, procs) => .error (halt, { s with procs := procs })
    | .ok (found, procs) =>
        let s := { s with procs := procs }
        let s := if found then s.setRequestStatus dr diskStatusIoSuccess else s
        .ok (if (s.requests dr).status ≠ diskStatusIoSuccess then
          s.setRequestStatus dr diskStatusIoFinishedError else s)
  else if r.cmd = diskCmdWrite then
    let s := { s with mem := rdWrite cfg.ramdisk r.lba r.nblocks r.buffer s.mem }
    .ok (s.setRequestStatus dr diskStatusIoSuccess)
  else .ok (s.setRequestStatus dr diskErrInvalidCmd)

/-- The ramdisk part of `_isr_clock`: every fourth tick serves one request. -/
def serveRamdisk (cfg : Config) (s : KState) : Res KState :=
  if s.clock.systemTime % ramdiskService = 0 then
    let r : Option UInt32 × Procs := s.procs.qRemove .ramdiskIoPending
    match r.1 with
    | none => .ok { s with procs := r.2 }
    | some dr => { s with procs := r.2 }.serveRequest cfg dr
  else .ok s

end KState

/-- The last part of `_isr_clock`: count the quantum down, or switch processes. -/
def Procs.expireQuantum (s : Procs) : Res Procs :=
  match s.current with
  | none => .error (.nullPointer, s)
  | some current =>
      if (s.pcbs current).quantum = 0 then (s.schedule current).2.dispatch
      else .ok (s.setPcb current fun p => { p with quantum := p.quantum - 1 })

/-- The first part of `_isr_clock`: the time and the pinwheel. -/
def Clock.tick (c : Clock) : Clock :=
  let c := { c with systemTime := c.systemTime + 1, pinwheel := c.pinwheel + 1 }
  if c.pinwheel = 10 then { c with pinwheel := 0, pindex := c.pindex + 1 } else c

/-- `_isr_clock`. -/
def isrClock (cfg : Config) (s : KState) : Except (Halt × KState) KState := do
  let s := { s with clock := s.clock.tick }
  let s ← s.liftProcs (wakeLoop wakeFuel s.clock.systemTime)
  let s ← s.serveRamdisk cfg
  s.liftProcs Procs.expireQuantum

/-! ### The serial line -/

/-- The receiver branch of `_isr_sio` for the character `ch`: to the first waiting process,
else to the buffer if there is room, else nowhere. -/
def rxInterrupt (ch : UInt8) (s : KState) : Res KState :=
  let ch := if ch = carriageReturn then lineFeed else ch
  if !s.procs.queues.isEmpty (.pcbs .reading) then
    let r : Option PcbId × Procs := s.procs.qRemove (.pcbs .reading)
    match r.1 with
    | none => .error (.panic .serialWakeup, { s with procs := r.2 })
    | some pcb =>
        if (r.2.pcbs pcb).context = none then .error (.nullPointer, { s with procs := r.2 })
        else .ok { s with procs := ((r.2.setEax pcb ch.toUInt32).schedule pcb).2 }
  else if s.sio.inbuffer.count < UInt32.ofNat bufSize then
    .ok { s with sio := { s.sio with inbuffer := s.sio.inbuffer.put ch } }
  else .ok s

/-- `_isr_sio` over what the device reports round by round, the event register and the
receiver register; at the end of the list no event is pending. -/
def isrSio : List (UInt8 × UInt8) → KState → Res KState
  | [], s => .ok s
  | (eir, rxd) :: polls, s =>
      let eir := eir &&& 0x0f
      if eir = 0x02 then isrSio polls { s with sio := s.sio.txInterrupt }
      else if eir = 0x04 then
        match rxInterrupt rxd s with
        | .ok s => isrSio polls s
        | .error e => .error e
      else if eir = 0x01 then .ok s
      else .error (.panic .deviceStatus, s)

end Sp2
