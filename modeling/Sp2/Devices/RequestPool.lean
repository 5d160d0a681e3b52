import Sp2.Devices.Ata

/-!
The pool of disk requests (`disk.c`) with several processes in it.

* `RequestPool`: `_pending_requests` with their links, `_free_disk_requests`, and where each process
  is in `_disk_alloc_request` or `_disk_dealloc_request`.
* `RequestPool.access`: one access of a process to memory. Interrupts are on, so the other processes
  may come in between any two.
* `requestPoolStep`: one step of the system.
* `diskDeallocRequest`, `diskInitRequests`: the part of `_disk_init` about the pool, which runs with
  interrupts off.
-/

namespace Sp2

/-! ### The pool -/

/-- The fields that `_disk_alloc_request` clears. -/
inductive RequestField
  | cmd | status | lba | nblocks | buffer
  deriving DecidableEq

/-- The fields in the order in which they are cleared. -/
def requestFields : List RequestField := [.cmd, .status, .lba, .nblocks, .buffer]

/-- Clear one field. -/
def RequestField.clear (dr : DiskRequest) : RequestField → DiskRequest
  | .cmd => { dr with cmd := 0 }
  | .status => { dr with status := 0 }
  | .lba => { dr with lba := 0 }
  | .nblocks => { dr with nblocks := 0 }
  | .buffer => { dr with buffer := 0 }

/-- The next access of a process to memory, with the values that it has read before. -/
inductive RequestPoint
  | outside
  /-- `_disk_alloc_request`: `dr = _free_disk_requests`. -/
  | readFree
  /-- The right hand side of `_free_disk_requests = dr->next`. -/
  | readNext (dr : RequestId)
  | pop (dr : RequestId) (next : Option RequestId)
  /-- The fields that are still to be cleared, before the link. -/
  | clear (dr : RequestId) (fields : List RequestField)
  /-- The request has been returned. -/
  | holds (dr : RequestId)
  /-- `_disk_dealloc_request`: the right hand side of `dr->next = _free_disk_requests`. -/
  | readHead (dr : RequestId)
  | link (dr : RequestId) (head : Option RequestId)
  /-- `_free_disk_requests = dr`. -/
  | push (dr : RequestId)
  deriving DecidableEq

/-- `_pending_requests`, `_free_disk_requests` and the processes. -/
structure RequestPool where
  requests : RequestId → DiskRequest
  next : RequestId → Option RequestId
  freeDiskRequests : Option RequestId
  points : PcbId → RequestPoint

namespace RequestPool

/-- A process is at another point. -/
def goto (p : PcbId) (point : RequestPoint) (s : RequestPool) : RequestPool :=
  { s with points := Function.update s.points p point }

/-- One access of a process. A null pointer is returned where there is no free request. -/
def access (p : PcbId) (s : RequestPool) : RequestPool :=
  match s.points p with
  | .outside | .holds _ => s
  | .readFree =>
      match s.freeDiskRequests with
      | some dr => s.goto p (.readNext dr)
      | none => s.goto p .outside
  | .readNext dr => s.goto p (.pop dr (s.next dr))
  | .pop dr next => { s with freeDiskRequests := next }.goto p (.clear dr requestFields)
  | .clear dr (field :: fields) =>
      { s with requests := Function.update s.requests dr (field.clear (s.requests dr)) }.goto p
        (.clear dr fields)
  | .clear dr [] => { s with next := Function.update s.next dr none }.goto p (.holds dr)
  | .readHead dr => s.goto p (.link dr s.freeDiskRequests)
  | .link dr head => { s with next := Function.update s.next dr head }.goto p (.push dr)
  | .push dr => { s with freeDiskRequests := some dr }.goto p .outside

end RequestPool

/-! ### The system -/

/-- What happens next: a process calls `_disk_alloc_request`, writes its request, calls
`_disk_dealloc_request`, or makes its next access. -/
inductive RequestEvent
  | alloc (p : PcbId)
  | write (p : PcbId) (dr : RequestId) (r : DiskRequest)
  | dealloc (p : PcbId) (dr : RequestId)
  | run (p : PcbId)

/-- The process that an event is of. -/
def RequestEvent.process : RequestEvent → PcbId
  | .alloc p | .write p _ _ | .dealloc p _ | .run p => p

/-- What an event does. -/
def RequestPool.after (s : RequestPool) : RequestEvent → RequestPool
  | .alloc p => s.goto p .readFree
  | .write _ dr r => { s with requests := Function.update s.requests dr r }
  | .dealloc p dr => s.goto p (.readHead dr)
  | .run p => s.access p

/-- A process has one request at a time, as in the functions of the driver. -/
def RequestAllowed (s : RequestPool) : RequestEvent → Prop
  | .alloc p => s.points p = .outside
  | .write p dr _ => s.points p = .holds dr
  | .dealloc p dr => s.points p = .holds dr
  | .run _ => True

instance (s : RequestPool) : (e : RequestEvent) → Decidable (RequestAllowed s e)
  | .alloc p => inferInstanceAs (Decidable (s.points p = .outside))
  | .write p dr _ => inferInstanceAs (Decidable (s.points p = .holds dr))
  | .dealloc p dr => inferInstanceAs (Decidable (s.points p = .holds dr))
  | .run _ => inferInstanceAs (Decidable True)

/-- A step of the processes: it never stops. -/
def requestPoolStep (s : RequestPool) (e : RequestEvent) : Except Empty RequestPool :=
  .ok (s.after e)

/-! ### The start -/

/-- `_disk_dealloc_request`, for a request that is not null, from beginning to end. -/
def diskDeallocRequest (dr : RequestId) (s : RequestPool) : RequestPool :=
  { s with next := Function.update s.next dr s.freeDiskRequests, freeDiskRequests := some dr }

/-- The part of `_disk_init` about the requests: the records are cleared and put into the free list
one by one. -/
def diskInitRequests : RequestPool :=
  (List.finRange 256).foldl (fun s dr => diskDeallocRequest dr s)
    ⟨fun _ => .zero, fun _ => none, none, fun _ => .outside⟩

end Sp2
