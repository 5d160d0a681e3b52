import Sp2.Kernel.Ramdisk
import Sp2.Lib.Sections

/-!
The disk driver (`ata.c`, `disk.c`) with several processes in it, its interrupt service routine
and the drive.

* `Drive`: the drive, which serves one command at a time. `Drive.settle` is its own step.
* `AtaState`: the request records, `_ata_io_pending`, the globals of the driver, and the point at
  which each process is.
* `runStep`: one statement of a process. `ataIsr`: `_ata_isr`, which runs with interrupts off.
* `ataStep`: one step of the system. Processes, interrupts and the drive may come in any order.
* `ataSections`: the steps that stand for several accesses to memory.

A process calls `_ata_request` once for each block of a transfer. The contents of memory and disk
are left out: a word that goes over the data port is its address in memory.
-/

namespace Sp2

/-! ### Constants -/

/-- `ATA_STATUS_BSY`, also `ATA_CMD_BR_R_STS_BUSY`. -/
def ataStatusBsy : UInt8 := 0x80

/-- `ATA_STATUS_DRDY`, also `ATA_CMD_BR_R_STS_DRDY`. -/
def ataStatusDrdy : UInt8 := 0x40

/-- `ATA_STATUS_DRQ`. -/
def ataStatusDrq : UInt8 := 0x08

/-- The number of words of a block. -/
abbrev blockWords : ℕ := diskBlockSize / 2

/-! ### The drive -/

/-- `ATA7_READ_SECTORS`, `ATA7_WRITE_SECTORS` and `ATA7_FLUSH_CACHE`. -/
inductive AtaOp
  | readSectors
  | writeSectors
  | flushCache
  deriving DecidableEq

/-- The registers that a block is addressed with. -/
inductive AtaReg
  | driveSelect
  | cylLow
  | cylMid
  | cylHigh
  | secCount
  deriving DecidableEq

/-- A command the drive has taken, and the block it is for. -/
structure AtaCommand where
  op : AtaOp
  block : UInt32
  deriving DecidableEq

/-- The drive: its registers, its last command, and the words it has exchanged for it. -/
structure Drive where
  regs : AtaReg → UInt8
  nien : Bool
  status : UInt8
  command : Option AtaCommand
  words : List UInt32

namespace Drive

/-- `BSY` is set. -/
def Busy (d : Drive) : Prop := d.status &&& ataStatusBsy ≠ 0

instance (d : Drive) : Decidable d.Busy := inferInstanceAs (Decidable (_ ≠ _))

/-- `DRQ` is set. -/
def Requests (d : Drive) : Prop := d.status &&& ataStatusDrq ≠ 0

instance (d : Drive) : Decidable d.Requests := inferInstanceAs (Decidable (_ ≠ _))

/-- Write a register. -/
def out (r : AtaReg) (v : UInt8) (d : Drive) : Drive :=
  { d with regs := Function.update d.regs r v }

/-- The block the registers address, with 28 bits. -/
def block (d : Drive) : UInt32 :=
  (d.regs .cylLow).toUInt32 ||| (d.regs .cylMid).toUInt32 <<< 8
    ||| (d.regs .cylHigh).toUInt32 <<< 16 ||| ((d.regs .driveSelect).toUInt32 &&& 0x0f) <<< 24

/-- Write the command register. A drive that is busy takes no command. -/
def take (op : AtaOp) (d : Drive) : Drive :=
  if d.Busy then d
  else { d with command := some ⟨op, d.block⟩, words := [], status := ataStatusBsy }

/-- A busy drive gets ready, and requests the words of a block that has not been exchanged. -/
def settle (d : Drive) : Drive :=
  if d.Busy then
    if d.words = [] ∧ d.command.any (·.op ≠ .flushCache) then
      { d with status := ataStatusDrdy ||| ataStatusDrq }
    else { d with status := ataStatusDrdy }
  else d

/-- A word on the data port, from or to an address. Only a word that the drive has requested is
exchanged; with the last one of a block the drive has read it, or sets about writing it. -/
def word (op : AtaOp) (a : UInt32) (d : Drive) : Drive :=
  if d.Requests ∧ d.command.any (·.op = op) then
    let words := d.words ++ [a]
    if words.length < blockWords then { d with words := words }
    else
      { d with
        words := words
        status := if op = .readSectors then ataStatusDrdy else ataStatusBsy }
  else d

end Drive

/-- The address of a word of a buffer. -/
def wordAddr (buffer : UInt32) (i : ℕ) : UInt32 := buffer + UInt32.ofNat (2 * i)

/-! ### The driver -/

/-- A pointer to an element of `_pending_requests`. -/
abbrev RequestId := Fin 256

/-- `_ata_transfer`. -/
structure AtaTransfer where
  request : Option RequestId
  currentBlockAddr : UInt32
  blocksRemaining : UInt32

/-- What a process wants from the driver: so many requests of `nblocks` blocks each, with
consecutive addresses and buffers. -/
structure AtaJob where
  cmd : UInt8
  lba : UInt32
  nblocks : UInt32
  count : UInt32
  buffer : UInt32

/-- `_ata_read_data`. -/
def ataReadData (lba blocks buffer : UInt32) : AtaJob := ⟨diskCmdRead, lba, 1, blocks, buffer⟩

/-- `_ata_write_data`. -/
def ataWriteData (lba blocks buffer : UInt32) : AtaJob := ⟨diskCmdWrite, lba, 1, blocks, buffer⟩

/-- The next statement of a process in the driver. -/
inductive AtaPoint
  /-- The test of the loop over the blocks, and the members of the request. -/
  | prepare
  /-- `_ata_request`: the status, and the insertion into `_ata_io_pending`. -/
  | insert
  /-- `nIEN` is cleared. -/
  | enable
  /-- `_ata_do_pio_data`: waiting for the drive. -/
  | ready
  /-- The registers that are still to be written, before the command register. -/
  | outs (l : List (AtaReg × UInt8))
  | transferRequest
  | transferBlock
  | transferCount
  | setRequest
  | setTransfer
  /-- `_ata_request` again: the status is read. -/
  | status
  /-- `sleep(2)`, with the status that was read before. -/
  | delay (altStatus : UInt8)
  | poll (altStatus : UInt8)
  | drq (altStatus : UInt8)
  /-- The buffer of the pending transfer. -/
  | buffer
  /-- `_ata_write_block`: so many words have been written. -/
  | words (buffer : UInt32) (k : ℕ)
  | decrement
  | remaining
  | nextBlock
  | clearTransfer
  /-- `_ata_request` again: is the transfer complete? -/
  | complete
  | success
  | clearRequest
  /-- Waiting for the status. -/
  | wait
  | flush
  /-- The return from `_ata_request`. -/
  | done
  deriving DecidableEq

/-- A process in the driver: its job, the number of the block, its request and where it is. -/
structure AtaCall where
  job : AtaJob
  i : UInt32
  request : RequestId
  point : AtaPoint

/-- The state of the system. -/
structure AtaState where
  /-- `_pending_requests`. -/
  requests : RequestId → DiskRequest
  /-- `_free_disk_requests`. -/
  freeRequests : List RequestId
  /-- `_ata_io_pending`. -/
  ioPending : List RequestId
  /-- `_current_pending_request`. -/
  pendingRequest : Option RequestId
  /-- `_current_pending_transfer`: is it `&_ata_transfer`, or null? -/
  pendingTransfer : Bool
  /-- `_ata_transfer`. -/
  transfer : AtaTransfer
  drive : Drive
  calls : PcbId → Option AtaCall

/-- Why a step is not taken. -/
inductive AtaStop
  /-- `_current_pending_transfer` is dereferenced while it is null. -/
  | nullTransfer
  /-- So is the request of the transfer. -/
  | nullRequest
  /-- The step is none of the process. -/
  | disabled
  deriving DecidableEq

namespace AtaState

/-- Change a request record. -/
def setReq (r : RequestId) (f : DiskRequest → DiskRequest) (s : AtaState) : AtaState :=
  { s with requests := Function.update s.requests r (f (s.requests r)) }

/-- `_current_pending_request->status = status`, which does nothing to the records when the
pointer is null. -/
def setPendingStatus (status : UInt8) (s : AtaState) : AtaState :=
  match s.pendingRequest with
  | some r => s.setReq r ({ · with status := status })
  | none => s

section Fields

variable {s : AtaState} {r : RequestId} {f : DiskRequest → DiskRequest} {status : UInt8}

@[simp] lemma setReq_calls : (s.setReq r f).calls = s.calls := rfl

@[simp] lemma setReq_freeRequests : (s.setReq r f).freeRequests = s.freeRequests := rfl

@[simp] lemma setReq_ioPending : (s.setReq r f).ioPending = s.ioPending := rfl

@[simp] lemma setReq_pendingRequest : (s.setReq r f).pendingRequest = s.pendingRequest := rfl

@[simp] lemma setReq_pendingTransfer : (s.setReq r f).pendingTransfer = s.pendingTransfer := rfl

@[simp] lemma setReq_transfer : (s.setReq r f).transfer = s.transfer := rfl

@[simp] lemma setReq_drive : (s.setReq r f).drive = s.drive := rfl

/-- Only the request records change. -/
lemma exists_setPendingStatus (s : AtaState) (status : UInt8) :
    ∃ requests, s.setPendingStatus status = { s with requests := requests } := by
  unfold setPendingStatus
  split
  · exact ⟨_, rfl⟩
  · exact ⟨s.requests, rfl⟩

@[simp] lemma setPendingStatus_calls : (s.setPendingStatus status).calls = s.calls := by
  obtain ⟨f, h⟩ := exists_setPendingStatus s status
  rw [h]

@[simp] lemma setPendingStatus_pendingTransfer :
    (s.setPendingStatus status).pendingTransfer = s.pendingTransfer := by
  obtain ⟨f, h⟩ := exists_setPendingStatus s status
  rw [h]

@[simp] lemma setPendingStatus_drive : (s.setPendingStatus status).drive = s.drive := by
  obtain ⟨f, h⟩ := exists_setPendingStatus s status
  rw [h]

end Fields

/-- Go on at another point. -/
def goto (p : PcbId) (c : AtaCall) (point : AtaPoint) (s : AtaState) : AtaState :=
  { s with calls := Function.update s.calls p (some { c with point := point }) }

/-- `_current_pending_transfer->request`. -/
def transferRequest (s : AtaState) : Except AtaStop RequestId :=
  if s.pendingTransfer then
    match s.transfer.request with
    | some r => .ok r
    | none => .error .nullRequest
  else .error .nullTransfer

end AtaState

open AtaState

/-- What comes after a computation ran if that did not stop. -/
lemma exists_of_bind_ok {α β : Type} {x : Except AtaStop α} {f : α → Except AtaStop β} {b : β}
    (h : x >>= f = .ok b) : ∃ a, x = .ok a ∧ f a = .ok b := by
  cases x with
  | error e => cases h
  | ok a => exact ⟨a, rfl, h⟩

/-! ### `_ata_request` -/

/-- The registers that `_ata_do_pio_data` writes. The cast in `(uint8_t) dr->lba >> 8` comes
before the shift. -/
def ataOuts (lba : UInt32) : List (AtaReg × UInt8) :=
  [(.driveSelect, (0x50 : UInt8) ||| ((lba >>> 24) &&& 0x0f).toUInt8), (.cylLow, lba.toUInt8),
    (.cylMid, (lba.toUInt8.toUInt32 >>> 8).toUInt8),
    (.cylHigh, (lba.toUInt8.toUInt32 >>> 16).toUInt8), (.secCount, 1)]

/-- One statement of a process. `node` is whether `_q_insert` finds a free node. -/
def runStep (p : PcbId) (node : Bool) (c : AtaCall) (s : AtaState) : Except AtaStop AtaState :=
  let r := c.request
  let dr := s.requests r
  match c.point with
  | .prepare =>
      if c.i < c.job.count then
        .ok ((s.setReq r fun dr =>
          { dr with
            cmd := c.job.cmd
            lba := c.job.lba + c.i
            nblocks := c.job.nblocks
            buffer := c.job.buffer + UInt32.ofNat diskBlockSize * c.i }).goto p c .insert)
      else
        .ok { s with
              freeRequests := r :: s.freeRequests
              calls := Function.update s.calls p none }
  | .insert =>
      if dr.cmd = diskCmdRead ∨ dr.cmd = diskCmdWrite then
        let pending := if dr.cmd = diskCmdRead then diskStatusReadPending
          else diskStatusWritePending
        if node then
          .ok ((({ s with ioPending := s.ioPending ++ [r] }).setReq r
            ({ · with status := pending })).goto p c .enable)
        else .ok ((s.setReq r ({ · with status := diskErrIoQueueInsert })).goto p c .enable)
      else .ok ((s.setReq r ({ · with status := diskErrInvalidCmd })).goto p c .done)
  | .enable => .ok (({ s with drive := { s.drive with nien := false } }).goto p c .ready)
  | .ready =>
      if s.drive.Busy ∨ s.drive.status &&& ataStatusDrdy = 0 then .ok s
      else .ok (s.goto p c (.outs (ataOuts dr.lba)))
  | .outs ((reg, v) :: l) => .ok (({ s with drive := s.drive.out reg v }).goto p c (.outs l))
  | .outs [] =>
      let op := if dr.cmd = diskCmdRead then AtaOp.readSectors else .writeSectors
      .ok (({ s with drive := s.drive.take op }).goto p c .transferRequest)
  | .transferRequest =>
      .ok (({ s with transfer := { s.transfer with request := some r } }).goto p c .transferBlock)
  | .transferBlock =>
      .ok (({ s with transfer := { s.transfer with currentBlockAddr := dr.lba } }).goto p c
        .transferCount)
  | .transferCount =>
      .ok (({ s with transfer := { s.transfer with blocksRemaining := dr.nblocks } }).goto p c
        .setRequest)
  | .setRequest => .ok (({ s with pendingRequest := some r }).goto p c .setTransfer)
  | .setTransfer => .ok (({ s with pendingTransfer := true }).goto p c .status)
  | .status =>
      if dr.cmd = diskCmdWrite then .ok (s.goto p c (.delay s.drive.status))
      else .ok (s.goto p c .wait)
  | .delay altStatus => .ok (s.goto p c (.poll altStatus))
  | .poll altStatus =>
      if altStatus &&& ataStatusBsy ≠ 0 then .ok (s.goto p c (.poll s.drive.status))
      else .ok (s.goto p c (.drq altStatus))
  | .drq altStatus =>
      if altStatus &&& ataStatusDrq ≠ 0 then .ok (s.goto p c .buffer) else .ok (s.goto p c .wait)
  | .buffer => do
      let t ← s.transferRequest
      .ok (s.goto p c (.words (s.requests t).buffer 0))
  | .words buffer k =>
      if k < blockWords then
        .ok (({ s with drive := s.drive.word .writeSectors (wordAddr buffer k) }).goto p c
          (.words buffer (k + 1)))
      else .ok (s.goto p c .decrement)
  | .decrement =>
      if s.pendingTransfer then
        .ok (({ s with
          transfer := { s.transfer with
            blocksRemaining := s.transfer.blocksRemaining - 1 } }).goto p c .remaining)
      else .error .nullTransfer
  | .remaining =>
      if s.pendingTransfer then
        if s.transfer.blocksRemaining ≠ 0 then .ok (s.goto p c .nextBlock)
        else .ok (s.goto p c .clearTransfer)
      else .error .nullTransfer
  | .nextBlock =>
      if s.pendingTransfer then
        .ok (({ s with
          transfer := { s.transfer with
            currentBlockAddr := s.transfer.currentBlockAddr + 1 } }).goto p c .complete)
      else .error .nullTransfer
  | .clearTransfer => .ok (({ s with pendingTransfer := false }).goto p c .complete)
  | .complete => if s.pendingTransfer then .ok (s.goto p c .wait) else .ok (s.goto p c .success)
  | .success => .ok ((s.setPendingStatus diskStatusIoSuccess).goto p c .clearRequest)
  | .clearRequest => .ok (({ s with pendingRequest := none }).goto p c .wait)
  | .wait =>
      if dr.status = diskStatusIoSuccess then
        if dr.cmd = diskCmdWrite then .ok (s.goto p c .flush) else .ok (s.goto p c .done)
      else .ok s
  | .flush =>
      -- With interrupts off, until the drive is ready again.
      let drive := if s.drive.status &&& ataStatusDrdy ≠ 0 then s.drive.take .flushCache
        else s.drive
      .ok (({ s with drive := drive.settle }).goto p c .done)
  | .done => .ok (s.goto p { c with i := c.i + 1 } .prepare)

/-! ### `_ata_isr` -/

/-- `_ata_read_block` and `_ata_write_block` with interrupts off, for the buffer of the pending
transfer. -/
def isrBlock (op : AtaOp) (s : AtaState) : Except AtaStop AtaState := do
  let t ← s.transferRequest
  let drive := (List.range blockWords).foldl
    (fun d i => d.word op (wordAddr (s.requests t).buffer i)) s.drive
  let left := s.transfer.blocksRemaining - 1
  if left ≠ 0 then
    .ok { s with
          drive := drive
          transfer := { s.transfer with
            blocksRemaining := left
            currentBlockAddr := s.transfer.currentBlockAddr + 1 } }
  else
    .ok { s with
          drive := drive
          transfer := { s.transfer with blocksRemaining := left }
          pendingTransfer := false }

/-- A block for the pending request, with the status of a transfer that is complete. -/
def isrTransfer (op : AtaOp) (s : AtaState) : Except AtaStop AtaState := do
  let s ← isrBlock op s
  .ok (if s.pendingTransfer then s else s.setPendingStatus diskStatusIoSuccess)

/-- `_ata_isr` while no request is pending: wait for the drive, and drop an entry of the queue. -/
def isrIdle (s : AtaState) : AtaState :=
  let s := { s with drive := { s.drive.settle with nien := false } }
  if s.drive.status &&& ataStatusDrdy ≠ 0 then
    match s.ioPending with
    | [] => { s with drive := { s.drive with nien := true } }
    | _ :: rest => { s with ioPending := rest }
  else s

/-- `_ata_isr` for a pending request, up to the test whether it is complete. -/
def isrPending (r : RequestId) (s : AtaState) : Except AtaStop AtaState :=
  if (s.requests r).cmd = diskCmdWrite ∧ s.pendingTransfer = false then
    .ok { s.setPendingStatus diskStatusIoSuccess with pendingRequest := none }
  else if s.drive.Requests then
    if (s.requests r).cmd = diskCmdRead then isrTransfer .readSectors s
    else if (s.requests r).cmd = diskCmdWrite then isrTransfer .writeSectors s
    else .ok s
  else .ok s

/-- `_ata_isr`. -/
def ataIsr (s : AtaState) : Except AtaStop AtaState :=
  match s.pendingRequest with
  | none => .ok (isrIdle s)
  | some r => do
      let s ← isrPending r s
      .ok (if s.pendingTransfer then s else { s with pendingRequest := none })

/-! ### The system -/

/-- What may happen. -/
inductive AtaEvent
  /-- A process that is not in the driver calls one of its functions. -/
  | start (p : PcbId) (job : AtaJob)
  /-- A process executes its next statement. -/
  | run (p : PcbId) (node : Bool)
  /-- The drive interrupts. -/
  | interrupt
  /-- The drive gets ready. -/
  | settle

/-- One step of the system. Without a free request there is a null pointer, which
`_ata_request` refuses. A call of `_disk_alloc_request`, `_disk_dealloc_request` or `_q_insert`
is one step: what it does if nothing comes in between. -/
def ataStep (s : AtaState) : AtaEvent → Except AtaStop AtaState
  | .start p job =>
      match s.calls p, s.freeRequests with
      | some _, _ => .error .disabled
      | none, [] => .ok s
      | none, r :: rest =>
          .ok { s.setReq r (fun _ => .zero) with
                freeRequests := rest
                calls := Function.update s.calls p (some ⟨job, 0, r, .prepare⟩) }
  | .run p node =>
      match s.calls p with
      | some c => runStep p node c s
      | none => .error .disabled
  | .interrupt => ataIsr s
  | .settle => .ok { s with drive := s.drive.settle }

/-- The process is about to insert its request, or to give it back after the last block. -/
def AtaCall.InSection (c : AtaCall) : Prop :=
  c.point = .insert ∨ c.point = .prepare ∧ ¬ c.i < c.job.count

instance (c : AtaCall) : Decidable c.InSection := inferInstanceAs (Decidable (_ ∨ _))

/-- The steps that are sections of several accesses: `_disk_alloc_request`, the insertion into
`_ata_io_pending` and `_disk_dealloc_request`, with the interrupts on. They do not look at the
drive. -/
def ataSections : Transition.Sections AtaState AtaEvent PcbId where
  process s
    | .start p _ => some p
    | .run p _ => (s.calls p).bind fun c => if c.InSection then some p else none
    | .interrupt | .settle => none
  harmless
    | .settle => true
    | .start _ _ | .run _ _ | .interrupt => false

/-- The driver with the processes that are in a section, and what may happen then. -/
abbrev AtaSystem := Transition.Sectioned AtaState PcbId

abbrev AtaSystemEvent := Transition.SectionEvent AtaEvent PcbId

/-- One step of the system, sections being entered before they are carried out. -/
abbrev ataSystemStep : AtaSystem → AtaSystemEvent → Except AtaStop AtaSystem :=
  Transition.sectionedStep ataStep ataSections

/-- The state after `_disk_init`: no process is in the driver, and no request is pending. -/
structure AtaInitial (s : AtaState) : Prop where
  calls : ∀ p, s.calls p = none
  free : s.freeRequests.Nodup
  pending : s.ioPending = []
  request : s.pendingRequest = none
  transfer : s.pendingTransfer = false

end Sp2
