import Sp2.Kernel.SharedMem

/-!
The ramdisk as the clock interrupt serves it (`ramdisk.c`, `disk.h`).

* `DiskRequest`: a request record, found at an address.
* `rdRead`, `rdWrite`: the block copy loops between the ramdisk and a buffer.
-/

namespace Sp2

/-- `DISK_BLOCK_SIZE`. -/
abbrev diskBlockSize : ℕ := 512

/-- `DISK_CMD_READ`. -/
def diskCmdRead : UInt8 := 1

/-- `DISK_CMD_WRITE`. -/
def diskCmdWrite : UInt8 := 2

/-- `DISK_STATUS_READ_PENDING`. -/
def diskStatusReadPending : UInt8 := 0x01

/-- `DISK_STATUS_WRITE_PENDING`. -/
def diskStatusWritePending : UInt8 := 0x02

/-- `DISK_STATUS_IO_SUCCESS`. -/
def diskStatusIoSuccess : UInt8 := 0x03

/-- `DISK_STATUS_IO_FINISHED_ERROR`. -/
def diskStatusIoFinishedError : UInt8 := 0x04

/-- `DISK_ERR_INVALID_CMD`. -/
def diskErrInvalidCmd : UInt8 := 0xa0

/-- `DISK_ERR_INVALID_REQ_SIZE`. -/
def diskErrInvalidReqSize : UInt8 := 0xb0

/-- `DISK_ERR_IO_QUEUE_INSERT`. -/
def diskErrIoQueueInsert : UInt8 := 0xc0

/-- `RD_MAX_LBA`. -/
abbrev rdMaxLba : ℕ := 20

/-- The fields of `disk_request_t` that the clock interrupt uses. -/
structure DiskRequest where
  cmd : UInt8
  status : UInt8
  lba : UInt32
  nblocks : UInt32
  buffer : UInt32

/-- A request record cleared by `_memclr`. -/
def DiskRequest.zero : DiskRequest := ⟨0, 0, 0, 0, 0⟩

/-- The loop of `_rd_read` and `_rd_write`: one block from `src + (block - lba)` to
`dst + (block - lba)` while `block` is below the bound. A block number advances by one block
a round and comes back after `2 ^ 23` rounds, before which it has met the bound. -/
def rdLoop (copy : UInt32 → Memory → Memory) (bound : UInt32) :
    ℕ → UInt32 → Memory → Memory
  | 0, _, mem => mem
  | fuel + 1, block, mem =>
      if block < bound then rdLoop copy bound fuel (block + 512) (copy block mem) else mem

/-- The number of rounds after which a block number repeats. -/
def rdFuel : ℕ := 2 ^ 23

/-- `_rd_read`: the blocks from byte `lba` of the ramdisk to the buffer. -/
def rdRead (ramdisk lba nblocks buffer : UInt32) : Memory → Memory :=
  rdLoop (fun block => memcpy (buffer + (block - lba)) (ramdisk + block) diskBlockSize)
    (lba + nblocks * 512) rdFuel lba

/-- `_rd_write`: the blocks of the buffer to the ramdisk, from its byte `lba` on. -/
def rdWrite (ramdisk lba nblocks buffer : UInt32) : Memory → Memory :=
  rdLoop (fun block => memcpy (ramdisk + block) (buffer + (block - lba)) diskBlockSize)
    (lba + nblocks * 512) rdFuel lba

end Sp2
