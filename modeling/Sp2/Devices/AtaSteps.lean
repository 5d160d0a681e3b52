import Sp2.Devices.Ata

/-!
What the steps of the disk driver do to the requests it hands out.

* `PoolMove`, `runStep_move`: what a statement of a process does to the queue, the free list and
  the point of the process, one case for each kind of point.
* `ataIsr_frame`: what an interrupt does to them.
* `BlockDone`, `ataIsr_eq`: what an interrupt does for the pending request.
* `CallsSound`, `CallsSound.step`: each call has a request of its own, in every run.
-/

namespace Sp2

open AtaState

/-- The command of a request is one that `_ata_request` knows. -/
def DiskRequest.Known (dr : DiskRequest) : Prop := dr.cmd = diskCmdRead ∨ dr.cmd = diskCmdWrite

instance (dr : DiskRequest) : Decidable dr.Known := inferInstanceAs (Decidable (_ ∨ _))

/-- The command that the driver gives for a request. -/
def DiskRequest.op (dr : DiskRequest) : AtaOp :=
  if dr.cmd = diskCmdRead then .readSectors else .writeSectors

/-- An interrupt finds no request pending and the drive ready. -/
def AtaState.Idle (s : AtaState) : Prop :=
  s.pendingRequest = none ∧ s.drive.settle.status &&& ataStatusDrdy ≠ 0

instance (s : AtaState) : Decidable s.Idle := inferInstanceAs (Decidable (_ ∧ _))

@[simp] lemma goto_calls (s : AtaState) (p : PcbId) (c : AtaCall) (point : AtaPoint) :
    (s.goto p c point).calls p = some { c with point := point } := Function.update_self ..

section Goto

variable {s : AtaState} {p : PcbId} {c : AtaCall} {point : AtaPoint}

@[simp] lemma goto_requests : (s.goto p c point).requests = s.requests := rfl

@[simp] lemma goto_pendingRequest : (s.goto p c point).pendingRequest = s.pendingRequest := rfl

@[simp] lemma goto_pendingTransfer : (s.goto p c point).pendingTransfer = s.pendingTransfer := rfl

@[simp] lemma goto_transfer : (s.goto p c point).transfer = s.transfer := rfl

@[simp] lemma goto_drive : (s.goto p c point).drive = s.drive := rfl

/-- A process takes its statements one by one. -/
lemma run_succ {n : ℕ} {s' : AtaState} (hc : s.calls p = some c) :
    Transition.Run ataStep (fun _ _ => True) s (List.replicate (n + 1) (.run p true)) s' ↔
      ∃ t, runStep p true c s = .ok t
        ∧ Transition.Run ataStep (fun _ _ => True) t (List.replicate n (.run p true)) s' := by
  rw [List.replicate_succ, Transition.run_cons]
  simp [ataStep, hc]

end Goto

lemma goto_goto (s : AtaState) (p : PcbId) (c : AtaCall) (point point' : AtaPoint) :
    (s.goto p c point).goto p { c with point := point } point' = s.goto p c point' := by
  simp [goto]

/-! ### What a statement does to the pools -/

/-- The request of a process at such a point may be in the queue. -/
def AtaPoint.Queued (point : AtaPoint) : Prop := point ≠ .prepare ∧ point ≠ .insert

/-- What a statement does to the queue, the free list and the point of the process. -/
inductive PoolMove (p : PcbId) (node : Bool) (c : AtaCall) (s s' : AtaState) : Prop
  /-- The call of `_ata_request` for a block. -/
  | call (at_point : c.point = .prepare)
      (calls : s'.calls = Function.update s.calls p (some { c with point := .insert }))
      (free : s'.freeRequests = s.freeRequests) (pending : s'.ioPending = s.ioPending)
  /-- `_disk_dealloc_request` after the last block. -/
  | dealloc (at_point : c.point = .prepare) (calls : s'.calls = Function.update s.calls p none)
      (free : s'.freeRequests = c.request :: s.freeRequests)
      (pending : s'.ioPending = s.ioPending)
  | enqueue (at_point : c.point = .insert) (room : node = true)
      (known : (s.requests c.request).Known)
      (calls : s'.calls = Function.update s.calls p (some { c with point := .enable }))
      (free : s'.freeRequests = s.freeRequests)
      (pending : s'.ioPending = s.ioPending ++ [c.request])
  /-- The insertion fails, or the request is not for the driver. -/
  | refuse (at_point : c.point = .insert)
      (refused : ¬ (node = true ∧ (s.requests c.request).Known)) {point : AtaPoint}
      (queued : point.Queued)
      (calls : s'.calls = Function.update s.calls p (some { c with point := point }))
      (free : s'.freeRequests = s.freeRequests) (pending : s'.ioPending = s.ioPending)
  | inside (at_point : c.point.Queued) {point : AtaPoint} (queued : point.Queued)
      (calls : s'.calls = Function.update s.calls p (some { c with point := point }))
      (free : s'.freeRequests = s.freeRequests) (pending : s'.ioPending = s.ioPending)
  | finish (at_point : c.point = .done)
      (calls : s'.calls
        = Function.update s.calls p (some { c with i := c.i + 1, point := .prepare }))
      (free : s'.freeRequests = s.freeRequests) (pending : s'.ioPending = s.ioPending)

section Moves

variable {p : PcbId} {node : Bool} {c : AtaCall} {s s' t : AtaState} {point : AtaPoint}

/-- A statement inside of `_ata_request` that leaves the queue and the free list alone. -/
lemma PoolMove.goto (hq : c.point.Queued) (hpoint : point.Queued) (hcalls : t.calls = s.calls)
    (hfree : t.freeRequests = s.freeRequests) (hpending : t.ioPending = s.ioPending) :
    PoolMove p node c s (t.goto p c point) :=
  .inside hq hpoint (by rw [AtaState.goto, hcalls]) hfree hpending

/-- So is one that waits. -/
lemma PoolMove.stay (hc : s.calls p = some c) (hq : c.point.Queued) : PoolMove p node c s s :=
  .inside hq hq (Function.update_eq_self_iff.mpr hc.symm).symm rfl rfl

/-- What the statements do between the insertion and the return, one case for each point. -/
lemma runStep_inside (hc : s.calls p = some c) (hq : c.point.Queued) (hdone : c.point ≠ .done)
    (h : runStep p node c s = .ok s') : PoolMove p node c s s' := by
  rw [runStep] at h
  cases hpoint : c.point with
  | prepare => exact absurd hpoint hq.1
  | insert => exact absurd hpoint hq.2
  | done => exact absurd hpoint hdone
  | success =>
      simp only [hpoint] at h
      obtain ⟨f, hf⟩ := exists_setPendingStatus s diskStatusIoSuccess
      obtain rfl := Except.ok.inj h
      rw [hf]
      exact .goto hq (by simp [AtaPoint.Queued]) rfl rfl rfl
  | buffer =>
      simp only [hpoint] at h
      cases ht : s.transferRequest with
      | error e =>
          rw [ht] at h
          cases h
      | ok r =>
          rw [ht] at h
          obtain rfl := Except.ok.inj h
          exact .goto hq (by simp [AtaPoint.Queued]) rfl rfl rfl
  | ready =>
      simp only [hpoint] at h
      split_ifs at h <;> obtain rfl := Except.ok.inj h
      · exact .stay hc hq
      · exact .goto hq (by simp [AtaPoint.Queued]) rfl rfl rfl
  | wait =>
      simp only [hpoint] at h
      split_ifs at h <;> obtain rfl := Except.ok.inj h
      · exact .goto hq (by simp [AtaPoint.Queued]) rfl rfl rfl
      · exact .goto hq (by simp [AtaPoint.Queued]) rfl rfl rfl
      · exact .stay hc hq
  | outs l =>
      cases l with
      | nil =>
          simp only [hpoint] at h
          obtain rfl := Except.ok.inj h
          exact .goto hq (by simp [AtaPoint.Queued]) rfl rfl rfl
      | cons r l =>
          simp only [hpoint] at h
          obtain rfl := Except.ok.inj h
          exact .goto hq (by simp [AtaPoint.Queued]) rfl rfl rfl
  | decrement | nextBlock =>
      simp only [hpoint] at h
      split_ifs at h
      obtain rfl := Except.ok.inj h
      exact .goto hq (by simp [AtaPoint.Queued]) rfl rfl rfl
  | remaining =>
      simp only [hpoint] at h
      split_ifs at h <;> obtain rfl := Except.ok.inj h <;>
        exact .goto hq (by simp [AtaPoint.Queued]) rfl rfl rfl
  | status | poll a | drq a | words b k | complete =>
      simp only [hpoint] at h
      split_ifs at h <;> obtain rfl := Except.ok.inj h <;>
        exact .goto hq (by simp [AtaPoint.Queued]) rfl rfl rfl
  | enable | transferRequest | transferBlock | transferCount | setRequest | setTransfer | delay a
  | clearTransfer | clearRequest | flush =>
      simp only [hpoint] at h
      obtain rfl := Except.ok.inj h
      exact .goto hq (by simp [AtaPoint.Queued]) rfl rfl rfl

/-- **What a statement of a process does** to the queue and the free list. -/
lemma runStep_move (hc : s.calls p = some c) (h : runStep p node c s = .ok s') :
    PoolMove p node c s s' := by
  by_cases hprepare : c.point = .prepare
  · simp only [runStep, hprepare] at h
    split_ifs at h with hi
    · obtain rfl := Except.ok.inj h
      exact .call hprepare rfl rfl rfl
    · obtain rfl := Except.ok.inj h
      exact .dealloc hprepare rfl rfl rfl
  by_cases hinsert : c.point = .insert
  · simp only [runStep, hinsert] at h
    by_cases hknown : (s.requests c.request).cmd = diskCmdRead
        ∨ (s.requests c.request).cmd = diskCmdWrite
    · rw [if_pos hknown] at h
      cases node with
      | true =>
          obtain rfl := Except.ok.inj h
          exact .enqueue hinsert rfl hknown rfl rfl rfl
      | false =>
          obtain rfl := Except.ok.inj h
          exact .refuse hinsert (by simp) (by simp [AtaPoint.Queued]) rfl rfl rfl
    · rw [if_neg hknown] at h
      obtain rfl := Except.ok.inj h
      exact .refuse hinsert (fun h => hknown h.2) (by simp [AtaPoint.Queued]) rfl rfl rfl
  by_cases hdone : c.point = .done
  · simp only [runStep, hdone] at h
    obtain rfl := Except.ok.inj h
    exact .finish hdone rfl rfl rfl
  exact runStep_inside hc ⟨hprepare, hinsert⟩ hdone h

/-! ### What an interrupt does to the pools -/

/-- An interrupt that finds no request pending waits for the drive. -/
lemma exists_isrIdle (s : AtaState) : ∃ b l, isrIdle s
    = { s with
        drive := { s.drive.settle with nien := b }
        ioPending := l } := by
  rw [isrIdle]
  simp only []
  split_ifs
  · split
    · exact ⟨true, s.ioPending, rfl⟩
    · exact ⟨false, _, rfl⟩
  · exact ⟨false, s.ioPending, rfl⟩

lemma isrBlock_frame {op : AtaOp} (h : isrBlock op s = .ok s') :
    s'.calls = s.calls ∧ s'.freeRequests = s.freeRequests ∧ s'.ioPending = s.ioPending := by
  obtain ⟨r, -, h⟩ := exists_of_bind_ok h
  dsimp only at h
  split_ifs at h <;> obtain rfl := Except.ok.inj h <;> exact ⟨rfl, rfl, rfl⟩

lemma isrTransfer_frame {op : AtaOp} (h : isrTransfer op s = .ok s') :
    s'.calls = s.calls ∧ s'.freeRequests = s.freeRequests ∧ s'.ioPending = s.ioPending := by
  obtain ⟨t, ht, h⟩ := exists_of_bind_ok h
  have hframe := isrBlock_frame ht
  obtain rfl := Except.ok.inj h
  obtain ⟨f, hf⟩ := exists_setPendingStatus t diskStatusIoSuccess
  rw [hf]
  split_ifs <;> exact hframe

lemma isrPending_frame {r : RequestId} (h : isrPending r s = .ok s') :
    s'.calls = s.calls ∧ s'.freeRequests = s.freeRequests ∧ s'.ioPending = s.ioPending := by
  obtain ⟨f, hf⟩ := exists_setPendingStatus s diskStatusIoSuccess
  rw [isrPending, hf] at h
  split_ifs at h
  · obtain rfl := Except.ok.inj h
    exact ⟨rfl, rfl, rfl⟩
  · exact isrTransfer_frame h
  · exact isrTransfer_frame h
  · obtain rfl := Except.ok.inj h
    exact ⟨rfl, rfl, rfl⟩
  · obtain rfl := Except.ok.inj h
    exact ⟨rfl, rfl, rfl⟩

/-- **What an interrupt does**: one that finds no request pending takes the first entry out. -/
lemma ataIsr_frame (h : ataIsr s = .ok s') :
    s'.calls = s.calls ∧ s'.freeRequests = s.freeRequests
      ∧ s'.ioPending = if s.Idle then s.ioPending.tail else s.ioPending := by
  rw [ataIsr] at h
  cases hr : s.pendingRequest with
  | none =>
      simp only [hr] at h
      obtain rfl := Except.ok.inj h
      rw [isrIdle]
      simp only []
      split_ifs with hready hidle hidle
      · cases s.ioPending with
        | nil => exact ⟨rfl, rfl, rfl⟩
        | cons r rest => exact ⟨rfl, rfl, rfl⟩
      · exact absurd ⟨hr, hready⟩ hidle
      · exact absurd hidle.2 hready
      · exact ⟨rfl, rfl, rfl⟩
  | some r =>
      have hidle : ¬ s.Idle := fun h => by simp [h.1] at hr
      simp only [hr] at h
      obtain ⟨t, ht, h⟩ := exists_of_bind_ok h
      have hframe := isrPending_frame ht
      rw [if_neg hidle]
      obtain rfl := Except.ok.inj h
      split_ifs <;> exact hframe

end Moves

/-! ### A block for the pending request -/

/-- What `_ata_read_block` and `_ata_write_block` do with interrupts off. -/
structure BlockDone (op : AtaOp) (r : RequestId) (s t : AtaState) : Prop where
  drive : t.drive = (List.range blockWords).foldl
    (fun d i => d.word op (wordAddr (s.requests r).buffer i)) s.drive
  calls : t.calls = s.calls
  requests : t.requests = s.requests
  request : t.pendingRequest = s.pendingRequest
  owner : t.transfer.request = s.transfer.request
  remaining : t.transfer.blocksRemaining = s.transfer.blocksRemaining - 1
  transfer : t.pendingTransfer = decide (s.transfer.blocksRemaining - 1 ≠ 0)

section Blocks

variable {op : AtaOp} {r : RequestId} {s : AtaState}

lemma setReq_self (f : DiskRequest → DiskRequest) :
    (s.setReq r f).requests r = f (s.requests r) := Function.update_self ..

lemma setReq_of_ne {r' : RequestId} (f : DiskRequest → DiskRequest) (h : r' ≠ r) :
    (s.setReq r f).requests r' = s.requests r' := Function.update_of_ne h ..

lemma setPendingStatus_of_some (h : s.pendingRequest = some r) (status : UInt8) :
    s.setPendingStatus status = s.setReq r ({ · with status := status }) := by
  simp only [setPendingStatus, h]

lemma transferRequest_eq (htransfer : s.pendingTransfer = true)
    (howner : s.transfer.request = some r) : s.transferRequest = .ok r := by
  rw [AtaState.transferRequest, if_pos htransfer]
  simp only [howner]

lemma isrBlock_eq (htransfer : s.pendingTransfer = true) (howner : s.transfer.request = some r) :
    ∃ t, isrBlock op s = .ok t ∧ BlockDone op r s t := by
  rw [isrBlock, transferRequest_eq htransfer howner]
  dsimp only [bind, Except.bind]
  generalize hdrive : (List.range blockWords).foldl
    (fun d i => d.word op (wordAddr (s.requests r).buffer i)) s.drive = drive
  by_cases hleft : s.transfer.blocksRemaining - 1 ≠ 0
  · rw [if_pos hleft]
    exact ⟨_, rfl, hdrive.symm, rfl, rfl, rfl, rfl, rfl, by simp [htransfer, hleft]⟩
  · rw [if_neg hleft]
    exact ⟨_, rfl, hdrive.symm, rfl, rfl, rfl, rfl, rfl, by simp [hleft]⟩

/-- An interrupt with `DRQ` set goes to the transfer, whatever the command. -/
lemma isrPending_eq (htransfer : s.pendingTransfer = true) (hknown : (s.requests r).Known)
    (hd : s.drive.Requests) : isrPending r s = isrTransfer (s.requests r).op s := by
  rw [isrPending, if_neg (by simp [htransfer]), if_pos hd, DiskRequest.op]
  by_cases hread : (s.requests r).cmd = diskCmdRead
  · rw [if_pos hread, if_pos hread]
  · rw [if_neg hread, if_neg hread, if_pos (hknown.resolve_left hread)]

/-- **An interrupt with `DRQ` set** moves a block for the pending request, and completes it after
the last one. -/
lemma ataIsr_eq (hrequest : s.pendingRequest = some r) (htransfer : s.pendingTransfer = true)
    (howner : s.transfer.request = some r) (hknown : (s.requests r).Known)
    (hd : s.drive.Requests) :
    ∃ t, BlockDone (s.requests r).op r s t
      ∧ ataIsr s = .ok (if t.pendingTransfer then t
        else { t.setPendingStatus diskStatusIoSuccess with pendingRequest := none }) := by
  have hblock : ∃ t, isrBlock (s.requests r).op s = .ok t ∧ BlockDone (s.requests r).op r s t :=
    isrBlock_eq htransfer howner
  obtain ⟨t, ht, hdone⟩ := hblock
  refine ⟨t, hdone, ?_⟩
  simp only [ataIsr, hrequest, isrPending_eq htransfer hknown hd, isrTransfer, ht, bind,
    Except.bind]
  by_cases hleft : t.pendingTransfer = true
  · simp only [hleft, if_true]
  · simp only [hleft, if_false, setPendingStatus_pendingTransfer, Bool.false_eq_true]

/-- An interrupt while the drive requests no data leaves a transfer alone. -/
lemma ataIsr_of_not_requests (hrequest : s.pendingRequest = some r)
    (htransfer : s.pendingTransfer = true) (hd : ¬ s.drive.Requests) : ataIsr s = .ok s := by
  simp only [ataIsr, hrequest, isrPending]
  rw [if_neg (by simp [htransfer]), if_neg hd]
  exact congrArg Except.ok (if_pos htransfer)

/-- An interrupt after the transfer of a write completes the request. -/
lemma ataIsr_of_write (hrequest : s.pendingRequest = some r)
    (hwrite : (s.requests r).cmd = diskCmdWrite) (htransfer : s.pendingTransfer = false) :
    ataIsr s = .ok { s.setReq r ({ · with status := diskStatusIoSuccess }) with
      pendingRequest := none } := by
  simp only [ataIsr, hrequest, isrPending, setPendingStatus_of_some hrequest]
  rw [if_pos ⟨hwrite, htransfer⟩]
  exact congrArg Except.ok (if_neg (by simp [htransfer]))

end Blocks

/-! ### Each call has a request of its own -/

/-- The calls have different requests, and none of them is on the free list. -/
structure CallsSound (s : AtaState) : Prop where
  distinct : ∀ p q, ∀ c ∈ s.calls p, ∀ d ∈ s.calls q, c.request = d.request → p = q
  taken : ∀ p, ∀ c ∈ s.calls p, c.request ∉ s.freeRequests
  free_nodup : s.freeRequests.Nodup

section Calls

variable {p q : PcbId} {node : Bool} {c c' d : AtaCall} {o : Option AtaCall} {s s' : AtaState}
  {e : AtaEvent}

/-- One process has another call. -/
lemma mem_calls (hcalls : s'.calls = Function.update s.calls p o) (hd : d ∈ s'.calls q) :
    q = p ∧ d ∈ o ∨ q ≠ p ∧ d ∈ s.calls q := by
  rw [hcalls] at hd
  by_cases hqp : q = p
  · subst hqp
    rw [Function.update_self] at hd
    exact Or.inl ⟨rfl, hd⟩
  · rw [Function.update_of_ne hqp] at hd
    exact Or.inr ⟨hqp, hd⟩

lemma CallsSound.congr (hs : CallsSound s) (hcalls : s'.calls = s.calls)
    (hfree : s'.freeRequests = s.freeRequests) : CallsSound s' := by
  refine ⟨hcalls ▸ hs.distinct, fun p c hc => ?_, hfree ▸ hs.free_nodup⟩
  rw [hfree]
  exact hs.taken p c (hcalls ▸ hc)

/-- A process goes on with its request. -/
lemma CallsSound.goto (hs : CallsSound s) (hc : s.calls p = some c)
    (hcalls : s'.calls = Function.update s.calls p (some c')) (hr : c'.request = c.request)
    (hfree : s'.freeRequests = s.freeRequests) : CallsSound s' := by
  -- every process has the request it had
  have hback : ∀ q, ∀ d' ∈ s'.calls q, ∃ d ∈ s.calls q, d'.request = d.request := by
    intro q d' hd'
    rcases mem_calls hcalls hd' with ⟨rfl, hd'⟩ | ⟨-, hd'⟩
    · exact ⟨c, hc, Option.mem_some_iff.mp hd' ▸ hr⟩
    · exact ⟨d', hd', rfl⟩
  refine ⟨fun q q' d hd d' hd' heq => ?_, fun q d hd => ?_, hfree ▸ hs.free_nodup⟩
  · obtain ⟨d₀, hd₀, h₀⟩ := hback q d hd
    obtain ⟨d₁, hd₁, h₁⟩ := hback q' d' hd'
    exact hs.distinct q q' d₀ hd₀ d₁ hd₁ (by rw [← h₀, ← h₁, heq])
  · obtain ⟨d₀, hd₀, h₀⟩ := hback q d hd
    rw [hfree, h₀]
    exact hs.taken q d₀ hd₀

/-- A process leaves the driver, and its request goes to the free list. -/
lemma CallsSound.dealloc (hs : CallsSound s) (hc : s.calls p = some c)
    (hcalls : s'.calls = Function.update s.calls p none)
    (hfree : s'.freeRequests = c.request :: s.freeRequests) : CallsSound s' := by
  have hback : ∀ q, ∀ d ∈ s'.calls q, q ≠ p ∧ d ∈ s.calls q := by
    intro q d hd
    rcases mem_calls hcalls hd with ⟨-, hd⟩ | hd
    · exact absurd hd (Option.not_mem_none d)
    · exact hd
  refine ⟨fun q q' d hd d' hd' => hs.distinct q q' d (hback q d hd).2 d' (hback q' d' hd').2,
    fun q d hd => ?_, ?_⟩
  · obtain ⟨hqp, hd⟩ := hback q d hd
    rw [hfree, List.mem_cons, not_or]
    exact ⟨fun heq => hqp (hs.distinct q p d hd c hc heq), hs.taken q d hd⟩
  · rw [hfree]
    exact List.nodup_cons.mpr ⟨hs.taken p c hc, hs.free_nodup⟩

/-- A process enters the driver, and takes a request from the free list. -/
lemma CallsSound.alloc {r : RequestId} {rest : List RequestId} (hs : CallsSound s)
    (hfree : s.freeRequests = r :: rest) (hr : c'.request = r)
    (hcalls : s'.calls = Function.update s.calls p (some c'))
    (hrest : s'.freeRequests = rest) : CallsSound s' := by
  have hnot : ∀ q, ∀ d ∈ s.calls q, d.request ≠ r := fun q d hd heq =>
    hs.taken q d hd (by rw [heq, hfree]; exact List.mem_cons_self)
  obtain ⟨hnotrest, hnd⟩ := List.nodup_cons.mp (hfree ▸ hs.free_nodup)
  refine ⟨fun q q' d hd d' hd' heq => ?_, fun q d hd => ?_, hrest ▸ hnd⟩
  · rcases mem_calls hcalls hd with ⟨rfl, hd⟩ | ⟨-, hd⟩ <;>
      rcases mem_calls hcalls hd' with ⟨rfl, hd'⟩ | ⟨-, hd'⟩
    · rfl
    · rw [← Option.mem_some_iff.mp hd, hr] at heq
      exact absurd heq.symm (hnot q' d' hd')
    · rw [← Option.mem_some_iff.mp hd', hr] at heq
      exact absurd heq (hnot q d hd)
    · exact hs.distinct q q' d hd d' hd' heq
  · rw [hrest]
    rcases mem_calls hcalls hd with ⟨rfl, hd⟩ | ⟨-, hd⟩
    · rwa [← Option.mem_some_iff.mp hd, hr]
    · exact fun hmem => hs.taken q d hd (by rw [hfree]; exact List.mem_cons_of_mem r hmem)

lemma AtaInitial.callsSound (h : AtaInitial s) : CallsSound s where
  distinct p _ c hc := absurd hc (by simp [h.calls p])
  taken p c hc := absurd hc (by simp [h.calls p])
  free_nodup := h.free

lemma CallsSound.run (hs : CallsSound s) (hc : s.calls p = some c)
    (h : runStep p node c s = .ok s') : CallsSound s' := by
  cases runStep_move hc h with
  | call _ hcalls hfree _ => exact hs.goto hc hcalls rfl hfree
  | dealloc _ hcalls hfree _ => exact hs.dealloc hc hcalls hfree
  | enqueue _ _ _ hcalls hfree _ => exact hs.goto hc hcalls rfl hfree
  | refuse _ _ _ hcalls hfree _ => exact hs.goto hc hcalls rfl hfree
  | inside _ _ hcalls hfree _ => exact hs.goto hc hcalls rfl hfree
  | finish _ hcalls hfree _ => exact hs.goto hc hcalls rfl hfree

/-- What a start does, where there is a free request. -/
lemma ataStep_start {job : AtaJob} (h : ataStep s (.start p job) = .ok s') :
    s' = s ∨ ∃ r rest, s.calls p = none ∧ s.freeRequests = r :: rest
      ∧ s' = { s.setReq r (fun _ => .zero) with
              freeRequests := rest
              calls := Function.update s.calls p (some ⟨job, 0, r, .prepare⟩) } := by
  rw [ataStep] at h
  split at h
  · cases h
  · exact Or.inl (Except.ok.inj h).symm
  · next r rest hc hfree => exact Or.inr ⟨r, rest, hc, hfree, (Except.ok.inj h).symm⟩

/-- Only a process that is in the driver executes a statement of it. -/
lemma ataStep_run (h : ataStep s (.run p node) = .ok s') :
    ∃ c, s.calls p = some c ∧ runStep p node c s = .ok s' := by
  rw [ataStep] at h
  cases hc : s.calls p with
  | none =>
      rw [hc] at h
      cases h
  | some c =>
      rw [hc] at h
      exact ⟨c, rfl, h⟩

/-- **Each call keeps a request of its own**, whatever happens. -/
lemma CallsSound.step (hs : CallsSound s) (h : ataStep s e = .ok s') : CallsSound s' := by
  cases e with
  | start p job =>
      rcases ataStep_start h with rfl | ⟨r, rest, -, hfree, rfl⟩
      · exact hs
      · exact hs.alloc hfree rfl rfl rfl
  | run p node =>
      obtain ⟨c, hc, h⟩ := ataStep_run h
      exact hs.run hc h
  | interrupt =>
      obtain ⟨hcalls, hfree, -⟩ := ataIsr_frame h
      exact hs.congr hcalls hfree
  | settle =>
      obtain rfl := Except.ok.inj h
      exact hs.congr rfl rfl

end Calls

/-! ### A start -/

/-- The driver after `_disk_init`, with a drive that is ready. -/
def ataStart : AtaState where
  requests := fun _ => .zero
  freeRequests := (List.finRange 256).reverse
  ioPending := []
  pendingRequest := none
  pendingTransfer := false
  transfer := ⟨none, 0, 0⟩
  drive := ⟨fun _ => 0, true, ataStatusDrdy, none, []⟩
  calls := fun _ => none

/-- So, with no process in a section. -/
abbrev ataSystemStart : AtaSystem := .start PcbId ataStart

/-- So many statements of a process. -/
def ataRuns (p : PcbId) (n : ℕ) : List AtaSystemEvent := List.replicate n (.step (.run p true))

/-- A process enters the driver, and inserts its first request into `_ata_io_pending`. -/
def ataBegin (p : PcbId) (job : AtaJob) : List AtaSystemEvent :=
  [.enter p, .step (.start p job), .step (.run p true), .enter p, .step (.run p true)]

/-- The request at the head of its free list. -/
def firstRequest : RequestId := Fin.last 255

lemma ataInitial_start : AtaInitial ataStart where
  calls _ := rfl
  free := by
    rw [ataStart, List.nodup_reverse]
    exact List.nodup_finRange 256
  pending := rfl
  request := rfl
  transfer := rfl

end Sp2
