import Sp2.Devices.AtaStages

/-!
Transfers of several blocks.

* `Calm`: no process is about to move a block of the request itself, or moves one.
* `BlockMove`: one block of the pending request, moved by an interrupt with `DRQ` set that comes
  then or, for a write, by the process that has issued it. `BlockMoves` is any sequence of them,
  with the statements of the process in between.
* `SetUp`, `setUp_of_run`: the transfer as `_ata_do_pio_data` sets it up.
* `BlocksLeft`, `Finished`, `Remains`: what the globals are while blocks remain, and after them.
* `BlockMove.spec`, `BlockMoves.spec`: what one move does, and a sequence of moves: each block of a
  request goes to, or comes from, **the first 512 bytes of the buffer**.
* `blocks_transferred`: blocks are transferred as they should, while no interrupt comes where the
  process moves one itself, **exactly if the request has one**.
-/

namespace Sp2

open Transition AtaState

/-! ### The statement -/

/-- The drive requests the first word of a block for a command. -/
structure Drive.Offers (op : AtaOp) (d : Drive) : Prop where
  requests : d.Requests
  ready : ¬ d.Busy
  command : ∃ block, d.command = some ⟨op, block⟩
  words : d.words = []

/-- A process goes on until it waits for the status of its request. -/
def AloneUntilWait (p : PcbId) (s : AtaState) (e : AtaEvent) : Prop :=
  e = .run p true ∧ ∀ c ∈ s.calls p, c.point ≠ .wait

/-- A process at such a point has seen that the drive requests data, and does not wait yet. -/
def AtaPoint.writes : AtaPoint → Bool
  | .decrement | .remaining | .nextBlock | .clearTransfer | .complete | .success
  | .clearRequest => true
  | point => point.moves

/-- A process at such a point looks at the status after it has issued its request. -/
def AtaPoint.looks : AtaPoint → Bool
  | .status | .delay _ | .poll _ | .drq _ => true
  | _ => false

/-- No process is between the status that tells it to move a block of the request and its wait. -/
def Calm (r : RequestId) (s : AtaState) : Prop :=
  ∀ p, ∀ c ∈ s.calls p, c.request = r → c.point.writes = false

/-- A block of a request is moved, and these are the addresses of the words exchanged. Before each
move the drive, whatever it has done, requests data for the command of the request. -/
inductive BlockMove (r : RequestId) (s : AtaState) : List UInt32 → AtaState → Prop
  /-- An interrupt that does not come in between. -/
  | interrupt {d : Drive} {s' : AtaState} (calm : Calm r s) (offers : d.Offers (s.requests r).op)
      (next : ataIsr { s with drive := d } = .ok s') : BlockMove r s s'.drive.words s'
  /-- A process that has issued a write and found `DRQ` set, before it waits for the status. -/
  | process {d : Drive} {s' : AtaState} {p : PcbId} {c : AtaCall} {es : List AtaEvent}
      (offers : d.Offers (s.requests r).op) (write : (s.requests r).cmd = diskCmdWrite)
      (call : s.calls p = some c) (own : c.request = r) (at_buffer : c.point = .buffer)
      (alone : Transition.Run ataStep (AloneUntilWait p) { s with drive := d } es s')
      (waits : s'.calls p = some { c with point := .wait }) : BlockMove r s s'.drive.words s'

/-- Any number of moves, one after the other. -/
inductive BlockMoves (r : RequestId) : AtaState → List (List UInt32) → AtaState → Prop
  | nil (s : AtaState) : BlockMoves r s [] s
  | cons {s s' s'' : AtaState} {b : List UInt32} {bs : List (List UInt32)}
      (first : BlockMove r s b s') (rest : BlockMoves r s' bs s'') : BlockMoves r s (b :: bs) s''
  /-- The process of the request looks at the status of the drive. -/
  | look {s s' s'' : AtaState} {d : Drive} {p : PcbId} {c : AtaCall} {bs : List (List UInt32)}
      (call : s.calls p = some c) (own : c.request = r) (looks : c.point.looks = true)
      (next : ataStep { s with drive := d } (.run p true) = .ok s')
      (rest : BlockMoves r s' bs s'') : BlockMoves r s bs s''

/-- The addresses of the words of a block. -/
def blockAddrs (buffer : UInt32) : List UInt32 := (List.range blockWords).map (wordAddr buffer)

/-- So many blocks of the pending request remain. -/
structure BlocksLeft (r : RequestId) (left : ℕ) (s : AtaState) : Prop where
  request : s.pendingRequest = some r
  transfer : s.pendingTransfer = true
  owner : s.transfer.request = some r
  remaining : s.transfer.blocksRemaining.toNat = left
  known : (s.requests r).Known
  status : (s.requests r).status ≠ diskStatusIoSuccess

/-- `_ata_do_pio_data` has set up the transfer of a request: both pointers are assigned. -/
structure SetUp (r : RequestId) (s : AtaState) : Prop where
  blocks : BlocksLeft r (s.requests r).nblocks.toNat s
  calm : Calm r s

/-- The moves for a request transfer its blocks: the `k`-th is at `512 * k` in its buffer, there
are no more than `nblocks`, no word outside of the buffer is touched, and the status is
`DISK_STATUS_IO_SUCCESS` after the last one and not before. -/
structure Transferred (dr dr' : DiskRequest) (bs : List (List UInt32)) : Prop where
  place : ∀ k b, bs[k]? = some b → b = if k < dr.nblocks.toNat
    then blockAddrs (dr.buffer + UInt32.ofNat (diskBlockSize * k)) else []
  inside : ∀ b ∈ bs, ∀ a ∈ b, ∃ i < dr.nblocks.toNat * blockWords, a = wordAddr dr.buffer i
  status : dr'.status = diskStatusIoSuccess ↔ dr.nblocks.toNat ≤ bs.length

/-! ### One block -/

/-- The assignments of `_ata_do_pio_data` after the command set up the transfer. -/
lemma setUp_of_run {p : PcbId} {c : AtaCall} {s s' : AtaState} (hs : CallsSound s)
    (hc : s.calls p = some c) (hpoint : c.point = .transferRequest)
    (hknown : (s.requests c.request).Known)
    (hstatus : (s.requests c.request).status ≠ diskStatusIoSuccess)
    (h : Transition.Run ataStep (fun _ _ => True) s (List.replicate 5 (.run p true)) s') :
    SetUp c.request s' := by
  obtain ⟨t₁, ht₁, h⟩ := (run_succ hc).mp h
  simp only [runStep, hpoint, Except.ok.injEq] at ht₁
  obtain ⟨t₂, ht₂, h⟩ := (run_succ (c := { c with point := .transferBlock })
    (ht₁ ▸ goto_calls ..)).mp h
  simp only [runStep, Except.ok.injEq] at ht₂
  obtain ⟨t₃, ht₃, h⟩ := (run_succ (c := { c with point := .transferCount })
    (ht₂ ▸ goto_calls ..)).mp h
  simp only [runStep, Except.ok.injEq] at ht₃
  obtain ⟨t₄, ht₄, h⟩ := (run_succ (c := { c with point := .setRequest })
    (ht₃ ▸ goto_calls ..)).mp h
  simp only [runStep, Except.ok.injEq] at ht₄
  obtain ⟨t₅, ht₅, h⟩ := (run_succ (c := { c with point := .setTransfer })
    (ht₄ ▸ goto_calls ..)).mp h
  simp only [runStep, Except.ok.injEq] at ht₅
  rw [run_nil.mp h, ← ht₅, ← ht₄, ← ht₃, ← ht₂, ← ht₁]
  refine ⟨⟨rfl, rfl, rfl, rfl, hknown, hstatus⟩, fun q d hd hown => ?_⟩
  -- only the process itself has the request, and it is about to look at the status
  by_cases hq : q = p
  · subst hq
    rw [goto_calls, Option.mem_some_iff] at hd
    rw [← hd]
    rfl
  · simp only [AtaState.goto, Function.update_of_ne hq] at hd
    exact absurd (hs.distinct q p d hd c hc hown) hq

/-- The request is complete. -/
structure Finished (r : RequestId) (s : AtaState) : Prop where
  request : s.pendingRequest = none
  transfer : s.pendingTransfer = false
  status : (s.requests r).status = diskStatusIoSuccess

/-- So many blocks remain, or none and the request is complete. -/
def Remains (r : RequestId) (left : ℕ) (s : AtaState) : Prop :=
  if 0 < left then BlocksLeft r left s else Finished r s

section Moves

variable {r : RequestId} {left : ℕ} {s s' t : AtaState} {d : Drive} {op : AtaOp} {b : List UInt32}
  {p : PcbId} {c : AtaCall} {es : List AtaEvent}

lemma Drive.Offers.exchange (h : d.Offers op) (buffer : UInt32) :
    ((List.range blockWords).foldl (fun d i => d.word op (wordAddr buffer i)) d).words
      = blockAddrs buffer := by
  obtain ⟨block, hblock⟩ := h.command
  have hserves : d.Serves op block := ⟨fun _ => hblock, fun _ => h.words, fun _ => h.ready⟩
  exact (hserves.exchange h.requests).1.words

/-- The globals after a block. -/
lemma BlocksLeft.next (h : BlocksLeft r left s) (hleft : 1 < left)
    (hrequest : s'.pendingRequest = s.pendingRequest)
    (htransfer : s'.pendingTransfer = s.pendingTransfer)
    (howner : s'.transfer.request = s.transfer.request)
    (hremaining : s'.transfer.blocksRemaining = s.transfer.blocksRemaining - 1)
    (hrequests : s'.requests = s.requests) : Remains r (left - 1) s' := by
  have hone : (1 : UInt32) ≤ s.transfer.blocksRemaining := by
    rw [UInt32.le_iff_toNat_le, h.remaining]
    exact hleft.le
  rw [Remains, if_pos (by omega)]
  refine ⟨hrequest.trans h.request, htransfer.trans h.transfer, howner.trans h.owner, ?_,
    hrequests ▸ h.known, hrequests ▸ h.status⟩
  rw [hremaining, UInt32.toNat_sub_of_le _ _ hone, h.remaining]
  rfl

/-- The counter is zero after the last block, and only then. -/
lemma BlocksLeft.remaining_ne (h : BlocksLeft r left s) (hleft : 0 < left) :
    s.transfer.blocksRemaining - 1 ≠ 0 ↔ 1 < left := by
  have hone : (1 : UInt32) ≤ s.transfer.blocksRemaining := by
    rw [UInt32.le_iff_toNat_le, h.remaining]
    exact hleft
  rw [Ne, ← UInt32.toNat_inj, UInt32.toNat_sub_of_le _ _ hone, h.remaining]
  simp only [UInt32.toNat_one, UInt32.toNat_zero]
  omega

/-- What a move leaves of a request: only its status changes. -/
structure SameRequest (dr dr' : DiskRequest) : Prop where
  cmd : dr'.cmd = dr.cmd
  buffer : dr'.buffer = dr.buffer

/-- The end of a transfer: the status of the request, and no pending request. -/
lemma Finished.of_status (hrequest : s.pendingRequest = some r)
    (htransfer : s.pendingTransfer = false) :
    Finished r { s.setPendingStatus diskStatusIoSuccess with pendingRequest := none } := by
  rw [setPendingStatus_of_some hrequest]
  exact ⟨rfl, htransfer, by simp [setReq]⟩

/-- The counter tells whether the transfer is complete. -/
lemma BlocksLeft.transfer_done (h : BlocksLeft r left s) (hleft : 0 < left)
    (hdone : BlockDone op r s t) : t.pendingTransfer = decide (1 < left) :=
  hdone.transfer.trans (decide_eq_decide.mpr (h.remaining_ne hleft))

lemma BlockDone.words (hdone : BlockDone op r s t) (hd : s.drive.Offers op) :
    t.drive.words = blockAddrs (s.requests r).buffer := hdone.drive ▸ hd.exchange _

/-- What remains after a block, once the end of the transfer has been seen. -/
lemma BlockDone.remains (hdone : BlockDone op r s t) (h : BlocksLeft r left s)
    (hleft : 0 < left) (hgoes : 1 < left → s' = t)
    (hends : ¬ 1 < left → s' = { t.setPendingStatus diskStatusIoSuccess with
      pendingRequest := none }) :
    Remains r (left - 1) s' ∧ SameRequest (s.requests r) (s'.requests r) := by
  have htransfer := h.transfer_done hleft hdone
  by_cases hlast : 1 < left
  · rw [hgoes hlast]
    exact ⟨h.next hlast hdone.request (by simp [htransfer, h.transfer, hlast]) hdone.owner
      hdone.remaining hdone.requests, by rw [hdone.requests]; exact ⟨rfl, rfl⟩⟩
  · have hrequest : t.pendingRequest = some r := hdone.request.trans h.request
    rw [hends hlast, Remains, if_neg (by omega)]
    refine ⟨.of_status hrequest (by simp [htransfer, hlast]), ?_⟩
    rw [setPendingStatus_of_some hrequest]
    simp only [setReq, Function.update_self, hdone.requests]
    exact ⟨rfl, rfl⟩

/-- **An interrupt moves one block**, from or to the beginning of the buffer. -/
lemma BlocksLeft.interrupt (h : BlocksLeft r left s) (hleft : 0 < left)
    (hd : s.drive.Offers (s.requests r).op) (hnext : ataIsr s = .ok s') :
    s'.drive.words = blockAddrs (s.requests r).buffer ∧ Remains r (left - 1) s'
      ∧ SameRequest (s.requests r) (s'.requests r) := by
  obtain ⟨t, hdone, hisr⟩ := ataIsr_eq h.request h.transfer h.owner h.known hd.requests
  have heq := Except.ok.inj (hisr.symm.trans hnext)
  refine ⟨?_, hdone.remains h hleft (fun hlast => ?_) fun hlast => ?_⟩
  · rw [← hdone.words hd, ← heq]
    split_ifs
    · rfl
    · exact congrArg Drive.words setPendingStatus_drive
  · rw [← heq, if_pos (by simp [h.transfer_done hleft hdone, hlast])]
  · rw [← heq, if_neg (by simp [h.transfer_done hleft hdone, hlast])]

/-- An interrupt while no request is pending moves nothing. -/
lemma Finished.interrupt (h : Finished r s) (hd : s.drive.words = []) (hnext : ataIsr s = .ok s') :
    s'.drive.words = [] ∧ Finished r s' ∧ s'.requests = s.requests := by
  simp only [ataIsr, h.request, Except.ok.injEq] at hnext
  obtain ⟨b, l, heq⟩ := exists_isrIdle s
  rw [← hnext, heq]
  exact ⟨Drive.settle_words.trans hd, ⟨h.request, h.transfer, h.status⟩, rfl⟩

/-! ### A block that a process moves -/

/-- A process that is to wait takes its next statement. -/
lemma alone_step (h : Transition.Run ataStep (AloneUntilWait p) s es s')
    (hwait : ∀ c ∈ s'.calls p, c.point = .wait) (hc : s.calls p = some c)
    (hpoint : c.point ≠ .wait) :
    ∃ t es', runStep p true c s = .ok t ∧ Transition.Run ataStep (AloneUntilWait p) t es' s' := by
  cases h with
  | nil => exact absurd (hwait c hc) hpoint
  | cons hallowed hnext hrest =>
      obtain ⟨rfl, -⟩ := hallowed
      simp only [ataStep, hc] at hnext
      exact ⟨_, _, hnext, hrest⟩

/-- A process that waits is at the end of its run. -/
lemma alone_end (h : Transition.Run ataStep (AloneUntilWait p) s es s') (hc : s.calls p = some c)
    (hpoint : c.point = .wait) : s' = s := by
  cases h with
  | nil => rfl
  | cons hallowed _ _ => exact absurd hpoint (hallowed.2 c hc)

/-- The loop of `_ata_write_block`, by induction on the number of words. -/
lemma alone_words {buffer : UInt32} (hwait : ∀ c ∈ s'.calls p, c.point = .wait)
    (h : Transition.Run ataStep (AloneUntilWait p) (s.goto p c (.words buffer 0)) es s') :
    ∀ k ≤ blockWords, ∃ es', Transition.Run ataStep (AloneUntilWait p)
      (({ s with
          drive := (List.range k).foldl (fun d i => d.word .writeSectors (wordAddr buffer i))
            s.drive } : AtaState).goto p c (.words buffer k)) es' s' := by
  intro k
  induction k with
  | zero => exact fun _ => ⟨es, h⟩
  | succ k ih =>
      intro hk
      obtain ⟨es', h'⟩ := ih (by omega)
      obtain ⟨t, es'', ht, h''⟩ := alone_step h' hwait (goto_calls ..) (by simp)
      have hlt : k < blockWords := by omega
      simp only [runStep, if_pos hlt, Except.ok.injEq] at ht
      refine ⟨es'', ?_⟩
      rw [List.range_succ, List.foldl_append]
      convert h''
      rw [← ht]
      simp [goto]

/-- A process that has written a block is at a point, with its request as it was; the transfer is
pending or not, and so many blocks remain. -/
structure Wrote (p : PcbId) (c : AtaCall) (r : RequestId) (s : AtaState) (point : AtaPoint)
    (transfer : Bool) (remaining : UInt32) (t : AtaState) : Prop where
  call : t.calls p = some { c with point := point }
  words : t.drive.words = blockAddrs (s.requests r).buffer
  requests : t.requests = s.requests
  request : t.pendingRequest = s.pendingRequest
  owner : t.transfer.request = s.transfer.request
  transfer_eq : t.pendingTransfer = transfer
  remaining_eq : t.transfer.blocksRemaining = remaining

/-- The statements from the buffer to the last word. -/
lemma BlocksLeft.wrote (h : BlocksLeft r left s) (hd : s.drive.Offers .writeSectors)
    (hc : s.calls p = some c) (hpoint : c.point = .buffer)
    (hrun : Transition.Run ataStep (AloneUntilWait p) s es s')
    (hwait : ∀ c ∈ s'.calls p, c.point = .wait) :
    ∃ t es', Transition.Run ataStep (AloneUntilWait p) t es' s'
      ∧ Wrote p c r s .decrement true s.transfer.blocksRemaining t := by
  obtain ⟨t, es, ht, hrun⟩ := alone_step hrun hwait hc (by simp [hpoint])
  simp only [runStep, hpoint, transferRequest_eq h.transfer h.owner, bind, Except.bind,
    Except.ok.injEq] at ht
  subst ht
  obtain ⟨es, hrun⟩ := alone_words hwait hrun blockWords le_rfl
  have hwords := hd.exchange (s.requests r).buffer
  generalize (List.range blockWords).foldl
    (fun d i => d.word .writeSectors (wordAddr (s.requests r).buffer i)) s.drive = drive
    at hwords hrun
  obtain ⟨t, es, ht, hrun⟩ := alone_step hrun hwait (goto_calls ..) (by simp)
  simp only [runStep, lt_irrefl, if_false, Except.ok.injEq, goto_goto] at ht
  exact ⟨t, es, hrun, ht ▸ ⟨goto_calls .., hwords, rfl, rfl, rfl, h.transfer, rfl⟩⟩

/-- The counter is decremented, and tested. -/
lemma Wrote.remaining {n : UInt32} (h : Wrote p c r s .decrement true n t)
    (hrun : Transition.Run ataStep (AloneUntilWait p) t es s')
    (hwait : ∀ c ∈ s'.calls p, c.point = .wait) :
    ∃ u es', Transition.Run ataStep (AloneUntilWait p) u es' s'
      ∧ Wrote p c r s (if n - 1 ≠ 0 then .nextBlock else .clearTransfer) true (n - 1) u := by
  obtain ⟨t₁, es, ht, hrun⟩ := alone_step hrun hwait h.call (by simp)
  simp only [runStep, h.transfer_eq, if_true, h.remaining_eq, Except.ok.injEq] at ht
  have h₁ : Wrote p c r s .remaining true (n - 1) t₁ :=
    ht ▸ ⟨goto_calls .., h.words, h.requests, h.request, h.owner, rfl, rfl⟩
  obtain ⟨t₂, es, ht, hrun⟩ := alone_step hrun hwait h₁.call (by simp)
  simp only [runStep, h₁.transfer_eq, if_true, h₁.remaining_eq] at ht
  refine ⟨t₂, es, hrun, ?_⟩
  by_cases hn : n - 1 ≠ 0
  · rw [if_pos hn, Except.ok.injEq] at ht
    rw [if_pos hn]
    exact ht ▸ ⟨goto_calls .., h₁.words, h₁.requests, h₁.request, h₁.owner, h₁.transfer_eq,
      h₁.remaining_eq⟩
  · rw [if_neg hn, Except.ok.injEq] at ht
    rw [if_neg hn]
    exact ht ▸ ⟨goto_calls .., h₁.words, h₁.requests, h₁.request, h₁.owner, h₁.transfer_eq,
      h₁.remaining_eq⟩

/-- While blocks remain, the process goes on to wait. -/
lemma Wrote.waits {n : UInt32} (h : Wrote p c r s .nextBlock true n t)
    (hrun : Transition.Run ataStep (AloneUntilWait p) t es s')
    (hwait : ∀ c ∈ s'.calls p, c.point = .wait) :
    Wrote p c r s .wait true n s' := by
  obtain ⟨t₁, es, ht, hrun⟩ := alone_step hrun hwait h.call (by simp)
  simp only [runStep, h.transfer_eq, if_true, Except.ok.injEq] at ht
  have h₁ : Wrote p c r s .complete true n t₁ :=
    ht ▸ ⟨goto_calls .., h.words, h.requests, h.request, h.owner, rfl, h.remaining_eq⟩
  obtain ⟨t₂, es, ht, hrun⟩ := alone_step hrun hwait h₁.call (by simp)
  simp only [runStep, h₁.transfer_eq, if_true, Except.ok.injEq] at ht
  have h₂ : Wrote p c r s .wait true n t₂ :=
    ht ▸ ⟨goto_calls .., h₁.words, h₁.requests, h₁.request, h₁.owner, h₁.transfer_eq,
      h₁.remaining_eq⟩
  exact alone_end hrun h₂.call rfl ▸ h₂

/-- After the last block the process completes the request. -/
lemma Wrote.completes {n : UInt32} (h : Wrote p c r s .clearTransfer true n t)
    (hr : s.pendingRequest = some r) (hrun : Transition.Run ataStep (AloneUntilWait p) t es s')
    (hwait : ∀ c ∈ s'.calls p, c.point = .wait) :
    s'.drive.words = blockAddrs (s.requests r).buffer ∧ Finished r s'
      ∧ SameRequest (s.requests r) (s'.requests r) := by
  obtain ⟨t₁, es, ht, hrun⟩ := alone_step hrun hwait h.call (by simp)
  simp only [runStep, Except.ok.injEq] at ht
  have h₁ : Wrote p c r s .complete false n t₁ :=
    ht ▸ ⟨goto_calls .., h.words, h.requests, h.request, h.owner, rfl, h.remaining_eq⟩
  obtain ⟨t₂, es, ht, hrun⟩ := alone_step hrun hwait h₁.call (by simp)
  simp only [runStep, h₁.transfer_eq, Bool.false_eq_true, if_false, Except.ok.injEq] at ht
  have h₂ : Wrote p c r s .success false n t₂ :=
    ht ▸ ⟨goto_calls .., h₁.words, h₁.requests, h₁.request, h₁.owner, h₁.transfer_eq,
      h₁.remaining_eq⟩
  obtain ⟨t₃, es, ht₃, hrun⟩ := alone_step hrun hwait h₂.call (by simp)
  simp only [runStep, setPendingStatus_of_some (h₂.request.trans hr), Except.ok.injEq] at ht₃
  have hcall₃ : t₃.calls p = some { c with point := .clearRequest } := ht₃ ▸ goto_calls ..
  obtain ⟨t₄, es, ht₄, hrun⟩ := alone_step hrun hwait hcall₃ (by simp)
  simp only [runStep, Except.ok.injEq] at ht₄
  have hcall₄ : t₄.calls p = some { c with point := .wait } := ht₄ ▸ goto_calls ..
  have hrequests : t₃.requests r = { s.requests r with status := diskStatusIoSuccess } := by
    rw [← ht₃]
    simp [setReq, h₂.requests]
  rw [alone_end hrun hcall₄ rfl, ← ht₄]
  refine ⟨by rw [← ht₃]; exact h₂.words, ⟨rfl, by rw [← ht₃]; exact h₂.transfer_eq, ?_⟩, ?_⟩
  · simp only [goto_requests, hrequests]
  · simp only [goto_requests, hrequests]
    exact ⟨rfl, rfl⟩

/-- **A process moves one block** in `_ata_request`, from the beginning of the buffer. -/
lemma BlocksLeft.process (h : BlocksLeft r left s) (hleft : 0 < left)
    (hd : s.drive.Offers .writeSectors) (hc : s.calls p = some c) (hpoint : c.point = .buffer)
    (hrun : Transition.Run ataStep (AloneUntilWait p) s es s')
    (hwait : ∀ c ∈ s'.calls p, c.point = .wait) :
    s'.drive.words = blockAddrs (s.requests r).buffer ∧ Remains r (left - 1) s'
      ∧ SameRequest (s.requests r) (s'.requests r) := by
  obtain ⟨t, es, hrun, hw⟩ := h.wrote hd hc hpoint hrun hwait
  obtain ⟨u, es, hrun, hu⟩ := hw.remaining hrun hwait
  by_cases hlast : 1 < left
  · rw [if_pos ((h.remaining_ne hleft).mpr hlast)] at hu
    have hw := hu.waits hrun hwait
    exact ⟨hw.words, h.next hlast hw.request (hw.transfer_eq.trans h.transfer.symm) hw.owner
      hw.remaining_eq hw.requests, by rw [hw.requests]; exact ⟨rfl, rfl⟩⟩
  · rw [if_neg (mt (h.remaining_ne hleft).mp hlast)] at hu
    rw [Remains, if_neg (by omega)]
    exact hu.completes h.request hrun hwait

/-! ### Any number of blocks -/

/-- A process that looks at the status changes nothing but where it is. -/
lemma look_frame (hc : s.calls p = some c) (hlooks : c.point.looks = true)
    (h : ataStep { s with drive := d } (.run p true) = .ok s') :
    s'.pendingRequest = s.pendingRequest ∧ s'.pendingTransfer = s.pendingTransfer
      ∧ s'.transfer = s.transfer ∧ s'.requests = s.requests := by
  simp only [ataStep, hc, runStep] at h
  cases hpoint : c.point with
  | status | poll a | drq a =>
      simp only [hpoint] at h
      split_ifs at h <;> obtain rfl := Except.ok.inj h <;> exact ⟨rfl, rfl, rfl, rfl⟩
  | delay a =>
      simp only [hpoint] at h
      obtain rfl := Except.ok.inj h
      exact ⟨rfl, rfl, rfl, rfl⟩
  | _ =>
      rw [hpoint] at hlooks
      cases hlooks

lemma Remains.congr (h : Remains r left s) (hrequest : s'.pendingRequest = s.pendingRequest)
    (htransfer : s'.pendingTransfer = s.pendingTransfer) (howner : s'.transfer = s.transfer)
    (hrequests : s'.requests = s.requests) : Remains r left s' := by
  rw [Remains] at h ⊢
  split_ifs at h ⊢
  · exact ⟨hrequest ▸ h.request, htransfer ▸ h.transfer, howner ▸ h.owner, howner ▸ h.remaining,
      hrequests ▸ h.known, hrequests ▸ h.status⟩
  · exact ⟨hrequest ▸ h.request, htransfer ▸ h.transfer, hrequests ▸ h.status⟩

lemma SameRequest.trans {dr dr' dr'' : DiskRequest} (h : SameRequest dr dr')
    (h' : SameRequest dr' dr'') : SameRequest dr dr'' :=
  ⟨h'.cmd.trans h.cmd, h'.buffer.trans h.buffer⟩

/-- **What one move does**: while blocks remain it moves the beginning of the buffer, and after
them nothing. -/
lemma BlockMove.spec (hm : BlockMove r s b s') (h : Remains r left s) :
    b = (if 0 < left then blockAddrs (s.requests r).buffer else [])
      ∧ Remains r (left - 1) s' ∧ SameRequest (s.requests r) (s'.requests r) := by
  rw [Remains] at h
  by_cases hleft : 0 < left
  · rw [if_pos hleft] at h
    rw [if_pos hleft]
    have h' : ∀ d, BlocksLeft r left { s with drive := d } := fun _ =>
      ⟨h.request, h.transfer, h.owner, h.remaining, h.known, h.status⟩
    cases hm with
    | @interrupt d _ _ offers next => exact (h' d).interrupt hleft offers next
    | @process d _ _ _ _ offers write call own at_buffer alone waits =>
        rw [DiskRequest.op, write, if_neg (by decide)] at offers
        exact (h' d).process hleft offers call at_buffer alone (by simp [waits])
  · rw [if_neg hleft] at h
    have hzero : left - 1 = 0 := by omega
    rw [if_neg hleft, hzero, Remains, if_neg (lt_irrefl 0)]
    cases hm with
    | @interrupt d _ _ offers next =>
        have h' : Finished r { s with drive := d } := ⟨h.request, h.transfer, h.status⟩
        obtain ⟨hwords, hfin, hrequests⟩ := h'.interrupt offers.words next
        exact ⟨hwords, hfin, by rw [hrequests]; exact ⟨rfl, rfl⟩⟩
    | process offers write call own at_buffer alone waits =>
        -- The pointer to the transfer is null, and the process cannot go on.
        obtain ⟨t, es, ht, -⟩ := alone_step alone (by simp [waits]) call (by simp [at_buffer])
        simp [runStep, at_buffer, transferRequest, h.transfer, bind, Except.bind] at ht

/-- **What a sequence of moves does**, by induction on it. -/
lemma BlockMoves.spec {bs : List (List UInt32)} (hm : BlockMoves r s bs s') :
    ∀ {left : ℕ}, Remains r left s →
      (∀ k b, bs[k]? = some b → b = if k < left then blockAddrs (s.requests r).buffer else [])
      ∧ Remains r (left - bs.length) s' ∧ SameRequest (s.requests r) (s'.requests r) := by
  induction hm with
  | nil s => exact fun h => ⟨by simp, h, rfl, rfl⟩
  | cons first _ ih =>
      intro left h
      obtain ⟨hb, hrem, hsame⟩ := first.spec h
      obtain ⟨hbs, hrem', hsame'⟩ := ih hrem
      refine ⟨fun k b hk => ?_, ?_, hsame.trans hsame'⟩
      · cases k with
        | zero => simpa [hb] using hk.symm
        | succ k =>
            rw [hbs k b (by simpa using hk), hsame.buffer]
            exact if_congr (by omega) rfl rfl
      · rwa [List.length_cons, Nat.add_comm, ← Nat.sub_sub]
  | look call _ looks next _ ih =>
      intro left h
      obtain ⟨hrequest, htransfer, howner, hrequests⟩ := look_frame call looks next
      have hlast := ih (h.congr hrequest htransfer howner hrequests)
      rwa [hrequests] at hlast

/-- The request is complete exactly after as many moves as blocks remained. -/
lemma Remains.status (h : Remains r left s) :
    (s.requests r).status = diskStatusIoSuccess ↔ left = 0 := by
  rw [Remains] at h
  split_ifs at h with hleft
  · exact ⟨fun hs => absurd hs h.status, fun hz => absurd hz hleft.ne'⟩
  · exact ⟨fun _ => by omega, fun _ => h.status⟩

end Moves

/-! ### The theorem -/

section Theorem

variable {r : RequestId} {s : AtaState}

/-- As long as blocks remain there is a next interrupt. -/
lemma Remains.exists_interrupt {left : ℕ} (h : Remains r left s) (hcalm : Calm r s)
    (hleft : 0 < left) : ∃ b s', BlockMove r s b s' ∧ Calm r s' := by
  rw [Remains, if_pos hleft] at h
  let d : Drive := ⟨fun _ => 0, false, ataStatusDrdy ||| ataStatusDrq,
    some ⟨(s.requests r).op, 0⟩, []⟩
  have hd : d.Offers (s.requests r).op := ⟨show (ataStatusDrdy ||| ataStatusDrq) &&& ataStatusDrq
    ≠ 0 by decide, show ¬ (ataStatusDrdy ||| ataStatusDrq) &&& ataStatusBsy ≠ 0 by decide,
    ⟨0, rfl⟩, rfl⟩
  have h' : BlocksLeft r left { s with drive := d } :=
    ⟨h.request, h.transfer, h.owner, h.remaining, h.known, h.status⟩
  obtain ⟨t, -, hisr⟩ := ataIsr_eq h'.request h'.transfer h'.owner h'.known hd.requests
  refine ⟨_, _, .interrupt hcalm hd hisr, fun p c hc => hcalm p c ?_⟩
  rwa [(ataIsr_frame hisr).1] at hc

lemma SetUp.remains (h : SetUp r s) (hn : 0 < (s.requests r).nblocks.toNat) :
    Remains r (s.requests r).nblocks.toNat s := by
  rw [Remains, if_pos hn]
  exact h.blocks

/-- A single block is transferred as it should be. -/
lemma SetUp.transferred (h : SetUp r s) (hn : (s.requests r).nblocks = 1)
    {bs : List (List UInt32)} {s' : AtaState} (hm : BlockMoves r s bs s') :
    Transferred (s.requests r) (s'.requests r) bs := by
  have hone : (s.requests r).nblocks.toNat = 1 := by rw [hn, UInt32.toNat_one]
  obtain ⟨hbs, hrem, -⟩ := hm.spec (h.remains (by omega))
  rw [hone] at hbs hrem
  refine ⟨fun k b hk => ?_, fun b hb a ha => ?_, ?_⟩
  · rw [hbs k b hk, hone]
    refine if_ctx_congr Iff.rfl (fun hlt => ?_) fun _ => rfl
    obtain rfl : k = 0 := by omega
    simp
  · obtain ⟨k, hk⟩ := List.mem_iff_getElem?.mp hb
    rw [hbs k b hk] at ha
    split_ifs at ha with hlt
    · obtain ⟨i, hi, rfl⟩ := List.mem_map.mp ha
      exact ⟨i, by rw [hone, Nat.one_mul]; exact List.mem_range.mp hi, rfl⟩
    · exact absurd ha List.not_mem_nil
  · rw [hrem.status, hone]
    omega

lemma blockAddrs_head? (buffer : UInt32) : (blockAddrs buffer).head? = some buffer := by
  have hrange : (List.range blockWords).head? = some 0 := rfl
  rw [blockAddrs, List.head?_map, hrange, Option.map_some, wordAddr]
  simp

/-- The second of several blocks is at the place of the first. -/
lemma SetUp.not_transferred (h : SetUp r s) (hn : 2 ≤ (s.requests r).nblocks.toNat) :
    ¬ ∀ bs s', BlockMoves r s bs s' → Transferred (s.requests r) (s'.requests r) bs := by
  intro hall
  have hrem := h.remains (by omega)
  obtain ⟨b₀, s₁, h₀, hcalm⟩ := hrem.exists_interrupt h.calm (by omega)
  obtain ⟨b₁, s₂, h₁, -⟩ := (h₀.spec hrem).2.1.exists_interrupt hcalm (by omega)
  have hm : BlockMoves r s [b₀, b₁] s₂ := .cons h₀ (.cons h₁ (.nil _))
  have hactual := (hm.spec hrem).1 1 b₁ rfl
  have hwanted := (hall _ _ hm).place 1 b₁ rfl
  rw [if_pos (by omega)] at hactual hwanted
  have hhead := congrArg List.head? (hactual.symm.trans hwanted)
  rw [blockAddrs_head?, blockAddrs_head?, Option.some_inj, ← UInt32.toNat_inj,
    UInt32.toNat_add, show (UInt32.ofNat (diskBlockSize * 1)).toNat = 512 from rfl] at hhead
  omega

/-- **Multi-block transfers**: from the state in which `_ata_do_pio_data` has set up the transfer
of a request with at least one block, every sequence of moves, no interrupt coming where the process
moves a block itself, transfers its blocks as it should exactly if the request has one block. -/
theorem blocks_transferred (h : SetUp r s) (hn : 1 ≤ (s.requests r).nblocks) :
    (∀ bs s', BlockMoves r s bs s' → Transferred (s.requests r) (s'.requests r) bs)
      ↔ (s.requests r).nblocks = 1 := by
  refine ⟨fun hall => not_not.mp fun hne => ?_, fun hone bs s' hm => h.transferred hone hm⟩
  refine h.not_transferred ?_ hall
  rw [UInt32.le_iff_toNat_le, UInt32.toNat_one] at hn
  rw [← UInt32.toNat_inj, UInt32.toNat_one] at hne
  omega

end Theorem

/-- A read of so many blocks has been issued. -/
def issuedRead (n : UInt32) : AtaState :=
  { ataStart with
    requests := fun _ => ⟨diskCmdRead, diskStatusReadPending, 0, n, 0x1000⟩
    pendingRequest := some firstRequest
    pendingTransfer := true
    transfer := ⟨some firstRequest, 0, n⟩ }

lemma setUp_issuedRead (n : UInt32) : SetUp firstRequest (issuedRead n) where
  blocks := ⟨rfl, rfl, rfl, rfl, Or.inl rfl,
    show diskStatusReadPending ≠ diskStatusIoSuccess by decide⟩
  calm p c hc := absurd hc (by simp [issuedRead, ataStart])

/-- A read of one block. -/
theorem blocks_transferred_one : SetUp firstRequest (issuedRead 1)
    ∧ ∀ bs s', BlockMoves firstRequest (issuedRead 1) bs s' →
      Transferred ((issuedRead 1).requests firstRequest) (s'.requests firstRequest) bs :=
  ⟨setUp_issuedRead 1, (blocks_transferred (setUp_issuedRead 1) (by decide)).mpr rfl⟩

/-- A read of two blocks. -/
theorem second_block_misplaced : ¬ ∀ bs s', BlockMoves firstRequest (issuedRead 2) bs s' →
    Transferred ((issuedRead 2).requests firstRequest) (s'.requests firstRequest) bs :=
  (setUp_issuedRead 2).not_transferred (by decide)

end Sp2
