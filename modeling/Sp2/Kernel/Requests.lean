import Sp2.Kernel.Init

/-!
Requests to the ramdisk (`ramdisk.c`).

* `rdRequest`: `_rd_request`, which the current process calls, if nothing interrupts it.
* `RdPoint`, `rdStatement`: its statements, between which an interrupt may come.
* `RdKernel`, `RdEvent`, `requestStep`: what can happen while processes run that make such requests.
* `Uninterrupted`: no interrupt comes inside of one of its insertions into a queue.
* `rdRequest_run`: **a call that nothing interrupts** is a run of its statements.
* `rdCopies`, `serveRequest_mem`: the blocks that are copied when the clock interrupt serves a
  request.
-/

namespace Sp2

/-- The check of `_rd_request`, in 32 bits without a sign. -/
def RdCheck (cfg : Config) (r : DiskRequest) : Prop :=
  ¬ UInt32.ofNat rdMaxLba - (r.lba - cfg.ramdisk) < r.nblocks * UInt32.ofNat diskBlockSize

instance (cfg : Config) (r : DiskRequest) : Decidable (RdCheck cfg r) :=
  inferInstanceAs (Decidable (¬ _))

namespace KState

/-- What `_rd_request` does for both commands: the status, `_current->pending_request`, and the
insertion into `_ramdisk_io_pending`. -/
def enqueueRequest (dr : UInt32) (current : PcbId) (status : UInt8) (s : KState) : KState :=
  let s := s.setRequestStatus dr status
  let s := { s with procs := s.procs.setPcb current ({ · with pendingRequest := dr }) }
  let r := s.procs.qInsert .ramdiskIoPending dr
  let s := { s with procs := r.2 }
  if r.1 = .allocFail then s.setRequestStatus dr diskErrIoQueueInsert else s

/-- `_rd_request`, with what it returns as a byte, if nothing interrupts it. -/
def rdRequest (cfg : Config) (dr : UInt32) (s : KState) :
    Except (Halt × KState) (UInt8 × KState) :=
  if dr = 0 then .ok (0xff, s)
  else if ¬ RdCheck cfg (s.requests dr) then
    .ok (diskErrInvalidReqSize, s.setRequestStatus dr diskErrInvalidReqSize)
  else if (s.requests dr).cmd = diskCmdRead then
    match s.procs.current with
    | none => .error (.nullPointer, s.setRequestStatus dr diskStatusReadPending)
    | some current =>
        let s := s.enqueueRequest dr current diskStatusReadPending
        let s := { s with procs := (s.procs.qInsert .blockedRequests current).2 }
        .ok ((s.requests dr).status, s)
  else if (s.requests dr).cmd = diskCmdWrite then
    match s.procs.current with
    | none => .error (.nullPointer, s.setRequestStatus dr diskStatusWritePending)
    | some current =>
        let s := s.enqueueRequest dr current diskStatusWritePending
        .ok ((s.requests dr).status, s)
  else .ok (diskErrInvalidCmd, s.setRequestStatus dr diskErrInvalidCmd)

end KState

lemma enqueueRequest_procs (dr : UInt32) (c : PcbId) (status : UInt8) (s : KState) :
    (s.enqueueRequest dr c status).procs
      = ((s.procs.setPcb c ({ · with pendingRequest := dr })).qInsert .ramdiskIoPending dr).2 := by
  rw [KState.enqueueRequest]
  dsimp only
  split_ifs <;> rfl

/-! ### The statements of a request -/

/-- The statements of `_rd_request`. From the switch on a flag says whether the command is a
read. -/
inductive RdPoint where
  /-- the pointer and the size of the request are checked -/
  | check
  /-- the command is looked at -/
  | switch
  /-- the request is refused with this status -/
  | refuse (status : UInt8)
  /-- the status becomes pending -/
  | pend (read : Bool)
  /-- `_current->pending_request = dr` -/
  | assign (read : Bool)
  /-- `_q_insert( &_ramdisk_io_pending, dr )` -/
  | enqueue (read : Bool)
  /-- that has failed, and the status says so -/
  | fail (read : Bool)
  /-- `_q_insert( &_blocked_requests, _current )` -/
  | block
  deriving DecidableEq

/-- What is left once the request is queued: a read goes on to `_blocked_requests`. -/
def RdPoint.queued (read : Bool) : Option RdPoint := if read then some .block else none

/-- One statement, and the one that follows it. What the call returns is not kept: no code reads
it. -/
def rdStatement (cfg : Config) (dr : UInt32) (current : PcbId) (s : KState) :
    RdPoint → KState × Option RdPoint
  | .check =>
      (s, if dr = 0 then none
        else if ¬ RdCheck cfg (s.requests dr) then some (.refuse diskErrInvalidReqSize)
        else some .switch)
  | .switch =>
      (s, if (s.requests dr).cmd = diskCmdRead then some (.pend true)
        else if (s.requests dr).cmd = diskCmdWrite then some (.pend false)
        else some (.refuse diskErrInvalidCmd))
  | .refuse status => (s.setRequestStatus dr status, none)
  | .pend read =>
      (s.setRequestStatus dr (if read then diskStatusReadPending else diskStatusWritePending),
        some (.assign read))
  | .assign read =>
      ({ s with procs := s.procs.setPcb current ({ · with pendingRequest := dr }) },
        some (.enqueue read))
  | .enqueue read =>
      let r := s.procs.qInsert .ramdiskIoPending dr
      ({ s with procs := r.2 }, if r.1 = .allocFail then some (.fail read) else RdPoint.queued read)
  | .fail read => (s.setRequestStatus dr diskErrIoQueueInsert, RdPoint.queued read)
  | .block => ({ s with procs := (s.procs.qInsert .blockedRequests current).2 }, none)

/-- A call of `_rd_request`: its argument, and the statement it has come to. -/
structure RdCall where
  request : UInt32
  point : RdPoint
  deriving DecidableEq

/-- The kernel, with the calls of `_rd_request` that its processes are in. -/
structure RdKernel extends KState where
  calls : PcbId → Option RdCall

/-- What can happen while a process runs: an event of the kernel, a store into a request record, a
call of `_rd_request`, or the next statement of this call. -/
inductive RdEvent where
  | kernel (event : Event)
  | fill (dr : UInt32) (r : DiskRequest)
  | call (dr : UInt32)
  | next

namespace RdKernel

/-- The call that the running process is in. -/
def call (s : RdKernel) : Option RdCall := s.procs.current.bind s.calls

/-- The kernel goes on. A process that is taken apart is in no call any more. -/
def withKernel (s : RdKernel) (k : KState) : RdKernel :=
  ⟨k, fun p => if (k.procs.pcbs p).status = .free then none else s.calls p⟩

end RdKernel

/-- What happens then. A `_q_insert` of `_rd_request` runs with the interrupts on: its step stands
for one that nothing interrupts. -/
def requestStep (cfg : Config) (s : RdKernel) : RdEvent → Res RdKernel
  | .kernel event =>
      match step cfg s.toKState event with
      | .ok k => .ok (s.withKernel k)
      | .error (halt, k) => .error (halt, s.withKernel k)
  | .fill dr r => .ok { s with requests := Function.update s.requests dr r }
  | .call dr =>
      match s.procs.current, s.call with
      | some current, none =>
          .ok { s with calls := Function.update s.calls current (some ⟨dr, .check⟩) }
      | _, _ => .ok s
  | .next =>
      match s.procs.current, s.call with
      | some current, some call =>
          let r := rdStatement cfg call.request current s.toKState call.point
          .ok ⟨r.1, Function.update s.calls current (r.2.map fun point => ⟨call.request, point⟩)⟩
      | _, _ => .ok s

/-- The statement is an insertion into a queue. -/
def RdPoint.isInsertion : RdPoint → Bool
  | .enqueue _ | .block => true
  | _ => false

/-- The running process is in a `_q_insert` of `_rd_request`. -/
def RdKernel.Inserting (s : RdKernel) : Prop := ∃ call, s.call = some call ∧ call.point.isInsertion

instance (s : RdKernel) : Decidable s.Inserting :=
  decidable_of_iff (s.call.any (·.point.isInsertion)) (Option.any_eq_true _ _)

/-- No interrupt comes while the running process is in a `_q_insert` of `_rd_request`. -/
def Uninterrupted (s : RdKernel) : RdEvent → Prop
  | .kernel _ => ¬ s.Inserting
  | _ => True

instance (s : RdKernel) : (e : RdEvent) → Decidable (Uninterrupted s e)
  | .kernel _ => inferInstanceAs (Decidable (¬ _))
  | .fill _ _ | .call _ | .next => inferInstanceAs (Decidable True)

/-! ### A call that nothing interrupts -/

section Call

open Transition

variable {cfg : Config} {s s' : RdKernel} {dr : UInt32} {c : PcbId} {point : RdPoint}

lemma RdKernel.call_eq (hcur : s.procs.current = some c) : s.call = s.calls c := by
  rw [RdKernel.call, hcur]
  rfl

/-- The first step of a call. -/
lemma requestStep_call (cfg : Config) (dr : UInt32) (hcur : s.procs.current = some c)
    (hidle : s.call = none) :
    requestStep cfg s (.call dr)
      = .ok ⟨s.toKState, Function.update s.calls c (some ⟨dr, .check⟩)⟩ := by
  simp only [requestStep, hcur, hidle]

/-- One statement of the call that the running process is in. -/
lemma requestStep_next (cfg : Config) (hcur : s.procs.current = some c)
    (hcall : s.call = some ⟨dr, point⟩) :
    requestStep cfg s .next = .ok ⟨(rdStatement cfg dr c s.toKState point).1,
      Function.update s.calls c
        ((rdStatement cfg dr c s.toKState point).2.map fun point => ⟨dr, point⟩)⟩ := by
  simp only [requestStep, hcur, hcall]

/-- Outside of a call there is no statement to come. -/
lemma requestStep_idle (cfg : Config) (hidle : s.call = none) :
    requestStep cfg s .next = .ok s := by
  cases hcur : s.procs.current <;> simp only [requestStep, hcur, hidle]

lemma run_idle (hidle : s.call = none) (n : ℕ) :
    Transition.Run (requestStep cfg) Uninterrupted s (List.replicate n .next) s := by
  induction n with
  | zero => exact .nil s
  | succ n ih => exact .cons trivial (requestStep_idle cfg hidle) ih

/-- A statement in front of a run. -/
lemma run_statement {k : KState} {calls : PcbId → Option RdCall} {next : Option RdPoint} {n : ℕ}
    (point : RdPoint) (k' : KState) (hcur : k.procs.current = some c)
    (hstatement : rdStatement cfg dr c k point = (k', next))
    (hrest : Transition.Run (requestStep cfg) Uninterrupted
      ⟨k', Function.update calls c (next.map fun point => ⟨dr, point⟩)⟩
      (List.replicate n .next) s') :
    Transition.Run (requestStep cfg) Uninterrupted
      ⟨k, Function.update calls c (some ⟨dr, point⟩)⟩ (List.replicate (n + 1) .next) s' := by
  have hcall : RdKernel.call ⟨k, Function.update calls c (some ⟨dr, point⟩)⟩ = some ⟨dr, point⟩ :=
    (RdKernel.call_eq hcur).trans (Function.update_self ..)
  refine .cons trivial (requestStep_next cfg hcur hcall) ?_
  rwa [hstatement, Function.update_idem]

/-- The events of a call that nothing interrupts: it has at most seven statements. -/
def rdCall (dr : UInt32) : List RdEvent := .call dr :: List.replicate 7 .next

/-- The end of a call. -/
lemma run_done {calls : PcbId → Option RdCall} (k : KState) (hcur : k.procs.current = some c)
    (hidle : calls c = none) (n : ℕ) :
    Transition.Run (requestStep cfg) Uninterrupted ⟨k, Function.update calls c none⟩
      (List.replicate n .next) ⟨k, calls⟩ := by
  have hsame : Function.update calls c none = calls := by rw [← hidle, Function.update_eq_self]
  rw [hsame]
  exact run_idle ((RdKernel.call_eq hcur).trans hidle) n

/-- The statements that put a request into `_ramdisk_io_pending`. -/
lemma run_enqueue {calls : PcbId → Option RdCall} {read : Bool} (k : KState) (status : UInt8)
    (hcur : k.procs.current = some c)
    (hstatus : (if read then diskStatusReadPending else diskStatusWritePending) = status)
    (hrest : ∀ n ≥ 1, Transition.Run (requestStep cfg) Uninterrupted
      ⟨k.enqueueRequest dr c status,
        Function.update calls c ((RdPoint.queued read).map fun point => ⟨dr, point⟩)⟩
      (List.replicate n .next) s') :
    Transition.Run (requestStep cfg) Uninterrupted
      ⟨k, Function.update calls c (some ⟨dr, .pend read⟩)⟩ (List.replicate 5 .next) s' := by
  set k₁ : KState := { k.setRequestStatus dr status with
    procs := k.procs.setPcb c ({ · with pendingRequest := dr }) } with hk₁
  set k₂ : KState := { k₁ with procs := (k₁.procs.qInsert .ramdiskIoPending dr).2 } with hk₂
  refine run_statement (.pend read) (k.setRequestStatus dr status) hcur
    (by rw [rdStatement, hstatus]) ?_
  refine run_statement (.assign read) k₁ hcur rfl ?_
  by_cases hfail : (k₁.procs.qInsert .ramdiskIoPending dr).1 = .allocFail
  · have h := hrest 1 le_rfl
    have hqueued : k.enqueueRequest dr c status = k₂.setRequestStatus dr diskErrIoQueueInsert :=
      if_pos hfail
    rw [hqueued] at h
    refine run_statement (.enqueue read) k₂ hcur (by rw [rdStatement, if_pos hfail]) ?_
    exact run_statement (.fail read) _ hcur rfl h
  · have h := hrest 2 (by omega)
    have hqueued : k.enqueueRequest dr c status = k₂ := if_neg hfail
    rw [hqueued] at h
    exact run_statement (.enqueue read) k₂ hcur (by rw [rdStatement, if_neg hfail]) h

/-- **A call that nothing interrupts** is `_rd_request`. -/
lemma rdRequest_run {v : UInt8} {k : KState} (hcur : s.procs.current = some c)
    (hidle : s.calls c = none) (h : s.rdRequest cfg dr = .ok (v, k)) :
    Transition.Run (requestStep cfg) Uninterrupted s (rdCall dr) ⟨k, s.calls⟩ := by
  refine .cons trivial (requestStep_call cfg dr hcur ((RdKernel.call_eq hcur).trans hidle)) ?_
  rw [KState.rdRequest, hcur] at h
  by_cases hdr : dr = 0
  · rw [if_pos hdr] at h
    obtain ⟨-, rfl⟩ := Prod.mk.inj (Except.ok.inj h)
    exact run_statement .check _ hcur (by rw [rdStatement, if_pos hdr])
      (run_done _ hcur hidle 6)
  rw [if_neg hdr] at h
  by_cases hcheck : RdCheck cfg (s.requests dr)
  swap
  · rw [if_pos hcheck] at h
    obtain ⟨-, rfl⟩ := Prod.mk.inj (Except.ok.inj h)
    refine run_statement .check _ hcur (by rw [rdStatement, if_neg hdr, if_pos hcheck]) ?_
    refine run_statement (.refuse diskErrInvalidReqSize)
      (s.setRequestStatus dr diskErrInvalidReqSize) hcur rfl (run_done _ ?_ hidle 5)
    exact hcur
  rw [if_neg (not_not.mpr hcheck)] at h
  refine run_statement .check _ hcur
    (by rw [rdStatement, if_neg hdr, if_neg (not_not.mpr hcheck)]) ?_
  by_cases hread : (s.requests dr).cmd = diskCmdRead
  · rw [if_pos hread] at h
    obtain ⟨-, rfl⟩ := Prod.mk.inj (Except.ok.inj h)
    refine run_statement .switch _ hcur (by rw [rdStatement, if_pos hread])
      (run_enqueue _ diskStatusReadPending hcur rfl fun n hn => ?_)
    obtain ⟨n, rfl⟩ := Nat.exists_eq_add_of_le' hn
    have hcur' : (s.enqueueRequest dr c diskStatusReadPending).procs.current = some c := by
      rw [enqueueRequest_procs]
      exact hcur
    refine run_statement .block _ hcur' rfl (run_done _ ?_ hidle n)
    exact hcur'
  rw [if_neg hread] at h
  by_cases hwrite : (s.requests dr).cmd = diskCmdWrite
  · rw [if_pos hwrite] at h
    obtain ⟨-, rfl⟩ := Prod.mk.inj (Except.ok.inj h)
    have hcur' : (s.enqueueRequest dr c diskStatusWritePending).procs.current = some c := by
      rw [enqueueRequest_procs]
      exact hcur
    refine run_statement .switch _ hcur (by rw [rdStatement, if_neg hread, if_pos hwrite]) ?_
    exact run_enqueue _ diskStatusWritePending hcur rfl fun n _ => run_done _ hcur' hidle n
  · rw [if_neg hwrite] at h
    obtain ⟨-, rfl⟩ := Prod.mk.inj (Except.ok.inj h)
    refine run_statement .switch _ hcur (by rw [rdStatement, if_neg hread, if_neg hwrite]) ?_
    refine run_statement (.refuse diskErrInvalidCmd) (s.setRequestStatus dr diskErrInvalidCmd)
      hcur rfl (run_done _ ?_ hidle 4)
    exact hcur

end Call

/-! ### What is copied -/

/-- The blocks that the loop of `_rd_read` and `_rd_write` copies. -/
def rdBlocks (bound : UInt32) : ℕ → UInt32 → List UInt32
  | 0, _ => []
  | fuel + 1, block => if block < bound then block :: rdBlocks bound fuel (block + 512) else []

lemma rdLoop_eq_foldl (copy : UInt32 → Memory → Memory) (bound : UInt32) :
    ∀ (fuel : ℕ) (block : UInt32) (mem : Memory), rdLoop copy bound fuel block mem
      = (rdBlocks bound fuel block).foldl (fun mem block => copy block mem) mem
  | 0, _, _ => rfl
  | fuel + 1, block, mem => by
      rw [rdLoop, rdBlocks]
      split_ifs
      · rw [rdLoop_eq_foldl copy bound fuel, List.foldl_cons]
      · rfl

/-- The places of a block in `_ramdisk` and in the buffer. -/
structure RdCopy where
  disk : UInt32
  buffer : UInt32

/-- The blocks that are copied for a request. -/
def rdCopies (cfg : Config) (r : DiskRequest) : List RdCopy :=
  (rdBlocks (r.lba + r.nblocks * 512) rdFuel r.lba).map fun block =>
    ⟨cfg.ramdisk + block, r.buffer + (block - r.lba)⟩

/-- One block, in the direction of the command. -/
def RdCopy.run (cmd : UInt8) (mem : Memory) (c : RdCopy) : Memory :=
  if cmd = diskCmdRead then memcpy c.buffer c.disk diskBlockSize mem
  else memcpy c.disk c.buffer diskBlockSize mem

/-- **Serving a request copies these blocks**, and touches no other memory. -/
lemma serveRequest_mem {cfg : Config} {dr : UInt32} {s s' : KState}
    (hcmd : (s.requests dr).cmd = diskCmdRead ∨ (s.requests dr).cmd = diskCmdWrite)
    (h : s.serveRequest cfg dr = .ok s') :
    s'.mem = (rdCopies cfg (s.requests dr)).foldl (RdCopy.run (s.requests dr).cmd) s.mem := by
  rw [rdCopies, List.foldl_map]
  by_cases hread : (s.requests dr).cmd = diskCmdRead
  · have hmem : rdRead cfg.ramdisk (s.requests dr).lba (s.requests dr).nblocks
        (s.requests dr).buffer s.mem = (rdBlocks ((s.requests dr).lba
          + (s.requests dr).nblocks * 512) rdFuel (s.requests dr).lba).foldl (fun mem block =>
            RdCopy.run (s.requests dr).cmd mem ⟨cfg.ramdisk + block,
              (s.requests dr).buffer + (block - (s.requests dr).lba)⟩) s.mem := by
      simp only [RdCopy.run, if_pos hread]
      exact rdLoop_eq_foldl _ _ _ _ _
    rw [KState.serveRequest, if_pos hread] at h
    rw [← hmem]
    cases hloop : blockedLoop blockedFuel dr s.procs with
    | error e => simp [hloop] at h
    | ok r =>
        simp only [hloop, Except.ok.injEq] at h
        rw [← h]
        split_ifs <;> rfl
  · have hwrite := hcmd.resolve_left hread
    rw [KState.serveRequest, if_neg hread, if_pos hwrite, Except.ok.injEq] at h
    rw [← h]
    simp only [RdCopy.run, if_neg hread]
    exact rdLoop_eq_foldl _ _ _ _ _

end Sp2
