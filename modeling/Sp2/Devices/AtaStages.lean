import Sp2.Devices.AtaDrive
import Sp2.Devices.AtaSteps

/-!
The stages of a request that the disk driver serves.

* `AtaPoint.served`: the statements of a process while its request is served, and
  `AtaPoint.moves`: those where it moves the block itself.
* `AtaGlobals`, `Stage`: what the globals of the driver and the drive are at each of these
  statements.
* `Stage.keeps`: what the drive does on its own leaves the stage alone.
* `Goes`: what a step does for the process whose request is served. `Stage.issue`, `Stage.await`,
  `Stage.move` and `Stage.close` show, one group of statements each, that the step leads to the
  next stage, and `Stage.step` puts them together.
* `Stage.interrupt`: **an interrupt leads to the next stage as well**, except between the two
  assignments that issue the request, and where the process moves the block itself.
-/

namespace Sp2

open AtaState

/-! ### The points of a process -/

/-- The block of a request has been moved: the last command of the drive is the one for it, and
each word of the buffer has been exchanged once. -/
def BlockMoved (s : AtaState) (r : RequestId) : Prop :=
  s.drive.Exchanged (s.requests r).op (s.requests r).lba (s.requests r).buffer

instance (s : AtaState) (r : RequestId) : Decidable (BlockMoved s r) :=
  inferInstanceAs (Decidable (s.drive.Exchanged _ _ _))

/-- The request of a process has been issued, and `_ata_request` has not returned. -/
def AtaPoint.issued : AtaPoint → Bool
  | .status | .delay _ | .poll _ | .drq _ | .buffer | .words _ _ | .decrement | .remaining
  | .nextBlock | .clearTransfer | .complete | .success | .clearRequest | .wait => true
  | _ => false

/-- The request of a process at such a point is served: the command for it has been given, and it
is not complete, or its write is still to be flushed. -/
def AtaPoint.served (dr : DiskRequest) : AtaPoint → Bool
  | .prepare | .insert | .enable | .ready | .outs _ | .done => false
  | .status | .wait => ¬ (dr.cmd = diskCmdRead ∧ dr.status = diskStatusIoSuccess)
  | _ => true

/-- A process at such a point has seen that the drive requests data, and moves them itself. -/
def AtaPoint.moves : AtaPoint → Bool
  | .delay a | .poll a => a &&& ataStatusBsy = 0 ∧ a &&& ataStatusDrq ≠ 0
  | .drq a => a &&& ataStatusDrq ≠ 0
  | .buffer | .words _ _ => true
  | _ => false

/-! ### The stages -/

/-- The globals that the processes share, and the drive. -/
structure AtaGlobals where
  request : Option RequestId
  transfer : Bool
  owner : Option RequestId
  drive : Drive

/-- `_current_pending_request`, `_current_pending_transfer`, `_ata_transfer.request` and the
drive. -/
def AtaState.globals (s : AtaState) : AtaGlobals :=
  ⟨s.pendingRequest, s.pendingTransfer, s.transfer.request, s.drive⟩

/-- What a request is while its process is at a point. -/
def Filled (dr : DiskRequest) : AtaPoint → Prop
  | .prepare | .insert | .done => True
  | .enable | .ready | .outs _ => dr.Known ∧ dr.status ≠ diskStatusIoSuccess
  | _ => dr.Known

lemma Filled.known {dr : DiskRequest} {point : AtaPoint} (h : Filled dr point)
    (hserved : point.served dr = true) : dr.Known := by
  cases point with
  | prepare | insert | enable | ready | outs l | done => cases hserved
  | _ => exact h

lemma Filled.of_served {dr dr' : DiskRequest} {point : AtaPoint}
    (hserved : point.served dr = true) (hknown : dr'.Known) : Filled dr' point := by
  cases point with
  | prepare | insert | enable | ready | outs l | done => cases hserved
  | _ => exact hknown

namespace AtaGlobals

/-- No request is pending. -/
structure Free (g : AtaGlobals) : Prop where
  request : g.request = none
  transfer : g.transfer = false

/-- Nor does the drive request any data. -/
structure Rests (g : AtaGlobals) : Prop extends Free g where
  quiet : g.drive.Quiet

/-- A request is pending, and its transfer. -/
structure Pending (g : AtaGlobals) (r : RequestId) (dr : DiskRequest) : Prop where
  request : g.request = some r
  transfer : g.transfer = true
  owner : g.owner = some r
  status : dr.status ≠ diskStatusIoSuccess

/-- The command has been given, and the request is to become the pending one. -/
structure Given (g : AtaGlobals) (dr : DiskRequest) : Prop extends Free g where
  serves : g.drive.Serves dr.op dr.lba
  status : dr.status ≠ diskStatusIoSuccess

/-- The drive has exchanged the block, and requests no more. -/
structure DriveDone (g : AtaGlobals) (dr : DiskRequest) : Prop where
  exchanged : g.drive.Exchanged dr.op dr.lba dr.buffer
  quiet : g.drive.Quiet

/-- What a request that has been issued waits for. -/
inductive Awaits (g : AtaGlobals) (r : RequestId) (dr : DiskRequest) : Prop
  /-- Its block: no word has been moved if any is to be. -/
  | block (pending : Pending g r dr) (serves : g.drive.Serves dr.op dr.lba)
  /-- More blocks, for which the drive has no command. -/
  | more (pending : Pending g r dr) (moved : DriveDone g dr)
  /-- Nothing: it is complete. -/
  | complete (rests : Rests g) (status : dr.status = diskStatusIoSuccess)

/-- The process has seen that the drive requests the block of its write. -/
structure Requested (g : AtaGlobals) (r : RequestId) (dr : DiskRequest) : Prop
    extends Pending g r dr where
  serves : g.drive.Serves dr.op dr.lba
  requests : g.drive.Requests

/-- The transfer is complete. An interrupt may have completed the request as well. -/
def Closing (g : AtaGlobals) (r : RequestId) (dr : DiskRequest) : Prop :=
  g.transfer = false
    ∧ (g.request = some r ∧ dr.status ≠ diskStatusIoSuccess
      ∨ g.request = none ∧ dr.status = diskStatusIoSuccess)

/-- The globals and the drive at each statement of a process whose request is served. -/
def Stage (g : AtaGlobals) (r : RequestId) (dr : DiskRequest) : AtaPoint → Prop
  | .transferRequest => Given g dr
  | .transferBlock | .transferCount | .setRequest => Given g dr ∧ g.owner = some r
  | .setTransfer => g.request = some r ∧ g.transfer = false ∧ g.owner = some r
      ∧ dr.status ≠ diskStatusIoSuccess ∧ g.drive.Serves dr.op dr.lba
  | .status | .wait => Awaits g r dr
  | .delay a => dr.cmd = diskCmdWrite ∧ Awaits g r dr
      ∧ (AtaPoint.moves (.delay a) = true → Requested g r dr)
  | .poll a => dr.cmd = diskCmdWrite ∧ Awaits g r dr
      ∧ (AtaPoint.moves (.poll a) = true → Requested g r dr)
  | .drq a => dr.cmd = diskCmdWrite ∧ Awaits g r dr
      ∧ (AtaPoint.moves (.drq a) = true → Requested g r dr)
  | .buffer => dr.cmd = diskCmdWrite ∧ Requested g r dr
  | .words b k => dr.cmd = diskCmdWrite ∧ Pending g r dr ∧ b = dr.buffer
      ∧ (k < blockWords ∧ g.drive.Exchanging dr.op dr.lba dr.buffer k
        ∨ k = blockWords ∧ DriveDone g dr)
  | .decrement | .remaining | .nextBlock | .clearTransfer =>
      dr.cmd = diskCmdWrite ∧ Pending g r dr ∧ DriveDone g dr
  | .complete => dr.cmd = diskCmdWrite ∧ (Pending g r dr ∨ Closing g r dr) ∧ DriveDone g dr
  | .success => dr.cmd = diskCmdWrite ∧ Closing g r dr ∧ DriveDone g dr
  | .clearRequest => dr.cmd = diskCmdWrite ∧ g.transfer = false
      ∧ dr.status = diskStatusIoSuccess ∧ (g.request = some r ∨ g.request = none)
      ∧ DriveDone g dr
  | .flush => dr.cmd = diskCmdWrite ∧ Rests g
  | .prepare | .insert | .enable | .ready | .outs _ | .done => False

/-- The globals while the process whose request may be served is at a point. -/
def Holds (g : AtaGlobals) (r : RequestId) (dr : DiskRequest) (point : AtaPoint) : Prop :=
  if point.served dr then Stage g r dr point else Rests g

section Stages

variable {g g' : AtaGlobals} {r r' : RequestId} {dr dr' : DiskRequest} {point : AtaPoint}
  {d : Drive}

/-! ### What the drive does on its own -/

lemma Rests.keeps (h : Rests g) (hk : g.drive.Keeps d) : Rests { g with drive := d } :=
  ⟨⟨h.request, h.transfer⟩, hk.quiet h.quiet⟩

lemma Given.keeps (h : Given g dr) (hk : g.drive.Keeps d) : Given { g with drive := d } dr :=
  ⟨⟨h.request, h.transfer⟩, hk.serves h.serves, h.status⟩

lemma DriveDone.keeps (h : DriveDone g dr) (hk : g.drive.Keeps d) :
    DriveDone { g with drive := d } dr :=
  ⟨hk.exchanged h.exchanged, hk.quiet h.quiet⟩

lemma Pending.keeps (h : Pending g r dr) : Pending { g with drive := d } r dr :=
  ⟨h.request, h.transfer, h.owner, h.status⟩

lemma Awaits.keeps (h : Awaits g r dr) (hk : g.drive.Keeps d) :
    Awaits { g with drive := d } r dr := by
  cases h with
  | block hp hs => exact .block hp.keeps (hk.serves hs)
  | more hp hm => exact .more hp.keeps (hm.keeps hk)
  | complete hr hs => exact .complete (hr.keeps hk) hs

/-- A drive that requests the data of a request goes on doing so. -/
lemma Requested.keeps (h : Requested g r dr) (hk : g.drive.Keeps d) :
    Requested { g with drive := d } r dr :=
  ⟨h.toPending.keeps, hk.serves h.serves, (hk.requests h.requests (h.serves.ready h.requests)).1⟩

/-- A stage does not depend on what the drive does on its own. -/
lemma Stage.keeps (h : Stage g r dr point) (hk : g.drive.Keeps d) :
    Stage { g with drive := d } r dr point := by
  cases point with
  | transferRequest => exact Given.keeps h hk
  | transferBlock | transferCount | setRequest => exact ⟨h.1.keeps hk, h.2⟩
  | setTransfer => exact ⟨h.1, h.2.1, h.2.2.1, h.2.2.2.1, hk.serves h.2.2.2.2⟩
  | status | wait => exact Awaits.keeps h hk
  | delay a | poll a | drq a => exact ⟨h.1, h.2.1.keeps hk, fun ha => (h.2.2 ha).keeps hk⟩
  | buffer => exact ⟨h.1, h.2.keeps hk⟩
  | words b k =>
      exact ⟨h.1, h.2.1.keeps, h.2.2.1, h.2.2.2.imp (fun h => ⟨h.1, hk.exchanging h.2⟩)
        fun h => ⟨h.1, h.2.keeps hk⟩⟩
  | decrement | remaining | nextBlock | clearTransfer =>
      exact ⟨h.1, h.2.1.keeps, h.2.2.keeps hk⟩
  | complete => exact ⟨h.1, h.2.1.imp (·.keeps) id, h.2.2.keeps hk⟩
  | success => exact ⟨h.1, h.2.1, h.2.2.keeps hk⟩
  | clearRequest => exact ⟨h.1, h.2.1, h.2.2.1, h.2.2.2.1, h.2.2.2.2.keeps hk⟩
  | flush => exact ⟨h.1, h.2.keeps hk⟩
  | prepare | insert | enable | ready | outs l | done => exact h

/-! ### What a stage says -/

lemma Awaits.rests (h : Awaits g r dr) (hs : dr.status = diskStatusIoSuccess) : Rests g := by
  cases h with
  | block hp _ | more hp _ => exact absurd hs hp.status
  | complete hr _ => exact hr

/-- Data that the drive requests are those of the block. -/
lemma Awaits.requested (h : Awaits g r dr) (hd : g.drive.Requests) : Requested g r dr := by
  cases h with
  | block hp hs => exact ⟨hp, hs, hd⟩
  | more _ hm => exact absurd hd hm.quiet.now
  | complete hr _ => exact absurd hd hr.quiet.now

/-- So a status that is read tells whether it does. -/
lemma Awaits.reads (h : Awaits g r dr) (hmoves : AtaPoint.moves (.poll g.drive.status) = true) :
    Requested g r dr := h.requested (of_decide_eq_true hmoves).2

lemma Holds.of_stage (hserved : point.served dr = true) (h : Stage g r dr point) :
    Holds g r dr point := by
  rw [Holds, if_pos hserved]
  exact h

lemma Holds.of_rests (hserved : point.served dr = false) (h : Rests g) : Holds g r dr point := by
  rw [Holds, if_neg (by simp [hserved])]
  exact h

/-- A read that is complete is served no more. -/
lemma Awaits.holds (h : Awaits g r dr) (hpoint : point = .status ∨ point = .wait) :
    Holds g r dr point := by
  by_cases hread : dr.cmd = diskCmdRead ∧ dr.status = diskStatusIoSuccess
  · refine .of_rests ?_ (h.rests hread.2)
    rcases hpoint with rfl | rfl <;> simp [AtaPoint.served, hread]
  · rcases hpoint with rfl | rfl
    · exact .of_stage (decide_eq_true hread) h
    · exact .of_stage (decide_eq_true hread) h

/-- No other request than the one that is served is pending. -/
lemma Stage.request_eq (h : Stage g r dr point) (hr : g.request = some r') : r' = r := by
  have key : g.request = some r ∨ g.request = none := by
    cases point with
    | transferRequest => exact Or.inr (Given.toFree h).request
    | transferBlock | transferCount | setRequest => exact Or.inr h.1.request
    | setTransfer => exact Or.inl h.1
    | status | wait =>
        cases h with
        | block hp _ | more hp _ => exact Or.inl hp.request
        | complete hr _ => exact Or.inr hr.request
    | delay a | poll a | drq a =>
        cases h.2.1 with
        | block hp _ | more hp _ => exact Or.inl hp.request
        | complete hr _ => exact Or.inr hr.request
    | buffer => exact Or.inl h.2.request
    | words b k | decrement | remaining | nextBlock | clearTransfer =>
        exact Or.inl h.2.1.request
    | complete =>
        rcases h.2.1 with hp | ⟨-, ⟨hr, -⟩ | ⟨hr, -⟩⟩
        · exact Or.inl hp.request
        · exact Or.inl hr
        · exact Or.inr hr
    | success =>
        rcases h.2.1 with ⟨-, ⟨hr, -⟩ | ⟨hr, -⟩⟩
        · exact Or.inl hr
        · exact Or.inr hr
    | clearRequest => exact h.2.2.2.1
    | flush => exact Or.inr h.2.request
    | prepare | insert | enable | ready | outs l | done => exact h.elim
  rcases key with key | key
  · exact Option.some.inj (hr.symm.trans key)
  · exact absurd (hr.symm.trans key) (by simp)

lemma Awaits.undisplaced (h : Awaits g r dr) (hs : dr.status ≠ diskStatusIoSuccess) :
    Pending g r dr := by
  cases h with
  | block hp _ | more hp _ => exact hp
  | complete _ hs' => exact absurd hs' hs

/-- A request that has been issued and is not complete is the pending one. -/
lemma Stage.undisplaced (h : Stage g r dr point) (hissued : point.issued = true)
    (hs : dr.status ≠ diskStatusIoSuccess) :
    g.request = some r
      ∧ (g.transfer = true ∧ g.owner = some r ∨ g.drive.Exchanged dr.op dr.lba dr.buffer) := by
  have of_pending (hp : Pending g r dr) : g.request = some r
      ∧ (g.transfer = true ∧ g.owner = some r ∨ g.drive.Exchanged dr.op dr.lba dr.buffer) :=
    ⟨hp.request, Or.inl ⟨hp.transfer, hp.owner⟩⟩
  have of_closing (hc : Closing g r dr) (hm : DriveDone g dr) : g.request = some r
      ∧ (g.transfer = true ∧ g.owner = some r ∨ g.drive.Exchanged dr.op dr.lba dr.buffer) :=
    ⟨(hc.2.resolve_right fun h => hs h.2).1, Or.inr hm.exchanged⟩
  cases point with
  | status | wait => exact of_pending (Awaits.undisplaced h hs)
  | delay a | poll a | drq a => exact of_pending (h.2.1.undisplaced hs)
  | buffer => exact of_pending h.2.toPending
  | words b k | decrement | remaining | nextBlock | clearTransfer => exact of_pending h.2.1
  | complete => exact h.2.1.elim of_pending (of_closing · h.2.2)
  | success => exact of_closing h.2.1 h.2.2
  | clearRequest => exact absurd h.2.2.1 hs
  | _ => cases hissued

/-- Where an interrupt finds that the drive requests data, the process waits for its block, and
goes on waiting after the interrupt. -/
lemma Stage.requested (h : Stage g r dr point) (hr : g.request = some r)
    (ht : g.transfer = true) (hd : g.drive.Requests) (hm : point.moves = false) :
    Requested g r dr ∧ ∀ g' dr', dr'.cmd = dr.cmd → Awaits g' r dr' → Holds g' r dr' point := by
  cases point with
  | transferRequest => exact absurd (hr.symm.trans (Given.toFree h).request) (by simp)
  | transferBlock | transferCount | setRequest =>
      exact absurd (hr.symm.trans h.1.request) (by simp)
  | setTransfer => exact absurd (ht.symm.trans h.2.1) (by simp)
  | status => exact ⟨Awaits.requested h hd, fun _ _ _ ha => ha.holds (Or.inl rfl)⟩
  | wait => exact ⟨Awaits.requested h hd, fun _ _ _ ha => ha.holds (Or.inr rfl)⟩
  | delay a | poll a | drq a =>
      exact ⟨h.2.1.requested hd, fun _ _ hcmd ha => .of_stage rfl
        ⟨hcmd.trans h.1, ha, fun hmoves => absurd (hm.symm.trans hmoves) (by simp)⟩⟩
  | buffer | words b k => cases hm
  | decrement | remaining | nextBlock | clearTransfer | complete | success =>
      exact absurd hd h.2.2.quiet.now
  | clearRequest => exact absurd hd h.2.2.2.2.quiet.now
  | flush => exact absurd hd h.2.quiet.now
  | prepare | insert | enable | ready | outs l | done => exact h.elim

/-- Where an interrupt finds that the transfer is complete, the process has moved the block, and
the interrupt completes the request. -/
lemma Stage.closed (h : Stage g r dr point) (hr : g.request = some r) (ht : g.transfer = false)
    (hpoint : point ≠ .setTransfer) :
    dr.cmd = diskCmdWrite ∧ DriveDone g dr ∧ ∀ g' dr', dr'.cmd = dr.cmd → g'.request = none →
      g'.transfer = false → dr'.status = diskStatusIoSuccess → DriveDone g' dr' →
      Holds g' r dr' point := by
  have of_pending (hp : Pending g r dr) : False := absurd (ht.symm.trans hp.transfer) (by simp)
  have of_awaits (ha : Awaits g r dr) : False := by
    cases ha with
    | block hp _ | more hp _ => exact of_pending hp
    | complete hrests _ => exact absurd (hr.symm.trans hrests.request) (by simp)
  cases point with
  | transferRequest => exact absurd (hr.symm.trans (Given.toFree h).request) (by simp)
  | transferBlock | transferCount | setRequest =>
      exact absurd (hr.symm.trans h.1.request) (by simp)
  | setTransfer => exact absurd rfl hpoint
  | status | wait => exact (of_awaits h).elim
  | delay a | poll a | drq a => exact (of_awaits h.2.1).elim
  | buffer => exact (of_pending h.2.toPending).elim
  | words b k | decrement | remaining | nextBlock | clearTransfer => exact (of_pending h.2.1).elim
  | complete =>
      exact ⟨h.1, h.2.2, fun _ _ hcmd hr' ht' hs' hm' => .of_stage rfl
        ⟨hcmd.trans h.1, Or.inr ⟨ht', Or.inr ⟨hr', hs'⟩⟩, hm'⟩⟩
  | success =>
      exact ⟨h.1, h.2.2, fun _ _ hcmd hr' ht' hs' hm' => .of_stage rfl
        ⟨hcmd.trans h.1, ⟨ht', Or.inr ⟨hr', hs'⟩⟩, hm'⟩⟩
  | clearRequest =>
      exact ⟨h.1, h.2.2.2.2, fun _ _ hcmd hr' ht' hs' hm' => .of_stage rfl
        ⟨hcmd.trans h.1, ht', hs', Or.inr hr', hm'⟩⟩
  | flush => exact absurd (hr.symm.trans h.2.request) (by simp)
  | prepare | insert | enable | ready | outs l | done => exact h.elim

end Stages

end AtaGlobals

open AtaGlobals

/-! ### The process whose request is served -/

/-- A step takes a process to a point, and changes no request but its own. -/
structure Goes (p : PcbId) (c : AtaCall) (s s' : AtaState) (point : AtaPoint) : Prop where
  calls : s'.calls = Function.update s.calls p (some { c with point := point })
  others : ∀ r, r ≠ c.request → s'.requests r = s.requests r
  filled : Filled (s'.requests c.request) point
  holds : Holds s'.globals c.request (s'.requests c.request) point
  completes : (s.requests c.request).status ≠ diskStatusIoSuccess →
    (s'.requests c.request).status = diskStatusIoSuccess → BlockMoved s' c.request

section Served

variable {p : PcbId} {node : Bool} {c : AtaCall} {s s' t : AtaState} {point : AtaPoint}

/-- The process goes on to a point, and no request changes. -/
lemma Goes.goto (hcalls : t.calls = s.calls) (hrequests : t.requests = s.requests)
    (hfilled : Filled (s.requests c.request) point)
    (hholds : Holds t.globals c.request (s.requests c.request) point) :
    Goes p c s (t.goto p c point) point where
  calls := by rw [AtaState.goto, hcalls]
  others r _ := congrFun hrequests r
  filled := by rwa [goto_requests, hrequests]
  holds := by
    rw [goto_requests, hrequests]
    exact hholds
  completes hs hs' := absurd (by rwa [goto_requests, hrequests] at hs') hs

/-- The process stays where it is, and no request changes. -/
lemma Goes.stay (hc : s.calls p = some c) (hcalls : t.calls = s.calls)
    (hrequests : t.requests = s.requests) (hfilled : Filled (s.requests c.request) c.point)
    (hholds : Holds t.globals c.request (s.requests c.request) c.point) :
    Goes p c s t c.point where
  calls := hcalls.trans (Function.update_eq_self_iff.mpr hc.symm).symm
  others r _ := congrFun hrequests r
  filled := by rwa [hrequests]
  holds := by rwa [hrequests]
  completes hs hs' := absurd (by rwa [hrequests] at hs') hs

/-- The statements that issue a request. -/
lemma AtaGlobals.Stage.issue (hknown : (s.requests c.request).Known)
    (h : Stage s.globals c.request (s.requests c.request) c.point)
    (hpoint : c.point ∈ [.transferRequest, .transferBlock, .transferCount, .setRequest,
      .setTransfer]) :
    ∃ s' point, runStep p node c s = .ok s' ∧ Goes p c s s' point := by
  rw [runStep]
  cases hc : c.point with
  | transferRequest =>
      rw [hc] at h
      have hgiven : Given s.globals (s.requests c.request) := h
      exact ⟨_, _, rfl, .goto rfl rfl hknown
        (.of_stage rfl ⟨⟨⟨hgiven.request, hgiven.transfer⟩, hgiven.serves, hgiven.status⟩, rfl⟩)⟩
  | transferBlock | transferCount =>
      rw [hc] at h
      exact ⟨_, _, rfl, .goto rfl rfl hknown (.of_stage rfl h)⟩
  | setRequest =>
      rw [hc] at h
      exact ⟨_, _, rfl, .goto rfl rfl hknown
        (.of_stage rfl ⟨rfl, h.1.transfer, h.2, h.1.status, h.1.serves⟩)⟩
  | setTransfer =>
      rw [hc] at h
      obtain ⟨hrequest, -, howner, hstatus, hserves⟩ := h
      exact ⟨_, _, rfl, .goto rfl rfl hknown
        (Awaits.holds (.block ⟨hrequest, rfl, howner, hstatus⟩ hserves) (Or.inl rfl))⟩
  | _ => simp [hc] at hpoint

/-- The drive rests after the flush. -/
lemma rests_flush (h : Rests s.globals) (hdrive : t.drive
    = (if s.drive.status &&& ataStatusDrdy ≠ 0 then s.drive.take .flushCache else s.drive).settle)
    (hrequest : t.pendingRequest = s.pendingRequest)
    (htransfer : t.pendingTransfer = s.pendingTransfer) : Rests t.globals := by
  refine ⟨⟨hrequest.trans h.request, htransfer.trans h.transfer⟩, ?_⟩
  change t.drive.Quiet
  rw [hdrive]
  split_ifs
  · exact Drive.Quiet.take_flush h.quiet
  · exact Drive.Quiet.settle h.quiet

/-- The statements that wait, and the flush. -/
lemma AtaGlobals.Stage.await (hc : s.calls p = some c) (hknown : (s.requests c.request).Known)
    (hserved : c.point.served (s.requests c.request) = true)
    (h : Stage s.globals c.request (s.requests c.request) c.point)
    (hpoint : c.point = .status ∨ (∃ a, c.point = .delay a) ∨ (∃ a, c.point = .poll a)
      ∨ (∃ a, c.point = .drq a) ∨ c.point = .wait ∨ c.point = .flush) :
    ∃ s' point, runStep p node c s = .ok s' ∧ Goes p c s s' point := by
  rw [runStep]
  rcases hpoint with hp | ⟨a, hp⟩ | ⟨a, hp⟩ | ⟨a, hp⟩ | hp | hp <;> rw [hp] at h hserved <;>
    simp only [hp]
  · have hawaits : Awaits s.globals c.request (s.requests c.request) := h
    split_ifs with hwrite
    · exact ⟨_, _, rfl, .goto rfl rfl hknown (.of_stage rfl ⟨hwrite, hawaits, hawaits.reads⟩)⟩
    · exact ⟨_, _, rfl, .goto rfl rfl hknown (hawaits.holds (Or.inr rfl))⟩
  · exact ⟨_, _, rfl, .goto rfl rfl hknown (.of_stage rfl h)⟩
  · split_ifs with hbusy
    · exact ⟨_, _, rfl, .goto rfl rfl hknown (.of_stage rfl ⟨h.1, h.2.1, h.2.1.reads⟩)⟩
    · exact ⟨_, _, rfl, .goto rfl rfl hknown (.of_stage rfl ⟨h.1, h.2.1, fun hmoves =>
        h.2.2 (decide_eq_true ⟨not_not.mp hbusy, of_decide_eq_true hmoves⟩)⟩)⟩
  · split_ifs with hdrq
    · exact ⟨_, _, rfl, .goto rfl rfl hknown (.of_stage rfl ⟨h.1, h.2.2 (decide_eq_true hdrq)⟩)⟩
    · exact ⟨_, _, rfl, .goto rfl rfl hknown (h.2.1.holds (Or.inr rfl))⟩
  · have hawaits : Awaits s.globals c.request (s.requests c.request) := h
    split_ifs with hstatus hwrite
    · exact ⟨_, _, rfl, .goto rfl rfl hknown (.of_stage rfl ⟨hwrite, hawaits.rests hstatus⟩)⟩
    · exact absurd ⟨hknown.resolve_right hwrite, hstatus⟩ (of_decide_eq_true hserved)
    · exact ⟨_, _, rfl, .stay hc rfl rfl (hp ▸ hknown) (hp ▸ hawaits.holds (Or.inr rfl))⟩
  · exact ⟨_, _, rfl, .goto rfl rfl trivial (.of_rests rfl (rests_flush h.2 rfl rfl rfl))⟩

/-- The statements that move a block. -/
lemma AtaGlobals.Stage.move (hknown : (s.requests c.request).Known)
    (h : Stage s.globals c.request (s.requests c.request) c.point)
    (hpoint : c.point = .buffer ∨ (∃ b k, c.point = .words b k) ∨ c.point = .decrement
      ∨ c.point = .remaining ∨ c.point = .nextBlock ∨ c.point = .clearTransfer) :
    ∃ s' point, runStep p node c s = .ok s' ∧ Goes p c s s' point := by
  rcases hpoint with hp | ⟨b, k, hp⟩ | hp | hp | hp | hp <;> rw [hp] at h
  · obtain ⟨hwrite, hreq⟩ := h
    simp only [runStep, hp, transferRequest_eq hreq.transfer hreq.owner, bind, Except.bind]
    exact ⟨_, _, rfl, .goto rfl rfl hknown (.of_stage rfl ⟨hwrite, hreq.toPending, rfl,
      Or.inl ⟨by decide, hreq.serves.exchanging hreq.requests⟩⟩)⟩
  · obtain ⟨hwrite, hpending, rfl, hk⟩ := h
    have hop : (s.requests c.request).op = .writeSectors := by
      rw [DiskRequest.op, hwrite]
      rfl
    rcases hk with ⟨hk, hex⟩ | ⟨rfl, hmoved⟩
    · rw [hop] at hex
      simp only [runStep, hp, if_pos hk]
      refine ⟨_, _, rfl, .goto rfl rfl hknown (.of_stage rfl ⟨hwrite, hpending.keeps, rfl, ?_⟩)⟩
      rcases Nat.lt_or_eq_of_le hk with hlt | heq
      · exact Or.inl ⟨hlt, hop.symm ▸ hex.word hlt⟩
      · obtain ⟨hexchanged, hquiet⟩ := hex.last heq
        exact Or.inr ⟨heq, hop.symm ▸ hexchanged, hquiet⟩
    · simp only [runStep, hp, lt_irrefl, if_false]
      exact ⟨_, _, rfl, .goto rfl rfl hknown (.of_stage rfl ⟨hwrite, hpending, hmoved⟩)⟩
  · have htransfer : s.pendingTransfer = true := h.2.1.transfer
    simp only [runStep, hp, if_pos htransfer]
    exact ⟨_, _, rfl, .goto rfl rfl hknown (.of_stage rfl h)⟩
  · have htransfer : s.pendingTransfer = true := h.2.1.transfer
    simp only [runStep, hp, if_pos htransfer]
    split_ifs
    · exact ⟨_, _, rfl, .goto rfl rfl hknown (.of_stage rfl h)⟩
    · exact ⟨_, _, rfl, .goto rfl rfl hknown (.of_stage rfl h)⟩
  · have htransfer : s.pendingTransfer = true := h.2.1.transfer
    simp only [runStep, hp, if_pos htransfer]
    exact ⟨_, _, rfl, .goto rfl rfl hknown (.of_stage rfl ⟨h.1, Or.inl h.2.1, h.2.2⟩)⟩
  · simp only [runStep, hp]
    exact ⟨_, _, rfl, .goto rfl rfl hknown (.of_stage rfl ⟨h.1,
      Or.inr ⟨rfl, Or.inl ⟨h.2.1.request, h.2.1.status⟩⟩, h.2.2.exchanged, h.2.2.quiet⟩)⟩

/-- A request that is complete. -/
def DiskRequest.completed (dr : DiskRequest) : DiskRequest :=
  { dr with status := diskStatusIoSuccess }

/-- The request is complete with the step, and its block has been moved. -/
lemma Goes.complete (hcalls : s'.calls = Function.update s.calls p (some { c with point := point }))
    (hrequests : s'.requests
      = Function.update s.requests c.request (s.requests c.request).completed)
    (hfilled : Filled (s.requests c.request).completed point)
    (hmoved : DriveDone s'.globals (s.requests c.request))
    (hholds : Holds s'.globals c.request (s.requests c.request).completed point) :
    Goes p c s s' point where
  calls := hcalls
  others r hr := by rw [hrequests, Function.update_of_ne hr]
  filled := by rwa [hrequests, Function.update_self]
  holds := by rwa [hrequests, Function.update_self]
  completes _ _ := by
    rw [BlockMoved, hrequests, Function.update_self]
    exact hmoved.exchanged

/-- The statements after a block that the process has moved. -/
lemma AtaGlobals.Stage.close (hknown : (s.requests c.request).Known)
    (h : Stage s.globals c.request (s.requests c.request) c.point)
    (hpoint : c.point = .complete ∨ c.point = .success ∨ c.point = .clearRequest) :
    ∃ s' point, runStep p node c s = .ok s' ∧ Goes p c s s' point := by
  rcases hpoint with hp | hp | hp <;> rw [hp] at h
  · obtain ⟨hwrite, hpending | hclosing, hmoved⟩ := h
    · have htransfer : s.pendingTransfer = true := hpending.transfer
      simp only [runStep, hp, if_pos htransfer]
      exact ⟨_, _, rfl, .goto rfl rfl hknown (Awaits.holds (.more hpending hmoved) (Or.inr rfl))⟩
    · have htransfer : s.pendingTransfer = false := hclosing.1
      simp only [runStep, hp, if_neg (show ¬ s.pendingTransfer = true by simp [htransfer])]
      exact ⟨_, _, rfl, .goto rfl rfl hknown (.of_stage rfl ⟨hwrite, hclosing, hmoved⟩)⟩
  · obtain ⟨hwrite, ⟨htransfer, ⟨hr, -⟩ | ⟨hr, hs⟩⟩, hmoved⟩ := h
    · simp only [runStep, hp, setPendingStatus_of_some hr]
      exact ⟨_, _, rfl, .complete rfl rfl hknown hmoved
        (.of_stage rfl ⟨hwrite, htransfer, rfl, Or.inl hr, hmoved.exchanged, hmoved.quiet⟩)⟩
    · have hnone : s.setPendingStatus diskStatusIoSuccess = s := by
        have hr : s.pendingRequest = none := hr
        simp only [setPendingStatus, hr]
      simp only [runStep, hp, hnone]
      exact ⟨_, _, rfl, .goto rfl rfl hknown
        (.of_stage rfl ⟨hwrite, htransfer, hs, Or.inr hr, hmoved⟩)⟩
  · obtain ⟨-, htransfer, hs, -, hmoved⟩ := h
    simp only [runStep, hp]
    exact ⟨_, _, rfl, .goto rfl rfl hknown
      (Awaits.holds (.complete ⟨⟨rfl, htransfer⟩, hmoved.quiet⟩ hs) (Or.inr rfl))⟩

/-- **A step of the process whose request is served** leads to the next stage. -/
lemma AtaGlobals.Stage.step (hc : s.calls p = some c) (hknown : (s.requests c.request).Known)
    (hserved : c.point.served (s.requests c.request) = true)
    (h : Stage s.globals c.request (s.requests c.request) c.point) :
    ∃ s' point, runStep p node c s = .ok s' ∧ Goes p c s s' point := by
  cases hp : c.point with
  | transferRequest | transferBlock | transferCount | setRequest | setTransfer =>
      exact h.issue hknown (by simp [hp])
  | status | delay a | poll a | drq a | wait | flush =>
      exact h.await hc hknown hserved (by simp [hp])
  | buffer | words b k | decrement | remaining | nextBlock | clearTransfer =>
      exact h.move hknown (by simp [hp])
  | complete | success | clearRequest => exact h.close hknown (by simp [hp])
  | prepare | insert | enable | ready | outs l | done =>
      rw [hp] at hserved
      cases hserved

/-- **An interrupt for the request that is served** leads to the next stage as well. -/
lemma AtaGlobals.Stage.interrupt (hc : s.calls p = some c) (hknown : (s.requests c.request).Known)
    (hserved : c.point.served (s.requests c.request) = true)
    (h : Stage s.globals c.request (s.requests c.request) c.point)
    (hr : s.pendingRequest = some c.request) (hpoint : c.point ≠ .setTransfer)
    (hmoves : s.drive.Requests → c.point.moves = false) :
    ∃ s', ataIsr s = .ok s' ∧ Goes p c s s' c.point := by
  have hcall : s.calls = Function.update s.calls p (some { c with point := c.point }) :=
    (Function.update_eq_self_iff.mpr hc.symm).symm
  cases ht : s.pendingTransfer with
  | false =>
      -- the transfer is complete already: the process has moved the block of its write
      obtain ⟨hwrite, hmoved, hnext⟩ := h.closed hr ht hpoint
      exact ⟨_, ataIsr_of_write hr hwrite ht, .complete hcall rfl (.of_served hserved hknown)
        ⟨hmoved.exchanged, hmoved.quiet⟩
        (hnext _ _ rfl rfl ht rfl ⟨hmoved.exchanged, hmoved.quiet⟩)⟩
  | true =>
      by_cases hd : s.drive.Requests
      · obtain ⟨hreq, hnext⟩ := h.requested hr ht hd (hmoves hd)
        obtain ⟨t, hdone, hisr⟩ := ataIsr_eq hr ht hreq.owner hknown hd
        have hmoved : t.drive.Exchanged (s.requests c.request).op (s.requests c.request).lba
            (s.requests c.request).buffer ∧ t.drive.Quiet :=
          hdone.drive ▸ hreq.serves.exchange hd
        -- with more blocks to come the request stays pending, and the drive has no command
        by_cases hmore : t.pendingTransfer = true
        · rw [if_pos hmore] at hisr
          refine ⟨t, hisr, .stay hc hdone.calls hdone.requests (.of_served hserved hknown) ?_⟩
          exact hnext _ _ rfl (.more ⟨hdone.request.trans hr, hmore, hdone.owner.trans hreq.owner,
            hreq.status⟩ ⟨hmoved.1, hmoved.2⟩)
        · rw [if_neg hmore, setPendingStatus_of_some (hdone.request.trans hr)] at hisr
          refine ⟨_, hisr, .complete (hdone.calls.trans hcall) ?_ (.of_served hserved hknown)
            ⟨hmoved.1, hmoved.2⟩ ?_⟩
          · simp only [setReq, hdone.requests]
            rfl
          · exact hnext _ _ rfl
              (.complete ⟨⟨rfl, Bool.eq_false_of_not_eq_true hmore⟩, hmoved.2⟩ rfl)
      · exact ⟨s, ataIsr_of_not_requests hr ht hd,
          .stay hc rfl rfl (.of_served hserved hknown) (.of_stage hserved h)⟩

end Served

end Sp2
