import Sp2.Devices.AtaStages

/-!
Requests for the disk driver that come while others are served.

* `Undisplaced`: a request that has been issued is the pending one until it is complete, and the
  pending transfer is its own until its block has been moved.
* `Completes`: a step that sets the status of a request to `DISK_STATUS_IO_SUCCESS` finds that
  the block of the request has been moved.
* `AtaSafe`: a command is given only while no other request is served, with the registers for the
  block of the request, and no interrupt comes between the two assignments that issue a request,
  or where a process is about to move a block itself.
* `Phase`, `AtaInv`: at most one request is served, and its process is at a stage.
* `Aside`: what a step of another process does.
* `requests_served`: **in every run of safe steps requests do not interfere**, and no step
  dereferences `_current_pending_transfer` while it is null.
-/

namespace Sp2

open Transition AtaState AtaGlobals

/-! ### The statement -/

/-- A request that has been issued is not displaced before it completes. -/
structure Undisplaced (s : AtaState) : Prop where
  request : ∀ p, ∀ c ∈ s.calls p, c.point.issued = true →
    (s.requests c.request).status ≠ diskStatusIoSuccess → s.pendingRequest = some c.request
  transfer : ∀ p, ∀ c ∈ s.calls p, c.point.issued = true →
    (s.requests c.request).status ≠ diskStatusIoSuccess →
    s.pendingTransfer = true ∧ s.transfer.request = some c.request ∨ BlockMoved s c.request

/-- The requests that complete in a step are those of processes whose block has been moved. -/
def Completes (s s' : AtaState) : Prop :=
  ∀ r, (s.requests r).status ≠ diskStatusIoSuccess →
    (s'.requests r).status = diskStatusIoSuccess →
    (∃ p, ∃ c ∈ s'.calls p, c.request = r) ∧ BlockMoved s' r

/-- The request of a process is served. -/
def AtaState.Served (s : AtaState) (p : PcbId) : Prop :=
  ∃ c ∈ s.calls p, c.point.served (s.requests c.request) = true

instance (s : AtaState) (p : PcbId) : Decidable (s.Served p) :=
  decidable_of_iff ((s.calls p).any fun c => c.point.served (s.requests c.request)) (by
    rw [Option.any_eq_true]
    rfl)

/-- The steps after which requests do not interfere. -/
def AtaSafe (s : AtaState) : AtaEvent → Prop
  | .run p _ => ∀ c ∈ s.calls p, c.point = .outs [] →
      s.drive.block = (s.requests c.request).lba ∧ ∀ q, q ≠ p → ¬ s.Served q
  | .interrupt => ∀ p, ∀ c ∈ s.calls p,
      c.point ≠ .setTransfer ∧ (s.drive.Requests → c.point.moves = false)
  | .start _ _ | .settle => True

instance (s : AtaState) : (e : AtaEvent) → Decidable (AtaSafe s e)
  | .run p _ => inferInstanceAs (Decidable (∀ c ∈ s.calls p, c.point = .outs [] →
      s.drive.block = (s.requests c.request).lba ∧ ∀ q, q ≠ p → ¬ s.Served q))
  | .interrupt => inferInstanceAs (Decidable (∀ p, ∀ c ∈ s.calls p,
      c.point ≠ .setTransfer ∧ (s.drive.Requests → c.point.moves = false)))
  | .start _ _ | .settle => inferInstanceAs (Decidable True)

/-! ### The invariant -/

/-- Either no request is served, or that of one process is. -/
inductive Phase (s : AtaState) : Prop
  | idle (nobody : ∀ p, ¬ s.Served p) (rests : Rests s.globals)
  | busy {p : PcbId} {c : AtaCall} (call : s.calls p = some c)
      (served : c.point.served (s.requests c.request) = true)
      (stage : Stage s.globals c.request (s.requests c.request) c.point)
      (others : ∀ q, q ≠ p → ¬ s.Served q)

structure AtaInv (s : AtaState) : Prop where
  calls : CallsSound s
  filled : ∀ p, ∀ c ∈ s.calls p, Filled (s.requests c.request) c.point
  phase : Phase s

/-! ### The other processes -/

/-- A step of a process whose request is not served: only that request changes, it does not
complete, and is not served afterwards. -/
structure Aside (p : PcbId) (r : RequestId) (s s' : AtaState) (o : Option AtaCall) : Prop where
  calls : s'.calls = Function.update s.calls p o
  others : ∀ r', r' ≠ r → s'.requests r' = s.requests r'
  own : ∀ c ∈ o, c.request = r
  filled : ∀ c ∈ o, Filled (s'.requests r) c.point
  unserved : ∀ c ∈ o, c.point.served (s'.requests r) = false
  status : (s.requests r).status ≠ diskStatusIoSuccess →
    (s'.requests r).status ≠ diskStatusIoSuccess
  globals : s'.globals = { s.globals with drive := s'.drive }
  keeps : s.drive.Keeps s'.drive

section Others

variable {p q : PcbId} {node : Bool} {c c' : AtaCall} {s s' t : AtaState} {point : AtaPoint}
  {r : RequestId} {o : Option AtaCall}

/-- The process goes on, and no request changes. -/
lemma Aside.goto (hcalls : t.calls = s.calls) (hrequests : t.requests = s.requests)
    (hglobals : t.globals = { s.globals with drive := t.drive }) (hkeeps : s.drive.Keeps t.drive)
    (hfilled : Filled (s.requests c.request) point)
    (hserved : point.served (s.requests c.request) = false) :
    Aside p c.request s (t.goto p c point) (some { c with point := point }) where
  calls := by rw [AtaState.goto, hcalls]
  others r _ := congrFun hrequests r
  own := by simp
  filled := by simpa [hrequests] using hfilled
  unserved := by simpa [hrequests] using hserved
  status := by simp [hrequests]
  globals := hglobals
  keeps := hkeeps

/-- The process stays where it is. -/
lemma Aside.stay (hc : s.calls p = some c) (hfilled : Filled (s.requests c.request) c.point)
    (hserved : c.point.served (s.requests c.request) = false) :
    Aside p c.request s s (some c) where
  calls := (Function.update_eq_self_iff.mpr hc.symm).symm
  others _ _ := rfl
  own := by simp
  filled := by simpa using hfilled
  unserved := by simpa using hserved
  status := id
  globals := rfl
  keeps := .refl _

/-- The process changes its request, and goes on. -/
lemma Aside.setReq {f : DiskRequest → DiskRequest} (hcalls : t.calls = s.calls)
    (hrequests : t.requests = s.requests) (hglobals : t.globals = s.globals)
    (hdrive : t.drive = s.drive) (hfilled : Filled (f (s.requests c.request)) point)
    (hserved : point.served (f (s.requests c.request)) = false)
    (hstatus : (s.requests c.request).status ≠ diskStatusIoSuccess →
      (f (s.requests c.request)).status ≠ diskStatusIoSuccess) :
    Aside p c.request s ((t.setReq c.request f).goto p c point)
      (some { c with point := point }) where
  calls := by rw [AtaState.goto, setReq_calls, hcalls]
  others r hr := by rw [goto_requests, setReq_of_ne f hr, hrequests]
  own := by simp
  filled := by simpa [setReq_self, hrequests] using hfilled
  unserved := by simpa [setReq_self, hrequests] using hserved
  status := by simpa [setReq_self, hrequests] using hstatus
  globals := hglobals.trans (by rw [goto_drive, setReq_drive, hdrive]; rfl)
  keeps := hdrive ▸ .refl _

/-- The statements before the drive is addressed: the request is filled in, and inserted. -/
lemma aside_prepare (hpoint : c.point = .prepare ∨ c.point = .insert) :
    ∃ s' o, runStep p node c s = .ok s' ∧ Aside p c.request s s' o := by
  rcases hpoint with hp | hp
  · by_cases hi : c.i < c.job.count
    · simp only [runStep, hp, if_pos hi]
      exact ⟨_, _, rfl, .setReq rfl rfl rfl rfl trivial rfl id⟩
    · simp only [runStep, hp, if_neg hi]
      refine ⟨_, none, rfl, ⟨rfl, fun _ _ => rfl, ?_, ?_, ?_, id, rfl, .refl _⟩⟩ <;> simp
  · by_cases hknown : (s.requests c.request).Known
    · simp only [runStep, hp, if_pos (show _ ∨ _ from hknown)]
      have hpending : (if (s.requests c.request).cmd = diskCmdRead then diskStatusReadPending
          else diskStatusWritePending) ≠ diskStatusIoSuccess := by
        split_ifs <;> decide
      cases node with
      | true => exact ⟨_, _, rfl, .setReq rfl rfl rfl rfl ⟨hknown, hpending⟩ rfl fun _ => hpending⟩
      | false =>
          have hinsert : diskErrIoQueueInsert ≠ diskStatusIoSuccess := by decide
          exact ⟨_, _, rfl, .setReq rfl rfl rfl rfl ⟨hknown, hinsert⟩ rfl fun _ => hinsert⟩
    · simp only [runStep, hp, if_neg (show ¬ (_ ∨ _) from hknown)]
      exact ⟨_, _, rfl, .setReq rfl rfl rfl rfl trivial rfl fun _ =>
        show diskErrInvalidCmd ≠ diskStatusIoSuccess by decide⟩

/-- **A step of a process whose request is not served**, other than the one that gives the
command, changes nothing for the others. -/
lemma aside_step (hc : s.calls p = some c) (hfilled : Filled (s.requests c.request) c.point)
    (hserved : c.point.served (s.requests c.request) = false) (hpoint : c.point ≠ .outs []) :
    ∃ s' o, runStep p node c s = .ok s' ∧ Aside p c.request s s' o := by
  cases hp : c.point with
  | prepare => exact aside_prepare (Or.inl hp)
  | insert => exact aside_prepare (Or.inr hp)
  | enable =>
      rw [hp] at hfilled
      simp only [runStep, hp]
      exact ⟨_, _, rfl, .goto rfl rfl rfl (.of_eq rfl rfl rfl) hfilled rfl⟩
  | ready =>
      simp only [runStep, hp]
      split_ifs
      · exact ⟨_, _, rfl, .stay hc hfilled hserved⟩
      · rw [hp] at hfilled
        exact ⟨_, _, rfl, .goto rfl rfl rfl (.refl _) hfilled rfl⟩
  | outs l =>
      rw [hp] at hfilled
      cases l with
      | nil => exact absurd hp hpoint
      | cons x l =>
          simp only [runStep, hp]
          exact ⟨_, _, rfl, .goto rfl rfl rfl (.of_eq rfl rfl rfl) hfilled rfl⟩
  | status =>
      rw [hp] at hfilled hserved
      obtain ⟨hread, -⟩ := not_not.mp (of_decide_eq_false hserved)
      simp only [runStep, hp, hread, if_neg (show diskCmdRead ≠ diskCmdWrite by decide)]
      exact ⟨_, _, rfl, .goto rfl rfl rfl (.refl _) hfilled hserved⟩
  | wait =>
      rw [hp] at hserved
      obtain ⟨hread, hs⟩ := not_not.mp (of_decide_eq_false hserved)
      simp only [runStep, hp, hread, if_pos hs,
        if_neg (show diskCmdRead ≠ diskCmdWrite by decide)]
      exact ⟨_, _, rfl, .goto rfl rfl rfl (.refl _) trivial rfl⟩
  | done =>
      simp only [runStep, hp]
      exact ⟨_, _, rfl, .goto (c := { c with i := c.i + 1 }) rfl rfl rfl (.refl _) trivial rfl⟩
  | _ =>
      rw [hp] at hserved
      cases hserved

end Others

/-! ### The steps keep the invariant -/

section Steps

variable {p q : PcbId} {node : Bool} {c d : AtaCall} {s s' : AtaState} {point : AtaPoint}
  {r : RequestId} {o : Option AtaCall} {e : AtaEvent}

/-- The command for a request, while no other is served. -/
lemma command_step (hp : c.point = .outs []) (hfilled : Filled (s.requests c.request) c.point)
    (hrests : Rests s.globals) (hblock : s.drive.block = (s.requests c.request).lba) :
    ∃ s' point, runStep p node c s = .ok s' ∧ Goes p c s s' point := by
  rw [hp] at hfilled
  have hserves : (s.drive.take (s.requests c.request).op).Serves (s.requests c.request).op
      (s.requests c.request).lba := hblock ▸ Drive.Quiet.take hrests.quiet
  simp only [runStep, hp]
  exact ⟨_, _, rfl, .goto rfl rfl hfilled.1
    (.of_stage rfl ⟨⟨hrests.request, hrests.transfer⟩, hserves, hfilled.2⟩)⟩

lemma served_iff (hcalls : s'.calls q = s.calls q)
    (hrequests : ∀ d ∈ s.calls q, s'.requests d.request = s.requests d.request) :
    s'.Served q ↔ s.Served q := by
  rw [AtaState.Served, AtaState.Served, hcalls]
  exact exists_congr fun d => and_congr_right fun hd => by rw [hrequests d hd]

/-- The other processes keep their calls, and the requests of these. -/
lemma others_kept (hcalls : s'.calls = Function.update s.calls p o)
    (hothers : ∀ r', r' ≠ r → s'.requests r' = s.requests r')
    (hown : ∀ q, q ≠ p → ∀ d ∈ s.calls q, d.request ≠ r) (q : PcbId) (hq : q ≠ p) :
    s'.calls q = s.calls q ∧ ∀ d ∈ s.calls q, s'.requests d.request = s.requests d.request :=
  ⟨by rw [hcalls, Function.update_of_ne hq], fun d hd => hothers _ (hown q hq d hd)⟩

/-- Only the process that takes the step has its request. -/
lemma CallsSound.own (hs : CallsSound s) (hc : s.calls p = some c) :
    ∀ q, q ≠ p → ∀ d ∈ s.calls q, d.request ≠ c.request := fun q hq d hd heq =>
  hq (hs.distinct q p d hd c hc heq)

/-- A process whose request is served is the one that takes the step. -/
lemma Goes.inv (hs : AtaInv s) (hc : s.calls p = some c) (hothers : ∀ q, q ≠ p → ¬ s.Served q)
    (hcalls : CallsSound s') (h : Goes p c s s' point) : AtaInv s' ∧ Completes s s' := by
  have hcall : s'.calls p = some { c with point := point } := by
    rw [h.calls, Function.update_self]
  have hother := others_kept h.calls h.others (hs.calls.own hc)
  have hunserved : ∀ q, q ≠ p → ¬ s'.Served q := fun q hq =>
    (served_iff (hother q hq).1 (hother q hq).2).not.mpr (hothers q hq)
  refine ⟨⟨hcalls, fun q d hd => ?_, ?_⟩, fun r hr hr' => ?_⟩
  · rcases mem_calls h.calls hd with ⟨-, hd⟩ | ⟨hq, hd⟩
    · obtain rfl := Option.mem_some_iff.mp hd
      exact h.filled
    · rw [(hother q hq).2 d hd]
      exact hs.filled q d hd
  · have hholds := h.holds
    rw [Holds] at hholds
    split_ifs at hholds with hserved
    · exact .busy hcall hserved hholds hunserved
    -- the request is served no more: it is a complete read, or its write has been flushed
    · refine .idle (fun q => ?_) hholds
      by_cases hq : q = p
      · rintro ⟨d, hd, hd'⟩
        rw [hq, hcall] at hd
        obtain rfl := Option.mem_some_iff.mp hd
        exact hserved hd'
      · exact hunserved q hq
  · obtain rfl : r = c.request := not_imp_comm.mp (h.others r) fun heq => hr (heq ▸ hr')
    exact ⟨⟨p, _, hcall, rfl⟩, h.completes hr hr'⟩

/-- The request that is served is that of another process than the one that takes the step. -/
lemma Aside.inv (hs : AtaInv s) (hp : ¬ s.Served p)
    (hown : ∀ q, q ≠ p → ∀ d ∈ s.calls q, d.request ≠ r) (hcalls : CallsSound s')
    (h : Aside p r s s' o) : AtaInv s' ∧ Completes s s' := by
  have hother := others_kept h.calls h.others hown
  have hunserved : ∀ q, ¬ s.Served q → ¬ s'.Served q := by
    intro q hq
    by_cases hqp : q = p
    · rintro ⟨d, hd, hd'⟩
      rw [hqp, h.calls, Function.update_self] at hd
      rw [h.own d hd, h.unserved d hd] at hd'
      cases hd'
    · exact (served_iff (hother q hqp).1 (hother q hqp).2).not.mpr hq
  refine ⟨⟨hcalls, fun q d hd => ?_, ?_⟩, fun r' hr hr' => ?_⟩
  · rcases mem_calls h.calls hd with ⟨-, hd⟩ | ⟨hq, hd⟩
    · rw [h.own d hd]
      exact h.filled d hd
    · rw [(hother q hq).2 d hd]
      exact hs.filled q d hd
  · cases hs.phase with
    | idle nobody rests =>
        exact .idle (fun q => hunserved q (nobody q)) (h.globals ▸ rests.keeps h.keeps)
    | @busy q d call served stage others =>
        have hq : q ≠ p := fun heq => hp (heq ▸ ⟨d, call, served⟩)
        have hrequest := (hother q hq).2 d call
        refine .busy ((hother q hq).1.trans call) (hrequest.symm ▸ served) ?_
          fun q' hq' => hunserved q' (others q' hq')
        rw [h.globals, hrequest]
        exact stage.keeps h.keeps
  · by_cases heq : r' = r
    · subst heq
      exact absurd hr' (h.status hr)
    · exact absurd (h.others r' heq ▸ hr') hr

/-- A step of the drive alone. -/
lemma AtaInv.drive (hs : AtaInv s) (hcalls : s'.calls = s.calls)
    (hfree : s'.freeRequests = s.freeRequests) (hrequests : s'.requests = s.requests)
    (hglobals : s'.globals = { s.globals with drive := s'.drive })
    (hkeeps : s.drive.Keeps s'.drive) : AtaInv s' ∧ Completes s s' := by
  have hserved : ∀ q, s'.Served q ↔ s.Served q := fun q =>
    served_iff (congrFun hcalls q) fun _ _ => by rw [hrequests]
  refine ⟨⟨hs.calls.congr hcalls hfree, fun q d hd => ?_, ?_⟩, fun r hr hr' => ?_⟩
  · rw [hrequests]
    exact hs.filled q d (hcalls ▸ hd)
  · cases hs.phase with
    | idle nobody rests =>
        exact .idle (fun q => (hserved q).not.mpr (nobody q)) (hglobals ▸ rests.keeps hkeeps)
    | busy call served stage others =>
        refine .busy ((congrFun hcalls _).trans call) (hrequests.symm ▸ served) ?_
          fun q' hq' => (hserved q').not.mpr (others q' hq')
        rw [hglobals, hrequests]
        exact stage.keeps hkeeps
  · exact absurd (hrequests ▸ hr') hr

lemma Completes.refl (s : AtaState) : Completes s s := fun _ hr hr' => absurd hr' hr

lemma AtaInv.rests (hs : AtaInv s) (hnobody : ∀ q, ¬ s.Served q) : Rests s.globals := by
  cases hs.phase with
  | idle _ rests => exact rests
  | busy call served _ _ => exact absurd ⟨_, call, served⟩ (hnobody _)

/-- The process whose request is served is at its stage, and the only one. -/
lemma AtaInv.stage (hs : AtaInv s) (hc : s.calls p = some c)
    (hserved : c.point.served (s.requests c.request) = true) :
    Stage s.globals c.request (s.requests c.request) c.point ∧ ∀ q, q ≠ p → ¬ s.Served q := by
  have hp : s.Served p := ⟨c, hc, hserved⟩
  cases hs.phase with
  | idle nobody _ => exact absurd hp (nobody p)
  | @busy q d call _ stage others =>
      obtain rfl : p = q := by_contra fun hq => others p hq hp
      obtain rfl := Option.some.inj (hc.symm.trans call)
      exact ⟨stage, others⟩

/-- **A statement of a process** that is safe keeps the invariant. -/
lemma AtaInv.run (hs : AtaInv s) (hc : s.calls p = some c) (hsafe : AtaSafe s (.run p node)) :
    ∃ s', runStep p node c s = .ok s' ∧ (CallsSound s' → AtaInv s' ∧ Completes s s') := by
  have hfilled := hs.filled p c hc
  by_cases hserved : c.point.served (s.requests c.request) = true
  · obtain ⟨hstage, hothers⟩ := hs.stage hc hserved
    obtain ⟨s', point, hstep, hgoes⟩ := hstage.step hc (hfilled.known hserved) hserved
    exact ⟨s', hstep, fun hcalls => hgoes.inv hs hc hothers hcalls⟩
  · rw [Bool.not_eq_true] at hserved
    have hp : ¬ s.Served p := by
      rintro ⟨d, hd, hd'⟩
      obtain rfl := Option.some.inj (hc.symm.trans hd)
      rw [hserved] at hd'
      cases hd'
    by_cases hpoint : c.point = .outs []
    · obtain ⟨hblock, hothers⟩ := hsafe c hc hpoint
      have hrests := hs.rests fun q hq => by
        by_cases hqp : q = p
        · exact hp (hqp ▸ hq)
        · exact hothers q hqp hq
      obtain ⟨s', point, hstep, hgoes⟩ := command_step hpoint hfilled hrests hblock
      exact ⟨s', hstep, fun hcalls => hgoes.inv hs hc hothers hcalls⟩
    · obtain ⟨s', o, hstep, haside⟩ := aside_step hc hfilled hserved hpoint
      exact ⟨s', hstep, fun hcalls => haside.inv hs hp (hs.calls.own hc) hcalls⟩

/-- **An interrupt** that is safe keeps the invariant. -/
lemma AtaInv.interrupt (hs : AtaInv s) (hsafe : AtaSafe s .interrupt) :
    ∃ s', ataIsr s = .ok s' ∧ (CallsSound s' → AtaInv s' ∧ Completes s s') := by
  cases hr : s.pendingRequest with
  | none =>
      obtain ⟨b, l, hidle⟩ := exists_isrIdle s
      refine ⟨isrIdle s, by simp only [ataIsr, hr], fun _ => ?_⟩
      rw [hidle]
      exact hs.drive rfl rfl rfl rfl (Drive.keeps_settle.trans (.of_eq rfl rfl rfl))
  | some r =>
      cases hs.phase with
      | idle _ rests => exact absurd (hr.symm.trans rests.request) (by simp)
      | @busy p c call served stage others =>
          obtain rfl := stage.request_eq hr
          obtain ⟨hpoint, hmoves⟩ := hsafe p c call
          obtain ⟨s', hisr, hgoes⟩ := stage.interrupt call ((hs.filled p c call).known served)
            served hr hpoint hmoves
          exact ⟨s', hisr, fun hcalls => hgoes.inv hs call others hcalls⟩

/-- A process that enters the driver. -/
lemma AtaInv.start {job : AtaJob} (hs : AtaInv s) (h : ataStep s (.start p job) = .ok s')
    (hcalls : CallsSound s') : AtaInv s' ∧ Completes s s' := by
  rcases ataStep_start h with rfl | ⟨r, rest, hc, hfree, rfl⟩
  · exact ⟨hs, .refl s'⟩
  · have hp : ¬ s.Served p := by
      rintro ⟨d, hd, -⟩
      exact absurd (hc.symm.trans hd) (by simp)
    have hzero : DiskRequest.zero.status ≠ diskStatusIoSuccess := by decide
    refine Aside.inv (r := r) (o := some ⟨job, 0, r, .prepare⟩) hs hp (fun q _ d hd heq => ?_)
      hcalls ⟨rfl, fun r' hr' => Function.update_of_ne hr' .., by simp, by simp [Filled],
        by simp [AtaPoint.served], fun _ => ?_, rfl, .refl _⟩
    · exact hs.calls.taken q d hd (by rw [heq, hfree]; exact List.mem_cons_self)
    · simp only [setReq_self]
      exact hzero

/-- **Every safe step keeps the invariant**, and none stops at a null transfer. -/
lemma AtaInv.step (hs : AtaInv s) (hsafe : AtaSafe s e) :
    ataStep s e ≠ .error .nullTransfer
      ∧ ∀ s', ataStep s e = .ok s' → AtaInv s' ∧ Completes s s' := by
  have key : ∀ {x : Except AtaStop AtaState}, ataStep s e = x →
      (∃ s', x = .ok s' ∧ (CallsSound s' → AtaInv s' ∧ Completes s s')) →
      ataStep s e ≠ .error .nullTransfer
        ∧ ∀ s', ataStep s e = .ok s' → AtaInv s' ∧ Completes s s' := by
    rintro x hx ⟨s', rfl, hs'⟩
    refine ⟨by simp [hx], fun t ht => ?_⟩
    obtain rfl := Except.ok.inj (hx.symm.trans ht)
    exact hs' (hs.calls.step ht)
  cases e with
  | start p job =>
      refine ⟨?_, fun s' h => hs.start h (hs.calls.step h)⟩
      rw [ataStep]
      split <;> simp
  | run p node =>
      cases hc : s.calls p with
      | none => simp [ataStep, hc]
      | some c => exact key (by simp only [ataStep, hc]) (hs.run hc hsafe)
  | interrupt => exact key rfl (hs.interrupt hsafe)
  | settle => exact key rfl ⟨_, rfl, fun _ => hs.drive rfl rfl rfl rfl Drive.keeps_settle⟩

lemma AtaInitial.inv (h : AtaInitial s) (hquiet : s.drive.Quiet) : AtaInv s where
  calls := h.callsSound
  filled p c hc := absurd hc (by simp [h.calls p])
  phase := .idle (fun p => by simp [AtaState.Served, h.calls p]) ⟨⟨h.request, h.transfer⟩, hquiet⟩

/-- A request that has been issued and is not complete is served. -/
lemma served_of_issued {dr : DiskRequest} (h : point.issued = true)
    (hs : dr.status ≠ diskStatusIoSuccess) : point.served dr = true := by
  cases point with
  | status | wait => simp [AtaPoint.served, hs]
  | prepare | insert | enable | ready | outs l | done => cases h
  | _ => rfl

/-- What is proved is what the invariant is for. -/
lemma AtaInv.undisplaced (hs : AtaInv s) : Undisplaced s where
  request _ _ hc hissued hstatus :=
    ((hs.stage hc (served_of_issued hissued hstatus)).1.undisplaced hissued hstatus).1
  transfer _ _ hc hissued hstatus :=
    ((hs.stage hc (served_of_issued hissued hstatus)).1.undisplaced hissued hstatus).2

end Steps

/-- The steps after which requests do not interfere, no section being disturbed. -/
def AtaAllowed (x : AtaSystem) (e : AtaSystemEvent) : Prop :=
  Unbroken ataSections x e ∧ StepMeets AtaSafe x e

instance (x : AtaSystem) (e : AtaSystemEvent) : Decidable (AtaAllowed x e) :=
  inferInstanceAs (Decidable (_ ∧ _))

/-- **Requests do not interfere** in a run in which every command is given while no other request
is served, no interrupt comes where the process is about to touch the transfer itself, and no
section is disturbed: a request that has been issued is not displaced, a request completes only when
its block has been moved, and the null pointer is not dereferenced. -/
theorem requests_served {s₀ : AtaState} {x : AtaSystem} {es : List AtaSystemEvent}
    (h₀ : AtaInitial s₀) (hquiet : s₀.drive.Quiet)
    (h : Transition.Run ataSystemStep AtaAllowed (.start PcbId s₀) es x) :
    Undisplaced x.state ∧ ∀ e, AtaAllowed x (.step e) → ataStep x.state e ≠ .error .nullTransfer
      ∧ ∀ s', ataStep x.state e = .ok s' → Completes x.state s' := by
  have hrun := h.machine (P := AtaSafe) fun _ _ hallowed => hallowed.2
  have hs : AtaInv x.state := hrun.invariant (h₀.inv hquiet) fun s e s' hs hsafe hstep =>
    ((hs.step hsafe).2 s' hstep).1
  exact ⟨hs.undisplaced, fun e ⟨_, hsafe⟩ =>
    ⟨(hs.step hsafe).1, fun s' hstep => ((hs.step hsafe).2 s' hstep).2⟩⟩

/-- The request that is handed out second. -/
def secondRequest : RequestId := ⟨254, by decide⟩

/-- A process reads a block while another one is about to write one, which issues its request when
the first one is complete. -/
def readThenWrite : List AtaSystemEvent :=
  ataBegin 1 (ataReadData 0 1 0x1000) ++ ataBegin 2 (ataWriteData 1 1 0x2000)
    ++ ataRuns 1 1 ++ ataRuns 2 1 ++ ataRuns 1 13 ++ [.step .settle, .step .interrupt]
    ++ ataRuns 2 13

theorem requests_served_both : ∃ x : AtaSystem,
    Transition.Run ataSystemStep AtaAllowed ataSystemStart readThenWrite x
    ∧ (x.state.requests firstRequest).status = diskStatusIoSuccess
    ∧ x.state.pendingRequest = some secondRequest
    ∧ Undisplaced x.state
    ∧ ∀ e, AtaAllowed x (.step e) → ataStep x.state e ≠ .error .nullTransfer
      ∧ ∀ s', ataStep x.state e = .ok s' → Completes x.state s' := by
  obtain ⟨x, h, hx⟩ := exists_run ataSystemStep AtaAllowed ataSystemStart readThenWrite
    (f := fun x => ((x.state.requests firstRequest).status, x.state.pendingRequest))
    (b := (diskStatusIoSuccess, some secondRequest)) (by decide +kernel)
  obtain ⟨h₁, h₂⟩ := Prod.mk.inj hx
  have hquiet : ataStart.drive.Quiet := ⟨by decide, by decide⟩
  exact ⟨x, h, h₁, h₂, requests_served ataInitial_start hquiet h⟩

/-- Two processes write a block each, and the second one gives its command while the first one
sleeps. -/
def writesBoth : List AtaSystemEvent :=
  ataBegin 1 (ataWriteData 0 1 0x1000) ++ ataRuns 1 14
    ++ .step .settle :: ataBegin 2 (ataWriteData 1 1 0x2000) ++ ataRuns 2 14

/-- The second one finds that the drive requests its block, and an interrupt moves it. -/
def interruptBetween : List AtaSystemEvent :=
  .step .settle :: ataRuns 2 4 ++ [.step .interrupt]

/-- One process writes a block, up to the assignments that issue its request. -/
def writeIssued : List AtaSystemEvent := ataBegin 1 (ataWriteData 0 1 0x1000) ++ ataRuns 1 12

/-- **Requests interfere**: the first request is displaced before it completes; then the null
pointer is dereferenced; and an interrupt between the assignments that issue a write completes it
with no word moved. -/
theorem requests_interfere :
    (∃ x : AtaSystem, Transition.Run ataSystemStep (Unbroken ataSections) ataSystemStart
        writesBoth x ∧ ¬ Undisplaced x.state)
      ∧ (∃ x : AtaSystem, Transition.Run ataSystemStep (Unbroken ataSections) ataSystemStart
          (writesBoth ++ interruptBetween) x
        ∧ ataStep x.state (.run 2 true) = .error .nullTransfer)
      ∧ ∃ (x : AtaSystem) (s' : AtaState), Transition.Run ataSystemStep (Unbroken ataSections)
          ataSystemStart writeIssued x
        ∧ ataStep x.state .interrupt = .ok s' ∧ ¬ Completes x.state s' := by
  refine ⟨?_, ?_, ?_⟩
  · obtain ⟨x, h, hx⟩ := exists_run ataSystemStep (Unbroken ataSections) ataSystemStart
      writesBoth (f := fun x => ((x.state.calls 1).map fun c => (c.request, c.point.issued),
        x.state.pendingRequest, (x.state.requests firstRequest).status))
      (b := (some (firstRequest, true), some secondRequest, diskStatusWritePending))
      (by decide +kernel)
    obtain ⟨hcall, hpending, hstatus⟩ :
        (x.state.calls 1).map (fun c => (c.request, c.point.issued)) = some (firstRequest, true)
        ∧ x.state.pendingRequest = some secondRequest
        ∧ (x.state.requests firstRequest).status = diskStatusWritePending := by simpa using hx
    obtain ⟨c, hc, hcall⟩ := Option.map_eq_some_iff.mp hcall
    obtain ⟨hr, hissued⟩ := Prod.mk.inj hcall
    refine ⟨x, h, fun hs => ?_⟩
    have hrequest := hs.request 1 c hc hissued (by rw [hr, hstatus]; decide)
    rw [hpending, hr] at hrequest
    exact absurd hrequest (by decide)
  · obtain ⟨x, h, hx⟩ := exists_run ataSystemStep (Unbroken ataSections) ataSystemStart
      (writesBoth ++ interruptBetween)
      (f := fun x => match ataStep x.state (.run 2 true) with
        | .error stop => some stop
        | .ok _ => none) (b := some .nullTransfer) (by decide +kernel)
    refine ⟨x, h, ?_⟩
    cases hstep : ataStep x.state (.run 2 true) with
    | error stop =>
        rw [hstep] at hx
        rw [Option.some.inj hx]
    | ok s' =>
        rw [hstep] at hx
        cases hx
  · obtain ⟨x, h, hx⟩ := exists_run ataSystemStep (Unbroken ataSections) ataSystemStart
      writeIssued
      (f := fun x => match ataStep x.state .interrupt with
        | .error _ => none
        | .ok s' => some ((x.state.requests firstRequest).status,
            (s'.requests firstRequest).status, decide (BlockMoved s' firstRequest)))
      (b := some (diskStatusWritePending, diskStatusIoSuccess, false)) (by decide +kernel)
    cases hstep : ataStep x.state .interrupt with
    | error stop =>
        rw [hstep] at hx
        cases hx
    | ok s' =>
        rw [hstep] at hx
        obtain ⟨hbefore, hafter, hmoved⟩ : (x.state.requests firstRequest).status
            = diskStatusWritePending ∧ (s'.requests firstRequest).status = diskStatusIoSuccess
            ∧ ¬ BlockMoved s' firstRequest := by simpa using hx
        exact ⟨x, s', h, hstep, fun hcompletes =>
          hmoved (hcompletes _ (by rw [hbefore]; decide) hafter).2⟩

end Sp2
