import Sp2.Kernel.Requests
import Sp2.Table.Events

/-!
The process table while processes make ramdisk requests.

* `ProcTable.Carried`: two tables that differ in the pending ramdisk requests and the free nodes
  only.
* `RdEvent.Blocks`, `RdSafe`: the step of a read that puts the process that makes it into
  `_blocked_requests` while it goes on running, and the steps that are none and interrupt no
  insertion.
* `KState.Served`: what the ramdisk part of `_isr_clock` changes while `_blocked_requests` is
  empty; `isrClock_phases` has it between the wake-up loop and the end of the quantum.
* `RdSound`: the invariant of the steps without such a read; `requestStep_moved`: **what each of
  them does to the table**, and `requestStep_sound`, `rdReachable_sound`: the invariant holds.
-/

namespace Sp2

open ProcTable Procs

/-! ### Tables that differ in the requests -/

/-- The tables differ only in the ramdisk requests that are pending, and the nodes these use. -/
structure ProcTable.Carried (t t' : ProcTable) : Prop where
  eq : t' = { t with
    avail := t'.avail, requests := { t.requests with ramdisk := t'.requests.ramdisk } }
  pool : t'.avail + t'.requests.length = t.avail + t.requests.length

namespace ProcTable.Carried

variable {t t' t'' : ProcTable}

lemma refl (t : ProcTable) : Carried t t := ⟨rfl, rfl⟩

lemma trans (h : Carried t t') (h' : Carried t' t'') : Carried t t'' :=
  ⟨by rw [h'.eq, h.eq], h'.pool.trans h.pool⟩

lemma queue (h : Carried t t') : t'.queue = t.queue := by rw [h.eq]

lemma freeStacks (h : Carried t t') : t'.freeStacks = t.freeStacks := by rw [h.eq]

lemma proc (h : Carried t t') : t'.proc = t.proc := by rw [h.eq]

lemma cur (h : Carried t t') : t'.cur = t.cur := by rw [h.eq]

lemma shms (h : Carried t t') : t'.shms = t.shms := by rw [h.eq]

lemma blocked (h : Carried t t') : t'.requests.blocked = t.requests.blocked := by rw [h.eq]

lemma ids (h : Carried t t') (q : PcbQueue) : t'.ids q = t.ids q := by
  rw [ProcTable.ids, ProcTable.ids, h.queue]

lemma occ (h : Carried t t') (p : PcbId) : t'.occ p = t.occ p := by
  simp only [ProcTable.occ, h.cur, h.ids]

/-- The invariant of the moves does not depend on the requests. -/
lemma core (h : Carried t t') (hc : Core t) : Core t' where
  occ_le p := h.occ p ▸ hc.occ_le p
  allows q e he := by
    rw [h.queue] at he
    rw [h.proc]
    exact hc.allows q e he
  running p hp := by
    rw [h.cur] at hp
    rw [h.proc]
    exact hc.running p hp
  stack_free := by
    rw [stackIds, h.freeStacks]
    exact hc.stack_free
  stack_owned p hp := by
    rw [h.proc] at hp ⊢
    rw [stackIds, h.freeStacks]
    exact hc.stack_owned p hp
  stack_unique := by
    rw [h.proc]
    exact hc.stack_unique
  saved := by
    rw [h.proc]
    exact hc.saved
  pool := by
    have hpool := hc.pool
    have hnodes := h.pool
    simp only [queued, other, h.queue, h.freeStacks, h.shms] at hpool ⊢
    omega

end ProcTable.Carried

/-! ### The request queues -/

section Queues

variable {s : Procs} {dr : UInt32} {p : PcbId}

/-- A request is put into `_ramdisk_io_pending`. -/
lemma carried_insert (s : Procs) (dr : UInt32) (cur : Option PcbId) :
    Carried (s.table cur) ((s.qInsert .ramdiskIoPending dr).2.table cur) := by
  have hitems := s.queues.items_insert s.pcbs .ramdiskIoPending dr
  have havail := s.queues.avail_insert s.pcbs .ramdiskIoPending dr
  by_cases h : s.queues.avail = 0
  · rw [if_pos h] at hitems
    constructor
    · simp only [table, qInsert, hitems, havail, h]
      simp [isFailure, QueueName.isProcess]
    · simp only [table, qInsert, hitems, havail, h, Requests.length]
  · rw [if_neg h] at hitems
    constructor
    · simp only [table, qInsert, hitems, havail]
      simp [isFailure, QueueName.isProcess]
    · simp only [table, qInsert, hitems, havail, Requests.length]
      simp [QSys.insertItem, QueueName.hashfcn]
      omega

/-- A request is taken from `_ramdisk_io_pending`. -/
lemma carried_remove (s : Procs) (cur : Option PcbId) :
    Carried (s.table cur) ((s.qRemove .ramdiskIoPending).2.table cur) := by
  have hitems := s.queues.items_remove .ramdiskIoPending
  have havail := s.queues.avail_remove .ramdiskIoPending
  constructor
  · simp only [table, qRemove, hitems, havail]
    simp
  · simp only [table, qRemove, hitems, havail, Requests.length]
    cases s.queues.items .ramdiskIoPending
    · simp
    · simp
      omega

/-- Without a free node nothing is put into `_blocked_requests`. -/
lemma table_insert_blocked (h : s.queues.avail = 0) (cur : Option PcbId) :
    (s.qInsert .blockedRequests p).2.table cur = s.table cur := by
  have hitems := s.queues.items_insert s.pcbs .blockedRequests p
  have havail := s.queues.avail_insert s.pcbs .blockedRequests p
  rw [if_pos h] at hitems
  simp only [table, qInsert, hitems, havail, h]
  simp [isFailure, QueueName.isProcess]

/-- From an empty `_blocked_requests` nothing is taken. -/
lemma remove_blocked_nil (h : s.queues.items .blockedRequests = []) :
    (s.qRemove .blockedRequests).1 = none
      ∧ ∀ cur, (s.qRemove .blockedRequests).2.table cur = s.table cur := by
  have hitems := s.queues.items_remove .blockedRequests
  have havail := s.queues.avail_remove .blockedRequests
  refine ⟨(s.queues.remove_fst .blockedRequests).trans (by rw [h]; rfl), fun cur => ?_⟩
  rw [h, List.tail_nil, ← h, Function.update_eq_self] at hitems
  simp only [table, qRemove, hitems, havail, h, if_true, Nat.add_zero]

end Queues

/-! ### Making a request -/

section Request

variable {cfg : Config} {s : RdKernel} {k : KState} {dr : UInt32} {c : PcbId} {e : RdEvent}

/-- A read finds a free node for its entry in `_blocked_requests`: the process that makes it is put
there while it goes on running. -/
def RdEvent.Blocks (s : RdKernel) : RdEvent → Prop
  | .next => s.call.map RdCall.point = some .block ∧ s.procs.queues.avail ≠ 0
  | _ => False

instance (s : RdKernel) : (e : RdEvent) → Decidable (e.Blocks s)
  | .next => inferInstanceAs (Decidable (_ ∧ _))
  | .kernel _ | .fill _ _ | .call _ => inferInstanceAs (Decidable False)

/-- The steps that put no process into `_blocked_requests`, and do not interrupt an insertion of
`_rd_request`. -/
def RdSafe (s : RdKernel) (e : RdEvent) : Prop := Uninterrupted s e ∧ ¬ e.Blocks s

instance (s : RdKernel) (e : RdEvent) : Decidable (RdSafe s e) :=
  inferInstanceAs (Decidable (_ ∧ _))

/-- The states at the end of `_init`, with no process in a call. -/
def RdInitial (cfg : Config) (s : RdKernel) : Prop :=
  Initial cfg s.toKState ∧ s.calls = fun _ => none

/-- The states reached by such steps. -/
abbrev RdReachable (cfg : Config) : RdKernel → Prop :=
  Transition.Reachable (requestStep cfg) RdSafe (RdInitial cfg)

/-- **A statement of `_rd_request`** that puts no process into `_blocked_requests` keeps the table
but for the pending requests. -/
lemma rdStatement_carried (cfg : Config) (dr : UInt32) (point : RdPoint)
    (hcur : k.procs.current = some c) (hblock : point = .block → k.procs.queues.avail = 0) :
    (rdStatement cfg dr c k point).1.procs.current = some c
      ∧ (rdStatement cfg dr c k point).1.clock = k.clock
      ∧ Carried k.table (rdStatement cfg dr c k point).1.table := by
  have htable : k.table = k.procs.table (some c) := by rw [KState.table, hcur]
  have hkeep : ∀ {k' : KState}, k'.procs = k.procs → Carried k.table k'.table := by
    intro k' hprocs
    rw [KState.table, KState.table, hprocs]
    exact .refl _
  have hqueue : ∀ {k' : KState}, k'.procs.current = some c →
      Carried (k.procs.table (some c)) (k'.procs.table (some c)) → Carried k.table k'.table := by
    intro k' hcur' h
    rwa [htable, KState.table, hcur']
  cases point with
  | check => exact ⟨hcur, rfl, .refl _⟩
  | switch => exact ⟨hcur, rfl, .refl _⟩
  | refuse status => exact ⟨hcur, rfl, hkeep rfl⟩
  | pend read => exact ⟨hcur, rfl, hkeep rfl⟩
  | assign read =>
      have hset : (k.procs.setPcb c ({ · with pendingRequest := dr })).table (some c)
          = k.procs.table (some c) := table_setPcb_eq rfl
      exact ⟨hcur, rfl, hqueue hcur (hset ▸ .refl _)⟩
  | enqueue read => exact ⟨hcur, rfl, hqueue hcur (carried_insert _ dr _)⟩
  | fail read => exact ⟨hcur, rfl, hkeep rfl⟩
  | block =>
      have hsame := table_insert_blocked (p := c) (hblock rfl) (some c)
      exact ⟨hcur, rfl, hqueue hcur (hsame ▸ .refl _)⟩

/-- **A step of a process** that puts it not into `_blocked_requests` keeps the table but for the
pending requests, and the process goes on running. -/
lemma requestStep_carried (cfg : Config) (hcur : s.procs.current = some c)
    (he : ∀ event, e ≠ .kernel event) (hsafe : ¬ e.Blocks s) :
    ∃ s', requestStep cfg s e = .ok s' ∧ s'.procs.current = some c
      ∧ s'.clock = s.clock ∧ Carried s.table s'.table := by
  cases e with
  | kernel event => exact absurd rfl (he event)
  | fill dr r => exact ⟨_, rfl, hcur, rfl, .refl _⟩
  | call dr =>
      cases hcall : s.call with
      | none => exact ⟨_, requestStep_call cfg dr hcur hcall, hcur, rfl, .refl _⟩
      | some call => exact ⟨s, by simp only [requestStep, hcur, hcall], hcur, rfl, .refl _⟩
  | next =>
      cases hcall : s.call with
      | none => exact ⟨s, requestStep_idle cfg hcall, hcur, rfl, .refl _⟩
      | some call =>
          have hkeep := rdStatement_carried cfg call.request call.point hcur fun hblock => by
            by_contra havail
            exact hsafe ⟨by rw [hcall, Option.map_some, hblock], havail⟩
          exact ⟨_, requestStep_next cfg hcur hcall, hkeep⟩

end Request

/-! ### The service of a request -/

section Service

variable {cfg : Config} {s s' : KState} {p : PcbId}

/-- A request is served and its node given back. -/
def KState.FreesNode (s : KState) : Prop :=
  s.clock.systemTime % ramdiskService = 0 ∧ s.procs.queues.items .ramdiskIoPending ≠ []

instance (s : KState) : Decidable s.FreesNode := inferInstanceAs (Decidable (_ ∧ _))

/-- What the ramdisk part of `_isr_clock` changes while `_blocked_requests` is empty. -/
structure KState.Served (s s' : KState) : Prop where
  pcbs : s'.procs.pcbs = s.procs.pcbs
  current : s'.procs.current = s.procs.current
  nextPid : s'.procs.nextPid = s.procs.nextPid
  clock : s'.clock = s.clock
  carried : ∀ cur, Carried (s.procs.table cur) (s'.procs.table cur)
  avail : s'.procs.queues.avail = s.procs.queues.avail + if s.FreesNode then 1 else 0

/-- A request that is served with nothing in `_blocked_requests` changes no queue. -/
lemma serveRequest_table (cfg : Config) (dr : UInt32)
    (h : s.procs.queues.items .blockedRequests = []) :
    ∃ s', s.serveRequest cfg dr = .ok s' ∧ s'.procs.pcbs = s.procs.pcbs
      ∧ s'.procs.current = s.procs.current ∧ s'.procs.nextPid = s.procs.nextPid
      ∧ s'.clock = s.clock ∧ ∀ cur, s'.procs.table cur = s.procs.table cur := by
  obtain ⟨hnone, htable⟩ := remove_blocked_nil h
  have hloop : blockedLoop blockedFuel dr s.procs
      = .ok (false, (s.procs.qRemove .blockedRequests).2) := by
    rw [blockedFuel, blockedLoop, ← Prod.mk.eta (p := s.procs.qRemove .blockedRequests), hnone]
  rw [KState.serveRequest]
  dsimp only
  split_ifs
  · rw [hloop]
    refine ⟨_, rfl, ?_⟩
    split_ifs <;> exact ⟨rfl, rfl, rfl, rfl, htable⟩
  · exact ⟨_, rfl, rfl, rfl, rfl, rfl, fun _ => rfl⟩
  · exact ⟨_, rfl, rfl, rfl, rfl, rfl, fun _ => rfl⟩

/-- **The ramdisk part of `_isr_clock`**, with nothing in `_blocked_requests`. -/
lemma serveRamdisk_served (cfg : Config) (h : s.procs.queues.items .blockedRequests = []) :
    ∃ s', s.serveRamdisk cfg = .ok s' ∧ s.Served s' := by
  have havail := s.procs.queues.avail_remove .ramdiskIoPending
  have hfst : (s.procs.qRemove .ramdiskIoPending).1
      = ((s.procs.queues.items .ramdiskIoPending).map Prod.snd).head? :=
    (s.procs.queues.remove_fst .ramdiskIoPending).trans (List.head?_map ..).symm
  by_cases htime : s.clock.systemTime % ramdiskService = 0
  · cases hitems : s.procs.queues.items .ramdiskIoPending with
    | nil =>
        refine ⟨{ s with procs := (s.procs.qRemove .ramdiskIoPending).2 }, ?_,
          rfl, rfl, rfl, rfl, carried_remove s.procs, ?_⟩
        · rw [hitems] at hfst
          simp only [KState.serveRamdisk, if_pos htime, hfst]
          rfl
        · rw [if_neg (by simp [KState.FreesNode, hitems])]
          exact havail.trans (by rw [if_pos hitems])
    | cons e r =>
        set s₁ : KState := { s with procs := (s.procs.qRemove .ramdiskIoPending).2 } with hs₁
        have hblocked : s₁.procs.queues.items .blockedRequests = [] :=
          (carried_remove s.procs none).blocked.trans h
        obtain ⟨s', heq, hpcbs, hcur, hnext, hclock, htable⟩ :=
          serveRequest_table cfg e.2 hblocked
        refine ⟨s', ?_, hpcbs, hcur, hnext, hclock, fun cur => ?_, ?_⟩
        · rw [hitems] at hfst
          simp only [KState.serveRamdisk, if_pos htime, hfst]
          exact heq
        · rw [htable]
          exact carried_remove s.procs cur
        · rw [if_pos ⟨htime, by rw [hitems]; exact List.cons_ne_nil _ _⟩]
          have hsame : s'.procs.queues.avail = s₁.procs.queues.avail :=
            congrArg ProcTable.avail (htable none)
          exact hsame.trans (havail.trans (by rw [hitems, if_neg (List.cons_ne_nil _ _)]))
  · refine ⟨s, if_neg htime, rfl, rfl, rfl, rfl, fun _ => .refl _, ?_⟩
    rw [if_neg fun h => htime h.1, Nat.add_zero]

/-- **The phases of `_isr_clock`** on the table of a running process: the wake-up loop, the service
of a request and the end of the quantum. -/
lemma isrClock_phases (cfg : Config) (hc : Core (s.procs.table (some p)))
    (hblocked : s.procs.queues.items .blockedRequests = []) (hcur : s.procs.current = some p) :
    ∃ (ps : Procs) (s₁ : KState), wakeLoop wakeFuel s.clock.tick.systemTime s.procs = .ok ps
      ∧ Moves OfWake (s.procs.table (some p)) (ps.table (some p))
      ∧ KState.Served { s with clock := s.clock.tick, procs := ps } s₁
      ∧ s₁.procs.current = some p ∧ s₁.clock = s.clock.tick
      ∧ isrClock cfg s = s₁.liftProcs Procs.expireQuantum := by
  obtain ⟨ps, hwake, -, hcur', hms, -⟩ :=
    wakeLoop_spec s.clock.tick.systemTime wakeFuel s.procs hc hc.sleeping_lt
  have hrequests : (ps.table (some p)).requests = (s.procs.table (some p)).requests :=
    hms.invariant hc (I := fun t => t.requests = (s.procs.table (some p)).requests) rfl
      fun l t t' _ _ hm hI => hm.requests_eq.trans hI
  obtain ⟨s₁, hserve, hserved⟩ :=
    serveRamdisk_served cfg (s := { s with clock := s.clock.tick, procs := ps })
      ((congrArg Requests.blocked hrequests).trans hblocked)
  refine ⟨ps, s₁, hwake, hms, hserved, hserved.current.trans (hcur'.trans hcur),
    hserved.clock, ?_⟩
  have hlift : ({ s with clock := s.clock.tick } : KState).liftProcs
      (wakeLoop wakeFuel s.clock.tick.systemTime)
      = .ok { s with clock := s.clock.tick, procs := ps } := liftProcs_eq hwake
  simp only [isrClock, hlift, bind, Except.bind, hserve]

end Service

/-! ### Steps -/

section Steps

variable {cfg : Config} {k : KState} {s s' : RdKernel} {p : PcbId} {e : RdEvent}

/-- **A sound state** of the kernel with ramdisk requests: the invariant of the moves holds, a
process runs, and no process is in `_blocked_requests`. -/
structure RdSound (s : KState) : Prop where
  core : Core s.table
  runs : s.procs.current ≠ none
  none_blocked : s.table.requests.blocked = []

lemma RdSound.exists_cur (hs : RdSound k) : ∃ p, k.procs.current = some p :=
  Option.ne_none_iff_exists'.mp hs.runs

/-- The moves an event may make. -/
def RdEvent.Allows (caller : PcbId) (l : Label) : RdEvent → Prop
  | .kernel e => e.Allows caller l
  | _ => False

/-- The entry to the kernel, with what the phases of `_isr_clock` need. -/
lemma RdSound.save (hs : RdSound k) (context : Context) (hcur : k.procs.current = some p) :
    Core ((k.isrSave context).procs.table (some p))
      ∧ (k.isrSave context).procs.queues.items .blockedRequests = []
      ∧ (k.isrSave context).procs.current = some p := by
  obtain ⟨hcur', htable, -⟩ := isrSave_running context hs.core hcur
  exact ⟨htable ▸ hs.core, (congrArg (·.requests.blocked) htable).trans hs.none_blocked, hcur'⟩

/-- What a step makes of the kernel. -/
def kernelOf : Res RdKernel → Res KState
  | .ok s => .ok s.toKState
  | .error (halt, s) => .error (halt, s.toKState)

lemma kernelOf_kernel (cfg : Config) (s : RdKernel) (event : Event) :
    kernelOf (requestStep cfg s (.kernel event)) = step cfg s.toKState event := by
  rw [requestStep]
  cases step cfg s.toKState event with
  | ok k => rfl
  | error r => rfl

/-- A step that is taken is one of the kernel. -/
lemma step_of_kernel {event : Event} (h : requestStep cfg s (.kernel event) = .ok s') :
    step cfg s.toKState event = .ok s'.toKState := by
  rw [← kernelOf_kernel, h, kernelOf]

/-- **What a step does to the table** that puts no process into `_blocked_requests`: moves it may
make, with one change of the pending requests between them. -/
theorem requestStep_moved (cfg : Config) (hs : RdSound s.toKState)
    (hcur : s.procs.current = some p) (hsafe : ¬ e.Blocks s) :
    ∃ t₁ t₂, Moves (fun l => e.Allows p l) s.table t₁ ∧ Carried t₁ t₂
      ∧ KMoved (fun l => e.Allows p l) t₂ (kernelOf (requestStep cfg s e)) := by
  by_cases hevent : ∀ event, e ≠ .kernel event
  · obtain ⟨s', heq, hcur', -, hcarried⟩ := requestStep_carried cfg hcur hevent hsafe
    rw [heq]
    exact ⟨_, _, Moves.refl _, hcarried, Moves.refl _, by rw [hcur']; simp⟩
  obtain ⟨e, rfl⟩ := not_forall_not.mp hevent
  rw [kernelOf_kernel]
  by_cases he : ∃ context, e = .clock context
  · obtain ⟨context, rfl⟩ := he
    obtain ⟨hc, hblocked, hcur'⟩ := hs.save context hcur
    obtain ⟨-, htable, -⟩ := isrSave_running context hs.core hcur
    obtain ⟨ps, s₁, -, hms, hserved, hcur₁, -, heq⟩ := isrClock_phases cfg hc hblocked hcur'
    have hcarried := hserved.carried (some p)
    have hlast := expireQuantum_moved (hcarried.core (hms.core hc)) hcur₁
    rw [htable] at hms
    refine ⟨_, _, hms.mono fun _ => Or.inl, hcarried, ?_⟩
    rw [step, heq]
    exact liftProcs_moved (hlast.of_moves (Moves.refl _) fun _ => Or.inr)
  · exact ⟨_, _, Moves.refl _, .refl _,
      event_moved cfg hs.core hcur fun context h => he ⟨context, h⟩⟩

/-- What the moves and a change of the pending requests preserve holds after a step. -/
lemma requestStep_invariant {I : ProcTable → Prop} (hs : RdSound s.toKState)
    (hcur : s.procs.current = some p) (hsafe : ¬ e.Blocks s)
    (hstep : requestStep cfg s e = .ok s') (hI : I s.table)
    (move : ∀ l t t', e.Allows p l → Core t → Move l t t' → I t → I t')
    (carry : ∀ t t', Carried t t' → I t → I t') : I s'.table := by
  obtain ⟨t₁, t₂, hms, hcarried, hmoved⟩ := requestStep_moved cfg hs hcur hsafe
  rw [hstep] at hmoved
  have hc₁ := hms.core hs.core
  exact hmoved.1.invariant (hcarried.core hc₁)
    (carry _ _ hcarried (hms.invariant hs.core hI move)) move

/-- Such a step keeps a state sound. -/
theorem requestStep_sound (hs : RdSound s.toKState) (hsafe : ¬ e.Blocks s)
    (hstep : requestStep cfg s e = .ok s') : RdSound s'.toKState := by
  obtain ⟨p, hcur⟩ := hs.exists_cur
  refine ⟨?_, ?_, ?_⟩
  · exact requestStep_invariant (I := Core) hs hcur hsafe hstep hs.core
      (fun l t t' _ _ hm hc => hm.core hc) fun t t' h hc => h.core hc
  · obtain ⟨t₁, t₂, -, -, hmoved⟩ := requestStep_moved cfg hs hcur hsafe
    rw [hstep] at hmoved
    exact hmoved.2
  · exact requestStep_invariant (I := fun t => t.requests.blocked = []) hs hcur hsafe hstep
      hs.none_blocked (fun l t t' _ _ hm hI => by rw [hm.requests_eq, hI])
      fun t t' h hI => h.blocked.trans hI

/-- An event of the kernel keeps a state sound. -/
lemma RdSound.step {k' : KState} {event : Event} (hs : RdSound k)
    (hstep : step cfg k event = .ok k') : RdSound k' := by
  set s : RdKernel := ⟨k, fun _ => none⟩
  have hstep' : requestStep cfg s (.kernel event) = .ok (s.withKernel k') := by
    rw [requestStep, hstep]
  exact requestStep_sound (s := s) hs id hstep'

lemma Sound.rdSound (hs : Sound k) : RdSound k :=
  ⟨hs.core, hs.runs, congrArg Requests.blocked hs.no_requests⟩

lemma RdInitial.sound (h : RdInitial cfg s) : RdSound s.toKState := (initial_sound h.1).rdSound

/-- **The states reached by safe steps are sound**. -/
theorem rdReachable_sound (h : RdReachable cfg s) : RdSound s.toKState :=
  h.invariant (J := fun s => RdSound s.toKState) (fun _ h => h.sound) fun _ _ _ hs hsafe hstep =>
    requestStep_sound hs hsafe.2 hstep

end Steps

end Sp2
