import Sp2.Table.Steps

/-!
The end of `_init`.

* `bootTable`: the process table at the end of `_init`. Process 1 runs, process 2 is next,
  and the idle process 0 is alone in the ready queue of the lowest level.
* `foldl_insert`: a loop of insertions, seen on the table.
* `init_spec`: **`_init` succeeds** and ends with that table, whatever memory holds and
  wherever the build puts the tables.
* `initial_sound`, `reachable_sound`: every reachable state is sound.
-/

namespace Sp2

open ProcTable Procs

/-! ### The table -/

/-- The processes that `_init` makes, in the order of their PCBs and PIDs. -/
def bootProc (p : PcbId) : Proc :=
  if p = 0 then newProc .ready levelLow 0 0
  else if p = 1 then newProc .running levelDefault 1 1
  else if p = 2 then newProc .ready levelDefault 2 2
  else Pcb.zero.proc

/-- The process table at the end of `_init`. -/
def bootTable : ProcTable where
  queue
    | .freePcbs => ((List.finRange maxProcs).drop 3).map (0, ·)
    | .ready 0 => []
    | .ready 1 => [(0, 2)]
    | .ready 2 => [(0, 0)]
    | .sleeping => []
    | .reading => []
  freeStacks := ((List.finRange maxProcs).drop 3).map (0, ·)
  proc := bootProc
  cur := some 1
  avail := 9
  shms := maxShms
  requests := noRequests
  failed := 0
  nextPid := 3

/-! ### Loops of insertions -/

section Loops

variable {σ α : Type*} {f : Stat × σ → α → Stat × σ}
  {g : ProcTable → α → ProcTable}

/-- A loop of insertions that each need a node, seen on the table. The status of the last
one is checked after the loop; with enough nodes it is the status of all. -/
lemma foldl_insert (π : σ → Procs)
    (hfst : ∀ r x, (f r x).1 = if (π r.2).queues.avail = 0 then .allocFail else .success)
    (htable : ∀ r x, (π (f r x).2).table none = g ((π r.2).table none) x)
    (havail : ∀ t x, (g t x).avail = t.avail - 1) (l : List α) :
    ∀ r : Stat × σ, r.1 = .success → l.length ≤ ((π r.2).table none).avail →
      (l.foldl f r).1 = .success ∧ (π (l.foldl f r).2).table none
        = l.foldl g ((π r.2).table none) := by
  induction l with
  | nil => exact fun r hr _ => ⟨hr, rfl⟩
  | cons x l ih =>
      intro r hr hlen
      rw [List.length_cons] at hlen
      have hne : (π r.2).queues.avail ≠ 0 := by
        rw [table_avail] at hlen
        omega
      have hroom : l.length ≤ ((π (f r x).2).table none).avail := by
        rw [htable, havail]
        omega
      have h := ih (f r x) ((hfst r x).trans (if_neg hne)) hroom
      rwa [htable] at h

end Loops

/-- A segment put into its pool, seen on the table. -/
def ProcTable.pushShm (t : ProcTable) : ProcTable :=
  if t.avail = 0 then t else { t with avail := t.avail - 1, shms := t.shms + 1 }

lemma table_qInsert_freeShms {ps : Procs} {address : UInt32} {cur : Option PcbId} :
    (ps.qInsert .freeShms address).2.table cur = (ps.table cur).pushShm := by
  have hitems := ps.queues.items_insert ps.pcbs .freeShms address
  have havail := ps.queues.avail_insert ps.pcbs .freeShms address
  by_cases h : ps.queues.avail = 0
  · rw [if_pos h] at hitems
    rw [pushShm, table_avail, if_pos h]
    simp only [table, qInsert, hitems, havail, h]
    simp [isFailure, QueueName.isProcess]
  · rw [if_neg h] at hitems
    rw [pushShm, table_avail, if_neg h]
    simp only [table, qInsert, hitems, havail]
    simp [isFailure, QueueName.isProcess, QSys.insertItem, QueueName.hashfcn]

/-! ### The stages of `_init` -/

/-- The table after `_q_init`: nothing is in any queue. -/
def emptyTable : ProcTable where
  queue _ := []
  freeStacks := []
  proc _ := Pcb.zero.proc
  cur := none
  avail := numQnodes
  shms := 0
  requests := noRequests
  failed := 0
  nextPid := 0

/-- The table before the first process is made: the pools are full. -/
def poolTable : ProcTable :=
  { emptyTable with
    queue := fun q => if q = .freePcbs then (List.finRange maxProcs).map (0, ·) else []
    freeStacks := (List.finRange maxProcs).map (0, ·)
    avail := 5
    shms := maxShms }

/-- The loops of `_pcb_init`, `_stack_init` and `_shm_init` fill the pools. -/
lemma foldl_pools :
    (List.finRange maxShms).foldl (fun t _ => t.pushShm)
      ((List.finRange maxProcs).foldl (fun t k => t.pushStack k)
        ((List.finRange maxProcs).foldl (fun t p => (t.setStatus p .free).push .freePcbs p)
          emptyTable)) = poolTable := by
  ext1
  case queue =>
    funext q
    revert q
    decide +kernel
  case proc =>
    funext p
    revert p
    decide +kernel
  all_goals decide +kernel

section Stages

variable {cfg : Config} {s : Procs} {c : PcbId} {k : StackId} {noPcb noStack : Panic}
  {fcn : UInt32} {level : UInt8}

lemma pcbInit_ok : ∃ s, Procs.loaded.pcbInit = .ok s ∧ s.table none
    = (List.finRange maxProcs).foldl (fun t p => (t.setStatus p .free).push .freePcbs p)
      emptyTable := by
  have htable : Procs.loaded.table none = emptyTable := by
    ext1
    case proc => rfl
    case queue =>
      funext q
      exact QSys.items_init _
    case freeStacks => exact QSys.items_init _
    case avail => exact QSys.avail_init
    case shms => exact congrArg List.length (QSys.items_init .freeShms)
    case requests =>
      simp only [table, loaded, QSys.items_init]
      rfl
    all_goals rfl
  obtain ⟨hfst, hsnd⟩ := foldl_insert (fun s => s) (f := fun r p => r.2.pcbDealloc p)
    (g := fun t p => (t.setStatus p .free).push .freePcbs p)
    (fun r p => qInsert_fst) (fun r p => table_pcbDealloc)
    (fun t p => by rw [push_avail, setStatus_avail]) (List.finRange maxProcs)
    (Stat.success, Procs.loaded) rfl (by
      change _ ≤ (Procs.loaded.table none).avail
      rw [htable]
      decide)
  set r := (List.finRange maxProcs).foldl (fun r pcb => r.2.pcbDealloc pcb)
    (Stat.success, Procs.loaded) with hr
  have hkeeps : r.2.current = none ∧ r.2.nextPid = 0 := by
    rw [hr]
    exact List.foldlRecOn (motive := fun r : Stat × Procs => r.2.current = none ∧ r.2.nextPid = 0)
      _ _ ⟨rfl, rfl⟩ fun r hr p _ => hr
  refine ⟨{ r.2 with current := none, nextPid := 0 }, ?_, ?_⟩
  · have hloaded : { Procs.loaded with pcbs := fun _ => Pcb.zero } = Procs.loaded := rfl
    rw [pcbInit, hloaded, ← hr]
    simp only [hfst]
    rfl
  · change r.2.table none = List.foldl _ (Procs.loaded.table none) _ at hsnd
    rw [htable] at hsnd
    rw [← hsnd]
    simp only [table, hkeeps.2]

lemma stackInit_ok (hroom : maxProcs ≤ (s.table none).avail) :
    ∃ s', s.stackInit = .ok s' ∧ s'.table none
      = (List.finRange maxProcs).foldl (fun t k => t.pushStack k) (s.table none) := by
  obtain ⟨hfst, hsnd⟩ := foldl_insert (fun s => s) (f := fun r k => r.2.stackDealloc k)
    (g := fun t k => t.pushStack k)
    (fun r k => qInsert_fst) (fun r k => table_stackDealloc)
    (fun t k => pushStack_avail t k) (List.finRange maxProcs)
    (Stat.success, s) rfl (by rwa [List.length_finRange])
  refine ⟨_, ?_, hsnd⟩
  rw [stackInit]
  simp only [hfst]
  rfl

lemma shmInit_ok (cfg : Config) {s : KState} (hroom : maxShms ≤ (s.procs.table none).avail) :
    ∃ s', shmInit cfg s = .ok s' ∧ s'.sio = s.sio ∧ s'.clock = s.clock ∧ s'.procs.table none
      = (List.finRange maxShms).foldl (fun t _ => t.pushShm) (s.procs.table none) := by
  set segments := (List.finRange maxShms).foldl
    (fun segments i => Function.update segments (cfg.shm i) SharedmemSegment.zero)
    s.shm.segments with hsegments
  obtain ⟨hfst, hsnd⟩ := foldl_insert Prod.snd
    (f := fun (r : Stat × Shm × Procs) i => r.2.1.shmDealloc (cfg.shm i) r.2.2)
    (g := fun t _ => t.pushShm)
    (fun r i => qInsert_fst) (fun r i => table_qInsert_freeShms)
    (fun t _ => by rw [pushShm]; split <;> simp_all) (List.finRange maxShms)
    (Stat.success, { s.shm with segments := segments }, s.procs) rfl
    (by rwa [List.length_finRange])
  set r := (List.finRange maxShms).foldl
    (fun (r : Stat × Shm × Procs) i => r.2.1.shmDealloc (cfg.shm i) r.2.2)
    (Stat.success, { s.shm with segments := segments }, s.procs) with hr
  refine ⟨{ s with shm := { r.2.1 with currentShms := 0, nextShm := 0 }, procs := r.2.2 }, ?_,
    rfl, rfl, hsnd⟩
  rw [shmInit]
  simp only [← hsegments, ← hr, hfst]
  rfl

/-- The making of one of the first processes takes the first PCB and the first stack. -/
lemma initProc_ok (noPcb noStack : Panic) (fcn : UInt32) (level : UInt8)
    (h : (s.table none).At c (.queue .freePcbs))
    (hk : (s.table none).stackIds.head? = some k) (hl : level.toNat < mlqLevels) :
    ∃ s', s.initProc noPcb noStack fcn level = .ok s' ∧ s'.table none
      = ((s.table none).make c k .ready level).push (.ready ⟨level.toNat, hl⟩) c := by
  obtain ⟨s₁, s₂, halloc, hstack, -, -, htable⟩ :=
    alloc_make fcn level h hk
  refine ⟨((s₂.makeProc c k fcn level).2.schedule c).2, ?_, schedule_make (htable none) hl⟩
  rw [initProc, halloc]
  simp only
  rw [hstack]

end Stages

/-! ### The whole of `_init` -/

/-- The ready processes at the end of `_init`, before the first dispatch. -/
def readyTable : ProcTable :=
  ((((poolTable.make 0 0 .ready levelLow).push (.ready 2) 0).make 1 1 .ready levelDefault).push
    (.ready 1) 1 |>.make 2 2 .ready levelDefault).push (.ready 1) 2

lemma readyTable_dispatch :
    ((readyTable.take (.queue (.ready 1))).setStatus 1 .running).setCur (some 1) = bootTable := by
  ext1
  case queue =>
    funext q
    revert q
    decide +kernel
  case proc =>
    funext p
    revert p
    decide +kernel
  all_goals decide +kernel

/-- **`_init` succeeds** and ends with the table `bootTable`, whatever memory holds. -/
theorem init_spec (cfg : Config) (loaded : Loaded) :
    ∃ s, init cfg loaded = .ok s ∧ s.table = bootTable ∧ s.clock = ⟨0, 0, 0⟩
      ∧ s.sio = { Sio.init with ier := 3 } := by
  set s₀ : KState :=
    { procs := Procs.loaded
      sio := Sio.init
      clock := ⟨0, 0, 0⟩
      shm := ⟨loaded.segments, 0, 0, 0⟩
      requests := loaded.requests
      mem := loaded.mem } with hs₀
  obtain ⟨p₁, heq₁, ht₁⟩ := pcbInit_ok
  obtain ⟨p₂, heq₂, ht₂⟩ := stackInit_ok (s := p₁) (by rw [ht₁]; decide +kernel)
  rw [ht₁] at ht₂
  obtain ⟨s₃, heq₃, hsio, hclock, ht₃⟩ :=
    shmInit_ok cfg (s := memInit cfg { s₀ with procs := p₂ }) (by
      change maxShms ≤ (p₂.table none).avail
      rw [ht₂]
      decide +kernel)
  change s₃.procs.table none = List.foldl _ (p₂.table none) _ at ht₃
  rw [ht₂, foldl_pools] at ht₃
  obtain ⟨p₄, heq₄, ht₄⟩ := initProc_ok (s := s₃.procs) (c := 0) (k := 0)
    .idlePcb .idleStack cfg.userIdle levelLow
    (by rw [ht₃]; decide +kernel) (by rw [ht₃]; decide +kernel) (by decide)
  rw [ht₃] at ht₄
  obtain ⟨p₅, heq₅, ht₅⟩ := initProc_ok (s := p₄) (c := 1) (k := 1)
    .firstPcb .firstStack cfg.userFirst levelDefault
    (by rw [ht₄]; decide +kernel) (by rw [ht₄]; decide +kernel) (by decide)
  rw [ht₄] at ht₅
  obtain ⟨p₆, heq₆, ht₆⟩ := initProc_ok (s := p₅) (c := 2) (k := 2)
    .firstPcb .firstStack cfg.ataTestProc levelDefault
    (by rw [ht₅]; decide +kernel) (by rw [ht₅]; decide +kernel) (by decide)
  rw [ht₅] at ht₆
  have ht₆ : p₆.table none = readyTable := ht₆
  obtain ⟨p₇, heq₇, hcur, -, ht₇⟩ := dispatch_first (s := p₆) (p := 1) 1
    (by rw [ht₆]; decide +kernel)
    (by
      change ((p₆.table none).proc 1).status = .ready
      rw [ht₆]
      decide +kernel)
    (by rw [ht₆]; decide +kernel)
  rw [ht₆, readyTable_dispatch] at ht₇
  refine ⟨{ s₃ with procs := p₇, sio := (s₃.sio.sioEnable true true).2 }, ?_, ?_, hclock, ?_⟩
  · have h₁ : s₀.liftProcs Procs.pcbInit = .ok { s₀ with procs := p₁ } := liftProcs_eq heq₁
    have h₂ : ({ s₀ with procs := p₁ } : KState).liftProcs Procs.stackInit
        = .ok { s₀ with procs := p₂ } := liftProcs_eq heq₂
    have h₄ : s₃.liftProcs (·.initProc .idlePcb .idleStack cfg.userIdle levelLow)
        = .ok { s₃ with procs := p₄ } := liftProcs_eq heq₄
    have h₅ : ({ s₃ with procs := p₄ } : KState).liftProcs
        (·.initProc .firstPcb .firstStack cfg.userFirst levelDefault)
        = .ok { s₃ with procs := p₅ } := liftProcs_eq heq₅
    have h₆ : ({ s₃ with procs := p₅ } : KState).liftProcs
        (·.initProc .firstPcb .firstStack cfg.ataTestProc levelDefault)
        = .ok { s₃ with procs := p₆ } := liftProcs_eq heq₆
    have h₇ : ({ s₃ with procs := p₆ } : KState).liftProcs Procs.dispatch
        = .ok { s₃ with procs := p₇ } := liftProcs_eq heq₇
    simp only [init, ← hs₀, h₁, h₂, heq₃, h₄, h₅, h₆, h₇, bind, Except.bind]
  · rw [KState.table, hcur, ht₇]
  · have hier : (0 : UInt8) ||| 2 ||| 1 = 3 := by decide
    rw [hsio]
    change (Sio.init.sioEnable true true).2 = _
    simp only [Sio.sioEnable, Sio.init, if_true, hier]

/-! ### Reachable states -/

/-- The table at the end of `_init` satisfies the invariant of the moves. -/
lemma bootTable_core : Core bootTable where
  occ_le := by decide +kernel
  allows q e he := by
    cases q with
    | freePcbs =>
        have hfree : (bootTable.queue .freePcbs).all
            fun e => (bootProc e.2).status = .free := by decide +kernel
        have h := of_decide_eq_true (List.all_eq_true.mp hfree e he)
        exact h
    | ready level =>
        have hready : ∀ level, (bootTable.queue (.ready level)).all fun e =>
            (bootProc e.2).status = .ready ∧ (bootProc e.2).level.toNat = level := by
          decide +kernel
        have h := of_decide_eq_true (List.all_eq_true.mp (hready level) e he)
        exact ⟨Or.inl h.1, h.2⟩
    | sleeping => exact absurd he List.not_mem_nil
    | reading => exact absurd he List.not_mem_nil
  running p hp := by
    obtain rfl : 1 = p := Option.some.inj hp
    decide +kernel
  stack_free := by decide +kernel
  stack_owned := by
    have howned : ∀ p, (bootProc p).status ≠ .free →
        (bootProc p).stack = some p ∧ p ∉ bootTable.stackIds := by decide +kernel
    exact fun p hp => ⟨p, howned p hp⟩
  stack_unique p p' k hp hp' hk hk' := by
    have howned : ∀ p, (bootProc p).status ≠ .free → (bootProc p).stack = some p := by
      decide +kernel
    exact Option.some.inj ((howned p hp).symm.trans (hk.trans (hk'.symm.trans (howned p' hp'))))
  saved := by decide +kernel
  pool := by decide +kernel

section Reachable

variable {cfg : Config} {P : KState → Event → Prop} {s : KState}

lemma initial_table (h : Initial cfg s) : s.table = bootTable := by
  obtain ⟨loaded, h⟩ := h
  obtain ⟨s', heq, htable, -⟩ := init_spec cfg loaded
  obtain rfl : s' = s := Except.ok.inj (heq.symm.trans h)
  exact htable

/-- The state at the end of `_init` is sound. -/
lemma initial_sound (h : Initial cfg s) : Sound s := by
  have htable := initial_table h
  refine ⟨htable ▸ bootTable_core, ?_, htable ▸ rfl⟩
  have hcur : s.procs.current = some 1 := congrArg ProcTable.cur htable
  rw [hcur]
  simp

/-- **Every reachable state is sound**, whatever condition its steps satisfy. -/
theorem reachable_sound (h : Reachable cfg P s) : Sound s :=
  h.invariant (fun _ => initial_sound) fun _ _ _ hs _ hstep => step_sound hs hstep

end Reachable

/-! ### A kernel to look at -/

/-- A build with one clock tick in a second. -/
def demoConfig : Config where
  ticksPerSecond := 1
  shms := 0x10000
  memory := 0x20000
  ramdisk := 0x30000
  userIdle := 0x40000
  userFirst := 0x41000
  ataTestProc := 0x42000

/-- Memory that is clear when the kernel is entered. -/
def demoLoaded : Loaded := ⟨fun _ => 0, fun _ => .zero, fun _ => .zero⟩

/-- The state a kernel function leaves, whether it returns or stops. -/
def stateOf {σ : Type*} : Res σ → σ
  | .ok s => s
  | .error e => e.2

/-- The state at the end of `_init`. -/
@[irreducible]
def bootState : KState := stateOf (init demoConfig demoLoaded)

lemma initial_bootState : Initial demoConfig bootState := by
  obtain ⟨s, heq, -⟩ := init_spec demoConfig demoLoaded
  have hboot : bootState = s := by
    unfold bootState
    exact congrArg stateOf heq
  exact ⟨demoLoaded, hboot ▸ heq⟩

lemma bootState_table : bootState.table = bootTable := initial_table initial_bootState

lemma bootState_current : bootState.procs.current = some 1 :=
  bootState.table_cur.symm.trans (congrArg ProcTable.cur bootState_table)

/-- The system call with the given code and arguments, the other registers being clear. -/
def call (num : UInt32) (args : List UInt32) : Event :=
  .syscall { Context.zero with eax := num } fun i => args.getD i 0

/-- A clock interrupt. -/
def tick : Event := .clock Context.zero

end Sp2
