import Sp2.Shared.Pool
import Sp2.Shared.Segments
import Sp2.Lib.History

/-!
What the calls of the shared memory do.

* `sysShmget_some`, `sysShmat_eq`, `sysShmdt_eq`, `sysShmrm_eq`: the handlers in terms of what
  they make of the records.
* `Gets`, `Detaches`: a `shmget` made a segment, a `shmdt` left one.
* `SharedStep`, `step_shared`: **what a step can do to the shared memory**.
* `SharedStep.shmget_cases`, ..., `SharedStep.shmrm_cases`: the outcomes of each call.
* `step_shmat_ok_iff`, `step_shmdt_ok_iff`, `step_shmrm_ok_iff`: when the calls return.
-/

namespace Sp2

open ProcTable Procs

/-! ### The handlers -/

section Handlers

variable {cfg : Config} {args : Args} {s : KState} {p : PcbId} {a : UInt32} {l : List UInt32}
  {c : Context} {v : UInt32}

lemma eax_setEax (h : (s.procs.pcbs p).context = some c) : (s.setEax p v).eax p = some v := by
  change ((s.procs.setEax p v).pcbs p).context.map Context.eax = some v
  rw [setEax_context, if_pos rfl, h]
  rfl

/-- The state when `_shm_alloc` has looked for a segment. -/
def KState.popPool (s : KState) : KState := { s with procs := (s.procs.qRemove .freeShms).2 }

lemma pool_popPool : s.popPool.pool = s.pool.tail := by
  change ((s.procs.queues.remove .freeShms).2.items .freeShms).map Prod.snd = _
  rw [s.procs.queues.items_remove, Function.update_self, KState.pool, List.map_tail]

lemma shmAlloc_fst : (s.shm.shmAlloc s.procs).1 = s.pool.headD 0 := by
  have hfst : (s.procs.qRemove .freeShms).1
      = (s.procs.queues.items .freeShms).head?.map Prod.snd := s.procs.queues.remove_fst _
  rw [Shm.shmAlloc, KState.pool]
  simp only [hfst]
  cases s.procs.queues.items .freeShms <;> rfl

/-- A segment that `_shm_alloc` finds is the first of the pool. -/
lemma exists_pool (h : s.pool.headD 0 ≠ 0) : ∃ a l, s.pool = a :: l ∧ a ≠ 0 := by
  cases hl : s.pool with
  | nil => exact absurd (by rw [hl]; rfl) h
  | cons a l => exact ⟨a, l, rfl, by rwa [hl] at h⟩

/-- Without a segment `_sys_shmget` fails, and no segment is current any more. -/
lemma sysShmget_none (h : s.pool.headD 0 = 0) : sysShmget cfg p args s
    = .ok (({ s.popPool with shm := { s.shm with currentShms := 0 } } : KState).setEax p
      minusOne) := by
  have hfst := shmAlloc_fst (s := s)
  rw [h] at hfst
  have halloc : s.shm.shmAlloc s.procs = (0, s.shm, (s.procs.qRemove .freeShms).2) := by
    rw [Shm.shmAlloc] at hfst ⊢
    simp only at hfst
    simp only [hfst, ne_eq, not_true_eq_false, if_false]
  rw [sysShmget, halloc]
  rfl

/-- Otherwise the first segment of the pool is made a new one. -/
lemma sysShmget_some (h : s.pool = a :: l) (ha : a ≠ 0) : sysShmget cfg p args s
    = .ok (({ s.popPool with shm := s.shm.created cfg.memory a (args 0) (args 1) } :
      KState).setEax p s.shm.nextShm.toUInt32) := by
  have hfst := shmAlloc_fst (s := s)
  rw [h, List.headD_cons] at hfst
  have halloc : s.shm.shmAlloc s.procs = (a, s.shm.setSegment a ({ · with status := 1 }),
      (s.procs.qRemove .freeShms).2) := by
    rw [Shm.shmAlloc] at hfst ⊢
    simp only at hfst
    simp only [hfst, ne_eq, ha, not_false_eq_true, if_true]
  rw [sysShmget, halloc]
  simp only [if_neg ha]
  by_cases hfits : cfg.memory + maxMemSize < s.shm.freePtr + args 0
  · simp [Shm.shmMalloc, Shm.setSegment, Shm.current, Shm.created, hfits, KState.popPool]
  · simp [Shm.shmMalloc, Shm.setSegment, Shm.current, Shm.created, hfits, KState.popPool]

/-- A store into a segment record. -/
def KState.setSegment (address : UInt32) (f : SharedmemSegment → SharedmemSegment) (s : KState) :
    KState :=
  { s with shm := s.shm.setSegment address f }

/-- `_sys_shmat`: the current segment must have the id, and a place for the caller. -/
lemma sysShmat_eq : sysShmat p args s
    = if s.shm.currentShms = 0 then .error (.nullPointer, s)
      else if args 0 ≠ s.shm.current.id.toUInt32 then .error (.panic .attach, s)
      else match s.shm.current.slot with
        | some i =>
            .ok ((s.setSegment s.shm.currentShms (·.join i (s.procs.pcbs p).pid)).setEax p
              s.shm.current.address)
        | none => .ok (s.setEax p 0) := by
  rw [sysShmat, SharedmemSegment.slot]
  have haddress : ∀ i, (s.shm.setSegment s.shm.currentShms
      (·.join i (s.procs.pcbs p).pid)).current.address = s.shm.current.address := fun i =>
    setSegment_field (f := fun segment => segment.join i (s.procs.pcbs p).pid)
      SharedmemSegment.address rfl _
  split_ifs
  · rfl
  · rfl
  · simp only [← haddress 0]
    rfl
  · simp only [← haddress 1]
    rfl
  · rfl

/-- `_sys_shmdt`: the record passed says whether the caller is a member, the current
segment is what the caller leaves. -/
lemma sysShmdt_eq : sysShmdt p args s
    = if (s.shm.segments (args 0)).hasMember (s.procs.pcbs p).pid = false then
        .ok (s.setEax p minusOne)
      else if s.shm.currentShms = 0 then .error (.nullPointer, s)
      else if (s.shm.segments (args 0)).id ≠ s.shm.current.id then .error (.panic .detach, s)
      else if s.shm.current.numMembers = 0 then .ok (s.setEax p 1)
      else match s.shm.current.place (s.procs.pcbs p).pid with
        | some i =>
            .ok ((s.setSegment s.shm.currentShms (·.leave i)).setEax p 1)
        | none => .ok (s.setEax p minusOne) := by
  rw [sysShmdt, SharedmemSegment.place]
  simp only [Bool.not_eq_true', UInt32.pos_iff_ne_zero]
  split_ifs <;> first | rfl | contradiction

/-- The state when `_shm_dealloc` has put the record at an address into the pool. -/
def KState.pushPool (address : UInt32) (s : KState) : KState :=
  { s with
    shm := s.shm.setSegment address ({ · with status := 0 })
    procs := (s.procs.qInsert .freeShms address).2 }

lemma pool_pushPool : (s.pushPool a).pool
    = if s.procs.queues.avail = 0 then s.pool else s.pool ++ [a] := by
  change ((s.procs.qInsert .freeShms a).2.queues.items .freeShms).map Prod.snd = _
  split_ifs with havail
  · have hitems := s.procs.queues.items_insert s.procs.pcbs .freeShms a
    rw [if_pos havail] at hitems
    exact congrArg (fun items => (items .freeShms).map Prod.snd) hitems
  · rw [items_qInsert_freeShms _ havail, List.map_append]
    rfl

/-- `_sys_shmrm`: the record passed must have the id of the current segment. -/
lemma sysShmrm_eq : sysShmrm p args s
    = if s.shm.currentShms = 0 then .error (.nullPointer, s)
      else if (s.shm.segments (args 0)).id ≠ s.shm.current.id then .error (.panic .remove, s)
      else .ok ((s.pushPool (args 0)).setEax p
        (if s.procs.queues.avail = 0 then minusOne else 1)) := by
  rw [sysShmrm]
  split_ifs with hcurrent hid havail
  · rfl
  · rfl
  · simp only [Shm.shmDealloc, qInsert_fst, if_pos havail]
    rfl
  · simp only [Shm.shmDealloc, qInsert_fst, if_neg havail]
    rfl

end Handlers

/-! ### Steps -/

/-- The arguments of a system call. -/
def Event.args : Event → Args
  | .syscall _ args => args
  | _ => fun _ => 0

/-- The value that the process running before a step will see in EAX after it. -/
def KState.answer (s s' : KState) : Option UInt32 := s.procs.current.bind s'.eax

/-- The PID of a process. -/
def KState.pidOf (s : KState) (p : PcbId) : UInt16 := (s.procs.pcbs p).pid

/-- The PID of the running process. -/
def KState.callerPid (s : KState) : UInt16 := (s.procs.current.map s.pidOf).getD 0

/-- The step is a `shmget` that made the record at an address a segment. -/
def Gets (a : UInt32) (t : Transition.Taken KState Event) : Prop :=
  t.event.call = some .shmget ∧ t.after.shm.currentShms = a ∧ a ≠ 0

/-- The step is a `shmdt` that succeeded, of the segment at an address: the one passed, or the
current one when the caller passed a record of its own. -/
def Detaches (cfg : Config) (a : UInt32) (t : Transition.Taken KState Event) : Prop :=
  t.event.call = some .shmdt ∧ t.before.answer t.after = some 1
    ∧ (t.event.args 0 = a ∨ (∀ i, cfg.shm i ≠ t.event.args 0) ∧ t.before.shm.currentShms = a)

/-- The calls that may change the variables of `shared_mem.c` or the pool. -/
def SysCall.movesShared : SysCall → Bool
  | shmget | shmat | shmdt | shmrm => true
  | _ => false

/-- **What a step can do to the shared memory**, `p` being the running process. -/
inductive SharedStep (cfg : Config) (s : KState) (p : PcbId) : Event → KState → Prop
  | other {e : Event} {s' : KState}
      (no_call : ∀ call, e.call = some call → call.movesShared = false)
      (shared : SameShared s s') : SharedStep cfg s p e s'
  /-- A process stores a record of its own. -/
  | record {address : UInt32} {segment : SharedmemSegment} {s' : KState}
      (own : ∀ i, cfg.shm i ≠ address)
      (shm : s'.shm = s.shm.setSegment address fun _ => segment) (pool : s'.pool = s.pool) :
      SharedStep cfg s p (.record address segment) s'
  /-- `_sys_shmget` finds no segment. -/
  | getNone {context : Context} {args : Args} {s' : KState}
      (is_call : SysCall.ofNum context.eax = .shmget) (no_segment : s.pool.headD 0 = 0)
      (shm : s'.shm = { s.shm with currentShms := 0 }) (pool : s'.pool = s.pool.tail)
      (eax : s'.eax p = some minusOne) : SharedStep cfg s p (.syscall context args) s'
  /-- `_sys_shmget` takes a segment. -/
  | get {context : Context} {args : Args} {s' : KState} {address : UInt32}
      (is_call : SysCall.ofNum context.eax = .shmget) (is_first : s.pool = address :: s'.pool)
      (not_null : address ≠ 0)
      (shm : s'.shm = s.shm.created cfg.memory address (args 0) (args 1))
      (eax : s'.eax p = some s.shm.nextShm.toUInt32) :
      SharedStep cfg s p (.syscall context args) s'
  /-- `_sys_shmat` finds a place. -/
  | attach {context : Context} {args : Args} {s' : KState} {i : Fin maxMembers}
      (is_call : SysCall.ofNum context.eax = .shmat) (is_current : s.shm.currentShms ≠ 0)
      (is_id : args 0 = s.shm.current.id.toUInt32) (is_slot : s.shm.current.slot = some i)
      (shm : s'.shm = s.shm.setSegment s.shm.currentShms (·.join i (s.pidOf p)))
      (pool : s'.pool = s.pool) (eax : s'.eax p = some s.shm.current.address) :
      SharedStep cfg s p (.syscall context args) s'
  /-- `_sys_shmat` finds no place. -/
  | full {context : Context} {args : Args} {s' : KState}
      (is_call : SysCall.ofNum context.eax = .shmat) (is_current : s.shm.currentShms ≠ 0)
      (is_id : args 0 = s.shm.current.id.toUInt32) (no_slot : s.shm.current.slot = none)
      (shared : SameShared s s') (eax : s'.eax p = some 0) :
      SharedStep cfg s p (.syscall context args) s'
  /-- `_sys_shmdt` finds that the caller is no member, of the record passed or of the
  current segment. -/
  | stranger {context : Context} {args : Args} {s' : KState}
      (is_call : SysCall.ofNum context.eax = .shmdt)
      (no_member : (s.shm.segments (args 0)).hasMember (s.pidOf p) = false
        ∨ s.shm.current.numMembers ≠ 0 ∧ s.shm.current.place (s.pidOf p) = none)
      (shared : SameShared s s')
      (eax : s'.eax p = some minusOne) : SharedStep cfg s p (.syscall context args) s'
  /-- `_sys_shmdt` finds that the current segment has no members. -/
  | empty {context : Context} {args : Args} {s' : KState}
      (is_call : SysCall.ofNum context.eax = .shmdt)
      (is_member : (s.shm.segments (args 0)).hasMember (s.pidOf p) = true)
      (is_current : s.shm.currentShms ≠ 0)
      (is_id : (s.shm.segments (args 0)).id = s.shm.current.id)
      (no_members : s.shm.current.numMembers = 0) (shared : SameShared s s')
      (eax : s'.eax p = some 1) : SharedStep cfg s p (.syscall context args) s'
  /-- `_sys_shmdt` takes the caller out of the current segment. -/
  | detach {context : Context} {args : Args} {s' : KState} {i : Fin maxMembers}
      (is_call : SysCall.ofNum context.eax = .shmdt)
      (is_member : (s.shm.segments (args 0)).hasMember (s.pidOf p) = true)
      (is_current : s.shm.currentShms ≠ 0)
      (is_id : (s.shm.segments (args 0)).id = s.shm.current.id)
      (has_members : s.shm.current.numMembers ≠ 0)
      (is_place : s.shm.current.place (s.pidOf p) = some i)
      (shm : s'.shm = s.shm.setSegment s.shm.currentShms (·.leave i))
      (pool : s'.pool = s.pool) (eax : s'.eax p = some 1) :
      SharedStep cfg s p (.syscall context args) s'
  /-- `_sys_shmrm` puts the record passed into the pool, if a node is free. -/
  | remove {context : Context} {args : Args} {s' : KState}
      (is_call : SysCall.ofNum context.eax = .shmrm) (is_current : s.shm.currentShms ≠ 0)
      (is_id : (s.shm.segments (args 0)).id = s.shm.current.id)
      (shm : s'.shm = s.shm.setSegment (args 0) ({ · with status := 0 }))
      (pool : s'.pool = if s.procs.queues.avail = 0 then s.pool else s.pool ++ [args 0])
      (eax : s'.eax p = some (if s.procs.queues.avail = 0 then minusOne else 1)) :
      SharedStep cfg s p (.syscall context args) s'

section Steps

variable {cfg : Config} {args : Args} {s s' : KState} {p : PcbId} {context : Context} {e : Event}
  {call : SysCall} {a : UInt32}

lemma answer_eq (hcur : s.procs.current = some p) : s.answer s' = s'.eax p := by
  rw [KState.answer, hcur, Option.bind_some]

lemma callerPid_eq (hcur : s.procs.current = some p) : s.callerPid = s.pidOf p := by
  rw [KState.callerPid, hcur, Option.map_some, Option.getD_some]

lemma call_ne_of_not_moves (h : ∀ call, e.call = some call → call.movesShared = false)
    (hmoves : call.movesShared = true) : e.call ≠ some call := fun hcall =>
  absurd (hmoves.symm.trans (h call hcall)) (by simp)

lemma not_gets (he : e.call ≠ some .shmget) : ¬ Gets a ⟨s, e, s'⟩ := fun h => he h.1

lemma not_gets_null (hnull : s'.shm.currentShms = 0) : ¬ Gets a ⟨s, e, s'⟩ :=
  fun ⟨_, hcurrent, ha⟩ => ha (hcurrent.symm.trans hnull)

lemma call_syscall (args : Args) (h : SysCall.ofNum context.eax = call) :
    (Event.syscall context args).call = some call := congrArg some h

/-- What the entry to the kernel leaves of what the calls look at. -/
lemma isrSave_shared (context : Context) (hs : Sound s) (hcur : s.procs.current = some p) :
    SameShared s (s.isrSave context) ∧ (s.isrSave context).pidOf p = s.pidOf p
      ∧ (s.isrSave context).procs.queues.avail = s.procs.queues.avail := by
  obtain ⟨-, htable, -, -⟩ := isrSave_running context hs.core hcur
  exact ⟨sameShared_isrSave, congrArg (fun t => (t.proc p).pid) htable,
    congrArg ProcTable.avail htable⟩

/-- The calls that move no segment. -/
lemma sysHandler_shared (h : sysHandler cfg p args s call = .ok s')
    (hcall : call.movesShared = false) : SameShared s s' := by
  cases call with
  | spawn => exact sameShared_liftProcs h fun ps => sameItems_spawn rfl
  | spawnl => exact sameShared_liftProcs h fun ps => sameItems_spawn rfl
  | sleep => exact sameShared_liftProcs h fun ps => sameItems_sleep rfl
  | exit => exact sameShared_liftProcs h fun ps => sameItems_exit rfl
  | kill => exact sameShared_liftProcs h fun ps => sameItems_kill rfl
  | read =>
      rw [sysHandler, sysRead] at h
      split at h
      · obtain rfl := Except.ok.inj h
        exact ⟨rfl, rfl⟩
      · obtain ⟨hshm, hpool⟩ := sameShared_liftProcs h fun ps => sameItems_blockReading rfl
        exact ⟨hshm, hpool⟩
  | shmwrite =>
      obtain ⟨mem, v, rfl⟩ := sysShmwrite_ok h
      exact ⟨rfl, rfl⟩
  | shmread =>
      obtain ⟨mem, v, rfl⟩ := sysShmread_ok h
      exact ⟨rfl, rfl⟩
  | shmget => exact absurd hcall (by simp [SysCall.movesShared])
  | shmat => exact absurd hcall (by simp [SysCall.movesShared])
  | shmdt => exact absurd hcall (by simp [SysCall.movesShared])
  | shmrm => exact absurd hcall (by simp [SysCall.movesShared])
  | _ =>
      obtain rfl := Except.ok.inj h
      exact ⟨rfl, rfl⟩

lemma step_shmget (hs : Sound s) (hcur : s.procs.current = some p)
    (hnum : SysCall.ofNum context.eax = .shmget)
    (h : step cfg s (.syscall context args) = .ok s') :
    SharedStep cfg s p (.syscall context args) s' := by
  obtain ⟨hsame, -, -⟩ := isrSave_shared context hs hcur
  obtain ⟨-, -, -, hcontext⟩ := isrSave_running context hs.core hcur
  rw [step_syscall hcur, hnum, sysHandler] at h
  by_cases hnone : s.pool.headD 0 = 0
  · rw [sysShmget_none (by rw [hsame.pool]; exact hnone)] at h
    obtain rfl := Except.ok.inj h
    refine .getNone hnum hnone ?_ ?_ (eax_setEax hcontext)
    · rw [sameShared_setEax.shm, hsame.shm]
    · rw [sameShared_setEax.pool, ← hsame.pool]
      exact pool_popPool
  · obtain ⟨a, l, hpool, ha⟩ := exists_pool hnone
    have hpool' : (s.isrSave context).pool = a :: l := hsame.pool.trans hpool
    rw [sysShmget_some hpool' ha] at h
    obtain rfl := Except.ok.inj h
    refine SharedStep.get hnum ?_ ha ?_ ?_
    · rw [hpool, sameShared_setEax.pool]
      refine congrArg _ (Eq.trans ?_ pool_popPool.symm)
      rw [hpool', List.tail_cons]
    · rw [sameShared_setEax.shm, hsame.shm]
    · rw [hsame.shm]
      exact eax_setEax hcontext

lemma step_shmat (hs : Sound s) (hcur : s.procs.current = some p)
    (hnum : SysCall.ofNum context.eax = .shmat)
    (h : step cfg s (.syscall context args) = .ok s') :
    SharedStep cfg s p (.syscall context args) s' := by
  obtain ⟨hsame, hpid, -⟩ := isrSave_shared context hs hcur
  obtain ⟨-, -, -, hcontext⟩ := isrSave_running context hs.core hcur
  rw [step_syscall hcur, hnum, sysHandler, sysShmat_eq, hsame.shm] at h
  split_ifs at h with hcurrent hid
  have hid' := not_not.mp hid
  cases hslot : s.shm.current.slot with
  | none =>
      rw [hslot] at h
      obtain rfl := Except.ok.inj h
      exact .full hnum hcurrent hid' hslot (hsame.trans sameShared_setEax) (eax_setEax hcontext)
  | some i =>
      rw [hslot] at h
      obtain rfl := Except.ok.inj h
      refine .attach hnum hcurrent hid' hslot ?_ ?_ (eax_setEax hcontext)
      · rw [sameShared_setEax.shm, ← hpid]
        change (s.isrSave context).shm.setSegment _ _ = _
        rw [hsame.shm]
        rfl
      · rw [sameShared_setEax.pool]
        exact hsame.pool

lemma step_shmdt (hs : Sound s) (hcur : s.procs.current = some p)
    (hnum : SysCall.ofNum context.eax = .shmdt)
    (h : step cfg s (.syscall context args) = .ok s') :
    SharedStep cfg s p (.syscall context args) s' := by
  obtain ⟨hsame, hpid, -⟩ := isrSave_shared context hs hcur
  obtain ⟨-, -, -, hcontext⟩ := isrSave_running context hs.core hcur
  change ((s.isrSave context).procs.pcbs p).pid = s.pidOf p at hpid
  rw [step_syscall hcur, hnum, sysHandler, sysShmdt_eq, hsame.shm, hpid] at h
  split_ifs at h with hmember hcurrent hid hnum'
  · obtain rfl := Except.ok.inj h
    exact .stranger hnum (Or.inl hmember) (hsame.trans sameShared_setEax) (eax_setEax hcontext)
  · obtain rfl := Except.ok.inj h
    exact .empty hnum (Bool.not_eq_false _ ▸ hmember) hcurrent (not_not.mp hid) hnum'
      (hsame.trans sameShared_setEax) (eax_setEax hcontext)
  · cases hplace : s.shm.current.place (s.pidOf p) with
    | none =>
        rw [hplace] at h
        obtain rfl := Except.ok.inj h
        exact .stranger hnum (Or.inr ⟨hnum', hplace⟩) (hsame.trans sameShared_setEax)
          (eax_setEax hcontext)
    | some i =>
        rw [hplace] at h
        obtain rfl := Except.ok.inj h
        refine .detach hnum (Bool.not_eq_false _ ▸ hmember) hcurrent (not_not.mp hid) hnum' hplace
          ?_ ?_ (eax_setEax hcontext)
        · rw [sameShared_setEax.shm]
          change (s.isrSave context).shm.setSegment _ _ = _
          rw [hsame.shm]
        · rw [sameShared_setEax.pool]
          exact hsame.pool

lemma step_shmrm (hs : Sound s) (hcur : s.procs.current = some p)
    (hnum : SysCall.ofNum context.eax = .shmrm)
    (h : step cfg s (.syscall context args) = .ok s') :
    SharedStep cfg s p (.syscall context args) s' := by
  obtain ⟨hsame, -, havail⟩ := isrSave_shared context hs hcur
  obtain ⟨-, -, -, hcontext⟩ := isrSave_running context hs.core hcur
  rw [step_syscall hcur, hnum, sysHandler, sysShmrm_eq, hsame.shm, havail] at h
  generalize hv : (if _ = 0 then minusOne else (1 : UInt32)) = v at h
  split_ifs at h with hcurrent hid
  obtain rfl := Except.ok.inj h
  refine .remove hnum hcurrent (not_not.mp hid) ?_ ?_ (by rw [hv]; exact eax_setEax hcontext)
  · rw [sameShared_setEax.shm, ← hsame.shm]
    rfl
  · rw [sameShared_setEax.pool, ← hsame.pool, ← havail]
    exact pool_pushPool

/-- The two outcomes of `_sys_shmget`. -/
lemma SharedStep.shmget_cases (h : SharedStep cfg s p e s') (hcall : e.call = some .shmget) :
    (s.pool.headD 0 = 0 ∧ s'.shm = { s.shm with currentShms := 0 } ∧ s'.pool = s.pool.tail
        ∧ s'.eax p = some minusOne)
      ∨ ∃ a ≠ 0, s.pool = a :: s'.pool
        ∧ s'.shm = s.shm.created cfg.memory a (e.args 0) (e.args 1)
        ∧ s'.eax p = some s.shm.nextShm.toUInt32 := by
  cases h with
  | other no_call shared => exact absurd hcall (call_ne_of_not_moves no_call rfl)
  | record own shm pool => exact absurd hcall (by simp [Event.call])
  | getNone is_call no_segment shm pool eax => exact Or.inl ⟨no_segment, shm, pool, eax⟩
  | @get context args s' a is_call is_first not_null shm eax =>
      exact Or.inr ⟨a, not_null, is_first, shm, eax⟩
  | attach is_call | full is_call | stranger is_call | empty is_call | detach is_call
  | remove is_call =>
      exact absurd (is_call.symm.trans (Option.some.inj hcall)) (by simp)

/-- The two outcomes of `_sys_shmat`. -/
lemma SharedStep.shmat_cases (h : SharedStep cfg s p e s') (hcall : e.call = some .shmat) :
    e.args 0 = s.shm.current.id.toUInt32
      ∧ ((∃ i, s.shm.current.slot = some i
          ∧ s'.shm = s.shm.setSegment s.shm.currentShms (·.join i (s.pidOf p))
          ∧ s'.eax p = some s.shm.current.address)
        ∨ s.shm.current.slot = none ∧ SameShared s s' ∧ s'.eax p = some 0) := by
  cases h with
  | other no_call shared => exact absurd hcall (call_ne_of_not_moves no_call rfl)
  | record own shm pool => exact absurd hcall (by simp [Event.call])
  | @attach context args s' i is_call is_current is_id is_slot shm pool eax =>
      exact ⟨is_id, Or.inl ⟨i, is_slot, shm, eax⟩⟩
  | full is_call is_current is_id no_slot shared eax =>
      exact ⟨is_id, Or.inr ⟨no_slot, shared, eax⟩⟩
  | getNone is_call | get is_call | stranger is_call | empty is_call | detach is_call
  | remove is_call =>
      exact absurd (is_call.symm.trans (Option.some.inj hcall)) (by simp)

/-- The outcomes of `_sys_shmdt`. -/
lemma SharedStep.shmdt_cases (h : SharedStep cfg s p e s') (hcall : e.call = some .shmdt) :
    (((s.shm.segments (e.args 0)).hasMember (s.pidOf p) = false
          ∨ s.shm.current.numMembers ≠ 0 ∧ s.shm.current.place (s.pidOf p) = none)
        ∧ SameShared s s' ∧ s'.eax p = some minusOne)
      ∨ (s.shm.segments (e.args 0)).hasMember (s.pidOf p) = true
        ∧ (s.shm.current.numMembers = 0 ∨ ∃ i, s.shm.current.place (s.pidOf p) = some i)
        ∧ s'.eax p = some 1 := by
  cases h with
  | other no_call shared => exact absurd hcall (call_ne_of_not_moves no_call rfl)
  | record own shm pool => exact absurd hcall (by simp [Event.call])
  | stranger is_call no_member shared eax => exact Or.inl ⟨no_member, shared, eax⟩
  | empty is_call is_member is_current is_id no_members shared eax =>
      exact Or.inr ⟨is_member, Or.inl no_members, eax⟩
  | detach is_call is_member is_current is_id has_members is_place shm pool eax =>
      exact Or.inr ⟨is_member, Or.inr ⟨_, is_place⟩, eax⟩
  | getNone is_call | get is_call | attach is_call | full is_call | remove is_call =>
      exact absurd (is_call.symm.trans (Option.some.inj hcall)) (by simp)

/-- The outcome of `_sys_shmrm`. -/
lemma SharedStep.shmrm_cases (h : SharedStep cfg s p e s') (hcall : e.call = some .shmrm) :
    s'.shm = s.shm.setSegment (e.args 0) ({ · with status := 0 })
      ∧ s'.pool = (if s.procs.queues.avail = 0 then s.pool else s.pool ++ [e.args 0])
      ∧ s'.eax p = some (if s.procs.queues.avail = 0 then minusOne else 1) := by
  cases h with
  | other no_call shared => exact absurd hcall (call_ne_of_not_moves no_call rfl)
  | record own shm pool => exact absurd hcall (by simp [Event.call])
  | remove is_call is_current is_id shm pool eax => exact ⟨shm, pool, eax⟩
  | getNone is_call | get is_call | attach is_call | full is_call | stranger is_call
  | empty is_call | detach is_call =>
      exact absurd (is_call.symm.trans (Option.some.inj hcall)) (by simp)

/-- `shmat` returns exactly when there is a current segment and the id is its id. -/
lemma step_shmat_ok_iff (cfg : Config) (hcur : s.procs.current = some p)
    (hcall : e.call = some .shmat) : (∃ s', step cfg s e = .ok s')
      ↔ s.shm.currentShms ≠ 0 ∧ e.args 0 = s.shm.current.id.toUInt32 := by
  obtain ⟨context, args, rfl, -, heq⟩ := step_call cfg hcur hcall
  rw [heq, sysHandler, sysShmat_eq, isrSave_shm]
  change _ ↔ _ ∧ args 0 = _
  split_ifs with hcurrent hid
  · simp [hcurrent]
  · simp [hid]
  · cases s.shm.current.slot <;> simpa [hcurrent] using hid

/-- `shmdt` returns exactly when the caller is not recorded in the record passed, or there is
a current segment and its id is that of the record. -/
lemma step_shmdt_ok_iff (cfg : Config) (hs : Sound s) (hcur : s.procs.current = some p)
    (hcall : e.call = some .shmdt) : (∃ s', step cfg s e = .ok s')
      ↔ (s.shm.segments (e.args 0)).hasMember (s.pidOf p) = false
        ∨ s.shm.currentShms ≠ 0 ∧ (s.shm.segments (e.args 0)).id = s.shm.current.id := by
  obtain ⟨context, args, rfl, -, heq⟩ := step_call cfg hcur hcall
  have hpid : ((s.isrSave context).procs.pcbs p).pid = s.pidOf p :=
    (isrSave_shared context hs hcur).2.1
  rw [heq, sysHandler, sysShmdt_eq, isrSave_shm, hpid]
  change _ ↔ (s.shm.segments (args 0)).hasMember _ = false ∨ _ ∧ (s.shm.segments (args 0)).id = _
  split_ifs with hmember hcurrent hid hnum
  · simp [hmember]
  · simp [hmember, hcurrent]
  · simp [hmember, hid]
  · simpa [hmember, hcurrent] using hid
  · cases s.shm.current.place (s.pidOf p) <;> simpa [hmember, hcurrent] using hid

/-- `shmrm` returns exactly when there is a current segment and its id is that of the record
passed. -/
lemma step_shmrm_ok_iff (cfg : Config) (hcur : s.procs.current = some p)
    (hcall : e.call = some .shmrm) : (∃ s', step cfg s e = .ok s')
      ↔ s.shm.currentShms ≠ 0 ∧ (s.shm.segments (e.args 0)).id = s.shm.current.id := by
  obtain ⟨context, args, rfl, -, heq⟩ := step_call cfg hcur hcall
  rw [heq, sysHandler, sysShmrm_eq, isrSave_shm]
  change _ ↔ _ ∧ (s.shm.segments (args 0)).id = _
  generalize (if _ = 0 then minusOne else (1 : UInt32)) = v
  split_ifs with hcurrent hid
  · simp [hcurrent]
  · simp [hid]
  · simpa [hcurrent] using hid

/-- The calls that move segments leave memory alone. -/
lemma step_shared_mem (hcur : s.procs.current = some p) (hcall : e.call = some call)
    (hmoves : call.movesShared = true) (h : step cfg s e = .ok s') : s'.mem = s.mem := by
  obtain ⟨context, args, rfl, -, heq⟩ := step_call cfg hcur hcall
  rw [heq] at h
  cases call with
  | shmget =>
      rw [sysHandler, sysShmget] at h
      simp only at h
      split_ifs at h <;> obtain rfl := Except.ok.inj h <;> exact isrSave_mem
  | shmat =>
      rw [sysHandler, sysShmat_eq] at h
      split_ifs at h
      split at h <;> obtain rfl := Except.ok.inj h <;> exact isrSave_mem
  | shmdt =>
      rw [sysHandler, sysShmdt_eq] at h
      split_ifs at h
      · obtain rfl := Except.ok.inj h
        exact isrSave_mem
      · obtain rfl := Except.ok.inj h
        exact isrSave_mem
      · split at h <;> obtain rfl := Except.ok.inj h <;> exact isrSave_mem
  | shmrm =>
      rw [sysHandler, sysShmrm_eq] at h
      generalize (if _ = 0 then minusOne else (1 : UInt32)) = v at h
      split_ifs at h
      obtain rfl := Except.ok.inj h
      exact isrSave_mem
  | _ => exact absurd hmoves (by simp [SysCall.movesShared])

/-- **Every step** does one of these things to the shared memory. -/
theorem step_shared (hs : Sound s) (hcur : s.procs.current = some p)
    (h : step cfg s e = .ok s') : SharedStep cfg s p e s' := by
  cases e with
  | syscall context args =>
      by_cases hcall : (SysCall.ofNum context.eax).movesShared = false
      · refine .other (fun call hc => ?_) ?_
        · obtain rfl := Option.some.inj hc
          exact hcall
        · rw [step_syscall hcur] at h
          exact sameShared_isrSave.trans (sysHandler_shared h hcall)
      · cases hnum : SysCall.ofNum context.eax
        case shmget => exact step_shmget hs hcur hnum h
        case shmat => exact step_shmat hs hcur hnum h
        case shmdt => exact step_shmdt hs hcur hnum h
        case shmrm => exact step_shmrm hs hcur hnum h
        all_goals exact absurd (by rw [hnum]; rfl) hcall
  | clock context =>
      exact .other (by simp [Event.call]) (sameShared_isrSave.trans (sameShared_isrClock h))
  | sio context polls =>
      exact .other (by simp [Event.call]) (sameShared_isrSave.trans (sameShared_isrSio h))
  | store address byte =>
      obtain rfl := Except.ok.inj h
      exact .other (by simp [Event.call]) ⟨rfl, rfl⟩
  | record address segment =>
      obtain rfl := Except.ok.inj h
      by_cases hown : ∃ i, cfg.shm i = address
      · refine .other (by simp [Event.call]) ?_
        rw [KState.storeRecord, if_pos hown]
        exact .refl s
      · refine .record (fun i hi => hown ⟨i, hi⟩) ?_ ?_
        · rw [KState.storeRecord, if_neg hown]
        · rw [KState.storeRecord, if_neg hown]
          rfl

end Steps

end Sp2
