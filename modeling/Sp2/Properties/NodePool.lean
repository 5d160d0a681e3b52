import Sp2.Shared.Stores

/-!
The pool of queue nodes.

* `ShmrmHasRoom`: a removal of a segment finds fewer entries in `_free_shms` than there are
  nodes for them. Nothing in `_sys_shmrm` checks this, and a segment may be removed more
  often than it was made.
* `step_room`, `step_stop_failed`: one step, whether the kernel returns or stops.
* `inserts_succeed`: in every run whose removals find room and whose steps spare the kernel's
  data, every insertion of a process or a stack succeeds and the pool is never empty.
* `shmrm_exhausts_pool`: one segment removed eleven times, and an exiting process is lost.
-/

namespace Sp2

open ProcTable Procs

/-- Every insertion of a process or a stack so far has succeeded, that is every one made by
`_schedule`, `_pcb_dealloc`, `_stack_dealloc`, `_sys_sleep` and `_sys_read`. -/
def InsertsSucceed (ps : Procs) : Prop := ∀ e ∈ ps.inserts, e.1.isProcess = true → e.2 = .success

/-- If the event is a `shmrm` that reaches `_shm_dealloc`, `_free_shms` has fewer entries
than the pool has nodes besides one for each PCB and each stack. -/
def ShmrmHasRoom (s : KState) : Event → Prop
  | .syscall context args =>
      SysCall.ofNum context.eax = .shmrm → s.shm.currentShms ≠ 0 →
        (s.shm.segments (args 0)).id = s.shm.current.id →
        (s.procs.queues.items .freeShms).length < maxShms + fudgeFactor
  | _ => True

instance (s : KState) (e : Event) : Decidable (ShmrmHasRoom s e) :=
  match e with
  | .syscall context args => inferInstanceAs (Decidable (SysCall.ofNum context.eax = .shmrm →
      s.shm.currentShms ≠ 0 → (s.shm.segments (args 0)).id = s.shm.current.id →
      (s.procs.queues.items .freeShms).length < maxShms + fudgeFactor))
  | .clock _ => isTrue trivial
  | .sio _ _ => isTrue trivial
  | .store _ _ => isTrue trivial
  | .record _ _ => isTrue trivial

lemma insertsSucceed_iff {ps : Procs} : InsertsSucceed ps ↔ ps.inserts.countP isFailure = 0 := by
  rw [List.countP_eq_zero, InsertsSucceed]
  refine forall₂_congr fun e _ => ?_
  cases h : e.1.isProcess <;> simp [isFailure, h]

/-! ### Sequences of moves -/

section Moves

variable {t t' : ProcTable} {P : Label → Prop} {halt : Halt} {ps : Procs}

/-- While no segment moves, the room in the pool stays and no insertion fails. -/
lemma Moves.room (hms : Moves P t t') (hc : Core t) (ho : t.other ≤ spare)
    (hP : ∀ l, P l → l ≠ .other) : t'.other = t.other ∧ t'.failed = t.failed := by
  refine hms.invariant hc (I := fun u => u.other = t.other ∧ u.failed = t.failed) ⟨rfl, rfl⟩ ?_
  rintro l u u' hl hc' hm ⟨hother, hfailed⟩
  refine ⟨?_, (hm.failed_eq hc' (by omega)).trans hfailed⟩
  rw [← hother, ProcTable.other, ProcTable.other, hm.shms_eq (hP l hl), hm.requests_eq]

/-- A move of a segment is no insertion of a process or a stack. -/
lemma Moves.failed_of_other (hms : Moves P t t') (hc : Core t) (hP : ∀ l, P l → l = .other) :
    t'.failed = t.failed := by
  refine hms.invariant hc (I := fun u => u.failed = t.failed) rfl ?_
  intro l u u' hl _ hm hfailed
  obtain rfl := hP l hl
  cases hm with
  | other is_moved => exact hfailed

/-- While there is room and no segment moves, the kernel does not stop for want of a node,
nor has an insertion failed when it stops. -/
lemma Stops.room (h : Stops P t halt ps) (hc : Core t) (ho : t.other ≤ spare)
    (hP : ∀ l, P l → l ≠ .other) :
    ps.inserts.countP isFailure = t.failed ∧ halt ≠ .panic .sleepInsert
      ∧ halt ≠ .panic .readBlock := by
  cases h with
  | empty moves is_empty => exact ⟨(Moves.room moves hc ho hP).2, by simp, by simp⟩
  | full u moves runs no_node is_panic =>
      obtain ⟨p, hp⟩ := Option.ne_none_iff_exists'.mp runs
      have hother := (Moves.room moves hc ho hP).1
      have havail := (moves.core hc).avail_of_cur (by omega) hp
      omega
  | outside moves is_outside =>
      refine ⟨(Moves.room moves hc ho hP).2, ?_, ?_⟩ <;> rintro rfl <;> exact absurd is_outside
        (by decide)

end Moves

/-! ### Steps -/

section Steps

variable {cfg : Config} {s s' : KState} {e : Event} {halt : Halt} {p : PcbId}

/-- Only the two calls that move segments move a segment. -/
lemma allows_ne_other (hget : e.call ≠ some .shmget) (hrm : e.call ≠ some .shmrm) (l : Label)
    (hl : e.Allows p l) : l ≠ .other := by
  rintro rfl
  rcases hl.cause with h | h
  · exact hget h
  · exact hrm h

/-- **One step** keeps the room in the pool, and no insertion fails in it. -/
lemma step_room (hs : Sound s) (ho : s.table.other ≤ spare) (hroom : ShmrmHasRoom s e)
    (h : step cfg s e = .ok s') :
    s'.table.other ≤ spare ∧ s'.table.failed = s.table.failed := by
  obtain ⟨p, hcur⟩ := hs.exists_cur
  have hms := step_moves hs hcur h
  have hother : ∀ {t : ProcTable}, t.requests = noRequests → t.other = t.shms := by
    intro t ht
    rw [ProcTable.other, ht]
    rfl
  have hs' := step_sound hs h
  rw [hother hs.no_requests] at ho
  rw [hother hs'.no_requests]
  by_cases hget : e.call = some .shmget
  · obtain ⟨context, args, rfl, hnum, heq⟩ := step_call cfg hcur hget
    obtain ⟨t, v, hres, hprocs, -⟩ :=
      sysShmget_ok cfg args (s.isrSave context) p
    obtain rfl : t = s' := Except.ok.inj (hres.symm.trans (heq.symm.trans h))
    have hitems := (s.isrSave context).procs.queues.items_remove .freeShms
    have hlen : t.table.shms = s.table.shms - 1 := by
      change (t.procs.queues.items .freeShms).length = _
      rw [hprocs, setEax_queues]
      change (((s.isrSave context).procs.queues.remove .freeShms).2.items .freeShms).length = _
      rw [hitems, Function.update_self, List.length_tail, isrSave_items]
      rfl
    refine ⟨by omega, Moves.failed_of_other hms hs.core fun l hl => ?_⟩
    rw [Event.Allows, hnum] at hl
    exact hl
  · by_cases hrm : e.call = some .shmrm
    · obtain ⟨context, args, rfl, hnum, heq⟩ := step_call cfg hcur hrm
      rcases sysShmrm_cases args (s.isrSave context) p with
        ⟨halt, hres, -⟩ | ⟨⟨hcurrent, hid⟩, t, v, hres, -, -, hprocs⟩
      · exact absurd (hres.symm.trans (heq.symm.trans h)) (by simp)
      obtain rfl : t = s' := Except.ok.inj (hres.symm.trans (heq.symm.trans h))
      rw [isrSave_shm] at hcurrent hid
      have hless := hroom hnum hcurrent hid
      have hitems := (s.isrSave context).procs.queues.items_insert
        (s.isrSave context).procs.pcbs .freeShms (args 0)
      have hlen : t.table.shms ≤ (s.procs.queues.items .freeShms).length + 1 := by
        change (t.procs.queues.items .freeShms).length ≤ _
        rw [hprocs, setEax_queues]
        change (((s.isrSave context).procs.queues.insert (s.isrSave context).procs.pcbs .freeShms
          (args 0)).2.items .freeShms).length ≤ _
        rw [hitems]
        split_ifs
        · rw [isrSave_items]
          omega
        · rw [Function.update_self, isrSave_items]
          simp [QSys.insertItem, QueueName.hashfcn]
      refine ⟨by rw [spare]; omega, Moves.failed_of_other hms hs.core fun l hl => ?_⟩
      rw [Event.Allows, hnum] at hl
      exact hl
    · have hstep := Moves.room hms hs.core (by rwa [hother hs.no_requests])
        (allows_ne_other hget hrm)
      rw [hother hs.no_requests, hother hs'.no_requests] at hstep
      exact ⟨by omega, hstep.2⟩

/-- **A step in which the kernel stops** has no failed insertion either. -/
lemma step_stop_room (hs : Sound s) (ho : s.table.other ≤ spare)
    (h : step cfg s e = .error (halt, s')) :
    s'.procs.inserts.countP isFailure = s.table.failed ∧ halt ≠ .panic .sleepInsert
      ∧ halt ≠ .panic .readBlock := by
  obtain ⟨p, hcur⟩ := hs.exists_cur
  by_cases hget : e.call = some .shmget
  · obtain ⟨context, args, rfl, -, heq⟩ := step_call cfg hcur hget
    obtain ⟨t, v, hres, -⟩ :=
      sysShmget_ok cfg args (s.isrSave context) p
    exact absurd (hres.symm.trans (heq.symm.trans h)) (by simp)
  · by_cases hrm : e.call = some .shmrm
    · obtain ⟨context, args, rfl, -, heq⟩ := step_call cfg hcur hrm
      rcases sysShmrm_cases args (s.isrSave context) p with
        ⟨halt', hres, houtside⟩ | ⟨-, t, v, hres, -⟩
      · obtain ⟨rfl, rfl⟩ : halt' = halt ∧ s.isrSave context = s' :=
          Prod.mk.inj (Except.error.inj (hres.symm.trans (heq.symm.trans h)))
        have hsame := congrArg ProcTable.failed (isrSave_table context hs.core)
        refine ⟨hsame, ?_, ?_⟩ <;> rintro rfl <;> exact absurd houtside (by decide)
      · exact absurd (hres.symm.trans (heq.symm.trans h)) (by simp)
    · have hmoved := step_moved cfg e hs hcur
      rw [h] at hmoved
      exact Stops.room hmoved hs.core ho (allows_ne_other hget hrm)

end Steps

/-! ### Runs -/

section Runs

variable {cfg : Config} {s s' : KState}

/-- What the runs keep: sound states, room in the pool and no failed insertion. -/
structure Roomy (s : KState) : Prop extends Sound s where
  room : s.table.other ≤ spare
  no_failure : s.table.failed = 0

lemma initial_roomy (h : Initial cfg s) : Roomy s := by
  have htable := initial_table h
  exact ⟨initial_sound h, by rw [htable]; decide, by rw [htable]; rfl⟩

lemma step_roomy {e : Event} (hs : Roomy s) (hroom : ShmrmHasRoom s e)
    (h : step cfg s e = .ok s') : Roomy s' := by
  obtain ⟨hother, hfailed⟩ := step_room hs.toSound hs.room hroom h
  exact ⟨step_sound hs.toSound h, hother, hfailed.trans hs.no_failure⟩

lemma reachable_roomy (h : Reachable cfg ShmrmHasRoom s) : Roomy s :=
  h.invariant (fun _ => initial_roomy) fun _ _ _ hs hroom hstep => step_roomy hs hroom hstep

/-- What the steps of the runs meet: a removal finds room, and nothing is stored into the kernel's
data, where the free nodes are, at an address that comes from a process. -/
structure KeepsNodes (cfg : Config) (kernel : Set UInt32) (s : KState) (e : Event) : Prop where
  room : ShmrmHasRoom s e
  spares : SparesKernel cfg kernel s e

/-- **The pool of queue nodes is never exhausted** in a run whose removals of segments find
room and whose steps spare the kernel's data: a process runs with two nodes to spare, and every
insertion of a process or a stack succeeds, in the steps that end the run too. -/
theorem inserts_succeed {kernel : Set UInt32} (h : Reachable cfg (KeepsNodes cfg kernel) s) :
    2 ≤ s.procs.queues.avail ∧ InsertsSucceed s.procs ∧
      ∀ e halt s', step cfg s e = .error (halt, s') → InsertsSucceed s'.procs := by
  have hs := reachable_roomy (h.mono fun _ _ he => he.room)
  obtain ⟨p, hcur⟩ := hs.exists_cur
  refine ⟨hs.core.avail_of_cur hs.room hcur, insertsSucceed_iff.mpr hs.no_failure, ?_⟩
  intro e halt s' hstep
  rw [insertsSucceed_iff, (step_stop_room hs.toSound hs.room hstep).1, hs.no_failure]

end Runs

/-! ### One segment removed too often -/

/-- A process makes a segment and removes `n` times the record at an address of its own,
which has the same identifier. -/
def removals (n : ℕ) : List Event :=
  call 11 [8, 2] :: List.replicate n (call 16 [0x1000])

/-- The removals spare the kernel's data, which the record is none of. -/
lemma sparesKernel_removal {s : KState} {e : Event}
    (he : e.call = some .shmget ∨ e.call = some .shmrm ∧ e.args 0 = 0x1000) :
    SparesKernel demoConfig demoKernel s e := by
  rcases he with hget | ⟨hrm, hrecord⟩
  · exact .of_call hget rfl fun h => absurd h (by simp [SysCall.takesRecord])
  · refine .of_call hrm rfl fun _ => Or.inr fun x hx => ?_
    rw [hrecord] at hx
    exact notMem_demoKernel hx (by decide)

theorem inserts_succeed_removals : ∃ s, Reachable demoConfig (KeepsNodes demoConfig demoKernel) s ∧
    2 ≤ s.procs.queues.avail ∧ InsertsSucceed s.procs ∧
      ∀ e halt s', step demoConfig s e = .error (halt, s') → InsertsSucceed s'.procs := by
  obtain ⟨s, hrun, -⟩ := Transition.exists_run (step demoConfig)
    (fun s e => ShmrmHasRoom s e
      ∧ (e.call = some .shmget ∨ e.call = some .shmrm ∧ e.args 0 = 0x1000))
    bootState (removals 6) (f := fun _ => ()) (b := ()) (by decide +kernel)
  have hreach : Reachable demoConfig (KeepsNodes demoConfig demoKernel) s :=
    Transition.Reachable.run (.of_init initial_bootState)
      (hrun.mono fun _ _ he => ⟨he.1, sparesKernel_removal he.2⟩)
  exact ⟨s, hreach, inserts_succeed hreach⟩

/-- **Eleven removals use up the pool**: after them an exiting process loses its stack and
its PCB. -/
theorem shmrm_exhausts_pool : Initial demoConfig bootState ∧
    ∃ s, Run demoConfig (fun _ _ => True) bootState (removals 11 ++ [call 3 []]) s
      ∧ ¬ InsertsSucceed s.procs := by
  obtain ⟨s, hrun, hinserts⟩ := Transition.exists_run (step demoConfig)
    (fun _ _ => True) bootState (removals 11 ++ [call 3 []])
    (f := fun s => s.procs.inserts.countP isFailure) (b := 2) (by decide +kernel)
  refine ⟨initial_bootState, s, hrun, ?_⟩
  rw [insertsSucceed_iff, hinserts]
  decide

end Sp2
