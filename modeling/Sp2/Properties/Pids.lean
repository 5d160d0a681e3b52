import Sp2.Properties.Idle
import Sp2.Properties.Spawn

/-!
Process identifiers.

* `PidsUnique`: the PCBs in use have different PIDs, and only the idle process has PID 0.
* `PidFresh`: a call that makes a process finds a PID counter that is not 0 and not the PID
  of a PCB in use. Nothing in `_make_proc` checks this.
* `pids_unique`: in a run whose steps are so, **PIDs are unique in every state reached**.
* `Lone`, `lone_turn`: a process that makes a child again and again, each of which exits at
  once; a turn advances the PID counter by one and leaves the rest as it was.
* `pid_wraps`: after 65533 turns the counter is 0, and the next child has the PID of the
  idle process.
-/

namespace Sp2

open ProcTable Procs

/-! ### The statement -/

/-- The PCBs in use have different PIDs, and none but the idle process has PID 0. -/
structure PidsUnique (ps : Procs) : Prop where
  distinct : ∀ p p', (ps.pcbs p).status ≠ .free → (ps.pcbs p').status ≠ .free →
    (ps.pcbs p).pid = (ps.pcbs p').pid → p = p'
  zero : ∀ p, (ps.pcbs p).status ≠ .free → (ps.pcbs p).pid = 0 → p = idlePcb

/-- If the event is a call that makes a process, the PID counter is neither 0 nor the PID
of a PCB in use. -/
def PidFresh (s : KState) (e : Event) : Prop :=
  match e.spawnLevel with
  | some level => level.toNat < mlqLevels → s.procs.members .freePcbs ≠ [] →
      s.procs.poolStacks ≠ [] → s.procs.nextPid ≠ 0 ∧
        ∀ p, (s.procs.pcbs p).status ≠ .free → (s.procs.pcbs p).pid ≠ s.procs.nextPid
  | none => True

instance (s : KState) (e : Event) : Decidable (PidFresh s e) := by
  unfold PidFresh
  split <;> infer_instance

/-! ### The proof -/

section Proof

variable {cfg : Config} {s s' : KState} {e : Event} {p : PcbId}

/-- If the PCB is in use after the step, it was so before, with the same PID. -/
def Inherits (s s' : KState) (x : PcbId) : Prop :=
  (s'.procs.pcbs x).status ≠ .free →
    (s.procs.pcbs x).status ≠ .free ∧ (s'.procs.pcbs x).pid = (s.procs.pcbs x).pid

/-- The event is a call that makes a process. -/
def MakesProcess (s : KState) (e : Event) : Prop :=
  ∃ level, e.spawnLevel = some level ∧ level.toNat < mlqLevels ∧ s.procs.members .freePcbs ≠ []
    ∧ s.procs.poolStacks ≠ []

/-- The making of a process gives one PCB the next PID, if its level is accepted. -/
lemma inherits_of_make {c : PcbId} {k : StackId} {level : UInt8} {t₁ : ProcTable}
    (hs : Sound s) (hlevel : e.spawnLevel = some level) (hat : s.table.At c (.queue .freePcbs))
    (hk : s.table.stackIds.head? = some k) (hmake : Move (makeLabel level c) s.table t₁)
    (hms : Moves (AfterMake p) t₁ s'.table)
    (hproc : t₁.proc = Function.update s.table.proc c (newProc
      (if level.toNat < mlqLevels then .ready else .free) level k s.table.nextPid)) :
    (∀ x, Inherits s s' x) ∨ ∃ c, MakesProcess s e ∧ (s'.procs.pcbs c).pid = s.procs.nextPid
      ∧ ∀ x ≠ c, Inherits s s' x := by
  have hback : ∀ x, (s'.table.proc x).status ≠ .free →
      (t₁.proc x).status ≠ .free ∧ (s'.table.proc x).pid = (t₁.proc x).pid := by
    intro x hx
    obtain ⟨hused, hpid, -⟩ := Moves.inherited hms (hmake.core hs.core)
      (fun l hl => ⟨hl.ne.1, hl.ne.2.1⟩) hx
    exact ⟨hused, hpid⟩
  have hother : ∀ x ≠ c, Inherits s s' x := by
    intro x hx hstatus
    have hbefore := hback x hstatus
    rwa [hproc, Function.update_of_ne hx] at hbefore
  by_cases hc : (s'.table.proc c).status = .free
  · refine Or.inl fun x hx => hother x ?_ hx
    rintro rfl
    exact hx hc
  · obtain ⟨hused, hpid⟩ := hback c hc
    rw [hproc, Function.update_self] at hused hpid
    -- a process with a level that is refused is not in use
    have hl : level.toNat < mlqLevels := by
      by_contra hl
      rw [if_neg hl] at hused
      exact hused rfl
    exact Or.inr ⟨c, ⟨level, hlevel, hl, List.ne_nil_of_mem (At.mem hat),
      List.ne_nil_of_mem (List.mem_of_mem_head? hk)⟩, hpid, hother⟩

/-- **Who is in use after a step**: those that were before, and one more PCB with the next PID
if the step makes a process. -/
lemma step_inherits (hs : Sound s) (h : step cfg s e = .ok s') :
    (∀ x, Inherits s s' x) ∨ ∃ c, MakesProcess s e ∧ (s'.procs.pcbs c).pid = s.procs.nextPid
      ∧ ∀ x ≠ c, Inherits s s' x := by
  obtain ⟨p, hcur⟩ := hs.exists_cur
  cases hlevel : e.spawnLevel with
  | none =>
      refine Or.inl fun x hx => ?_
      obtain ⟨hused, hpid, -⟩ := Moves.inherited (step_moves hs hcur h) hs.core
        (fun l hl => hl.ne_make hlevel x) hx
      exact ⟨hused, hpid⟩
  | some level =>
      obtain ⟨s'', heq, hres⟩ := step_spawn cfg hs hcur hlevel
      obtain rfl : s'' = s' := Except.ok.inj (heq.symm.trans h)
      rcases hres with ⟨-, -, hsame⟩ | ⟨c, -, -, -, hm⟩ |
        ⟨c, k, t₁, t₂, hat, hk, -, hmake, hrequeue, hms, hproc⟩
      · refine Or.inl fun x hx => ?_
        have hproc : s''.table.proc x = s.table.proc x := by rw [hsame]
        change (s''.table.proc x).status ≠ .free at hx
        rw [hproc] at hx
        exact ⟨hx, congrArg Proc.pid hproc⟩
      · refine Or.inl fun x hx => ?_
        obtain ⟨hused, hpid, -⟩ := Moves.inherited (Moves.single hm rfl) hs.core
          (fun l hl => ⟨by rw [← hl]; simp, by rw [← hl]; simp⟩) hx
        exact ⟨hused, hpid⟩
      · exact inherits_of_make hs hlevel hat hk hmake
          (Moves.head hrequeue (Or.inl rfl) (hms.mono fun _ => Or.inr)) hproc

/-- PIDs stay unique while those in use are old ones. -/
lemma PidsUnique.of_inherits (h : PidsUnique s.procs) (hold : ∀ x, Inherits s s' x) :
    PidsUnique s'.procs where
  distinct p p' hp hp' heq := by
    obtain ⟨hused, hpid⟩ := hold p hp
    obtain ⟨hused', hpid'⟩ := hold p' hp'
    exact h.distinct p p' hused hused' (hpid.symm.trans (heq.trans hpid'))
  zero p hp hzero := by
    obtain ⟨hused, hpid⟩ := hold p hp
    exact h.zero p hused (hpid.symm.trans hzero)

/-- One more PCB in use, with a fresh PID. -/
lemma PidsUnique.of_fresh {c : PcbId} (h : PidsUnique s.procs) (hnext : s.procs.nextPid ≠ 0)
    (hfresh : ∀ p, (s.procs.pcbs p).status ≠ .free → (s.procs.pcbs p).pid ≠ s.procs.nextPid)
    (hnew : (s'.procs.pcbs c).pid = s.procs.nextPid) (hold : ∀ x ≠ c, Inherits s s' x) :
    PidsUnique s'.procs where
  distinct p p' hp hp' heq := by
    have hother : ∀ x ≠ c, (s'.procs.pcbs x).status ≠ .free →
        (s'.procs.pcbs x).pid ≠ s.procs.nextPid := by
      intro x hx hstatus
      obtain ⟨hused, hpid⟩ := hold x hx hstatus
      rw [hpid]
      exact hfresh x hused
    by_cases hpc : p = c <;> by_cases hpc' : p' = c
    · rw [hpc, hpc']
    · subst hpc
      exact absurd (heq.symm.trans hnew) (hother p' hpc' hp')
    · subst hpc'
      exact absurd (heq.trans hnew) (hother p hpc hp)
    · obtain ⟨hused, hpid⟩ := hold p hpc hp
      obtain ⟨hused', hpid'⟩ := hold p' hpc' hp'
      exact h.distinct p p' hused hused' (hpid.symm.trans (heq.trans hpid'))
  zero p hp hzero := by
    by_cases hpc : p = c
    · subst hpc
      exact absurd (hnew.symm.trans hzero) hnext
    · obtain ⟨hused, hpid⟩ := hold p hpc hp
      exact h.zero p hused (hpid.symm.trans hzero)

/-- **One step** keeps PIDs unique if a new one is fresh. -/
lemma step_pidsUnique (hs : Sound s) (hu : PidsUnique s.procs) (hfresh : PidFresh s e)
    (h : step cfg s e = .ok s') : PidsUnique s'.procs := by
  rcases step_inherits hs h with hold | ⟨c, ⟨level, hlevel, hl, hpcb, hstack⟩, hnew, hold⟩
  · exact hu.of_inherits hold
  · rw [PidFresh, hlevel] at hfresh
    obtain ⟨hnext, hnot⟩ := hfresh hl hpcb hstack
    exact hu.of_fresh hnext hnot hnew hold

lemma initial_pidsUnique (h : Initial cfg s) : PidsUnique s.procs := by
  have hproc : ∀ p, (s.procs.pcbs p).status = (bootProc p).status
      ∧ (s.procs.pcbs p).pid = (bootProc p).pid := fun p =>
    have htable := congrArg (fun t => t.proc p) (initial_table h)
    ⟨congrArg Proc.status htable, congrArg Proc.pid htable⟩
  constructor <;> simp only [hproc] <;> decide +kernel

/-- **PIDs are unique** in every state that a run reaches whose new PIDs are fresh. -/
theorem pids_unique (h : Reachable cfg PidFresh s) : PidsUnique s.procs := by
  have hI : Sound s ∧ PidsUnique s.procs := by
    refine h.invariant (J := fun s => Sound s ∧ PidsUnique s.procs)
      (fun s₀ h₀ => ⟨initial_sound h₀, initial_pidsUnique h₀⟩) ?_
    rintro s e s' ⟨hs, hu⟩ hfresh hstep
    exact ⟨step_sound hs hstep, step_pidsUnique hs hu hfresh hstep⟩
  exact hI.2

/-- A process makes two children, the first of which exits. -/
theorem pids_unique_demo : ∃ s, Reachable demoConfig PidFresh s ∧ PidsUnique s.procs := by
  obtain ⟨s, hrun, -⟩ := Transition.exists_run (step demoConfig) PidFresh
    bootState [call 1 [0x5000, 0], call 3 [], call 0 [0x5000]]
    (f := fun _ => ()) (b := ()) (by decide +kernel)
  have hreach : Reachable demoConfig PidFresh s :=
    Transition.Reachable.run (.of_init initial_bootState) hrun
  exact ⟨s, hreach, pids_unique hreach⟩

end Proof

/-! ### The counter wraps -/

section Turns

variable {cfg : Config} {s : KState} {t t' : ProcTable} {p c : PcbId} {l : Fin mlqLevels}

/-- A process is made at the end of the ready queue of its level. -/
lemma ProcTable.Move.create_eq (hm : Move (.create c) t t') (hl : (t'.proc c).level.toNat = l) :
    t'.queue = Function.update (Function.update t.queue .freePcbs (t.queue .freePcbs).tail)
        (.ready l) (t.queue (.ready l) ++ [(0, c)])
      ∧ t'.nextPid = t.nextPid + 1 := by
  cases hm with
  | @create _ c k level l' is_next is_stack is_level =>
      have hlevel : level.toNat = l := by simpa [make, newProc] using hl
      obtain rfl : l = l' := Fin.ext (hlevel.symm.trans is_level)
      have havail : (t.make c k .ready level).avail ≠ 0 := by
        have htake := take_avail is_next
        rw [if_neg (by simp)] at htake
        change (t.take (.queue .freePcbs)).avail + _ ≠ 0
        omega
      refine ⟨?_, by simp [make]⟩
      rw [push, if_neg havail]
      rfl

/-- The running process goes to the end of the ready queue of its level. -/
lemma ProcTable.Move.requeue_cur_eq (hm : Move (.requeue .cur p) t t') (ha : t.avail ≠ 0)
    (hl : (t.proc p).level.toNat = l) :
    t'.queue = Function.update t.queue (.ready l) (t.queue (.ready l) ++ [(0, p)])
      ∧ t'.proc = Function.update t.proc p { t.proc p with status := .ready }
      ∧ t'.nextPid = t.nextPid := by
  cases hm with
  | @requeue _ _ p l' is_next is_process is_level =>
      obtain rfl : l = l' := Fin.ext (hl.symm.trans is_level)
      refine ⟨?_, by simp, by simp⟩
      rw [push, if_neg (by simpa [take] using ha)]
      rfl

/-- The running process exits: its PCB and its stack go to the ends of their pools. -/
lemma ProcTable.Move.reap_cur_eq (hm : Move (.reap .cur p) t t') (ha : 2 ≤ t.avail) :
    t'.queue = Function.update t.queue .freePcbs (t.queue .freePcbs ++ [(0, p)])
      ∧ t'.proc = Function.update t.proc p { t.proc p with status := .free }
      ∧ t'.nextPid = t.nextPid ∧ t'.stackIds ≠ [] := by
  cases hm with
  | @reap _ _ p k is_next is_dead is_stack =>
      have havail : ((t.take .cur).setStatus p .free).avail ≠ 0 := by
        change t.avail ≠ 0
        omega
      have havail' : (((t.take .cur).setStatus p .free).pushStack k).avail ≠ 0 := by
        rw [pushStack_avail]
        change t.avail - 1 ≠ 0
        omega
      refine ⟨?_, by simp, by simp, ?_⟩
      · rw [push, if_neg havail', pushStack_queue]
        simp [PcbQueue.insertItem, take]
      · rw [stackIds, push_freeStacks, pushStack, if_neg havail]
        simp

/-- The idle process is in use under its PID. -/
def IdleInUse (t : ProcTable) : Prop :=
  (t.proc idlePcb).status ≠ .free ∧ (t.proc idlePcb).pid = 0

/-- A process of the default level runs, none is ready on its level or above, the pools have
an entry each, and the idle process is in use. -/
structure Lone (t : ProcTable) (p : PcbId) : Prop where
  cur : t.cur = some p
  level : (t.proc p).level = levelDefault
  high : t.queue (.ready 0) = []
  medium : t.queue (.ready 1) = []
  pcbs : t.ids .freePcbs ≠ []
  poolStacks : t.stackIds ≠ []
  idle : IdleInUse t
  not_idle : p ≠ idlePcb

/-- A child of the process runs, and the process is next when it exits. -/
structure Lent (t : ProcTable) (p c : PcbId) : Prop where
  cur : t.cur = some c
  level : (t.proc p).level = levelDefault
  ready : (t.proc p).status = .ready
  high : t.queue (.ready 0) = []
  medium : t.queue (.ready 1) = [(0, p)]
  idle : IdleInUse t
  not_idle : p ≠ idlePcb
  child_ne : c ≠ p
  child_not_idle : c ≠ idlePcb

lemma ready_ne : PcbQueue.ready 0 ≠ .ready 1 := by decide

/-- The process makes a child of the highest level, which runs at once. -/
lemma lone_spawn (cfg : Config) (hs : Roomy s) (h : Lone s.table p) :
    ∃ s' c, step cfg s (call 1 [0x5000, 0]) = .ok s' ∧ Lent s'.table p c
      ∧ (s'.table.proc c).pid = s.table.nextPid
      ∧ s'.table.nextPid = s.table.nextPid + 1 := by
  have hcur : s.procs.current = some p := h.cur
  obtain ⟨c, hc⟩ := Option.ne_none_iff_exists'.mp (mt List.head?_eq_none_iff.mp h.pcbs)
  obtain ⟨k, hk⟩ := Option.ne_none_iff_exists'.mp (mt List.head?_eq_none_iff.mp h.poolStacks)
  have hfree : (s.table.proc c).status = .free := (hs.core.free_iff (At.mem hc)).mpr rfl
  have hcp : c ≠ p := by
    rintro rfl
    exact notMem_of_cur (hs.core.occ_le c) h.cur (At.mem hc)
  have hci : c ≠ idlePcb := by
    rintro rfl
    exact h.idle.1 hfree
  have hlevel : (call 1 [0x5000, 0]).spawnLevel = some 0 := rfl
  obtain ⟨context, ps, t, hstep, hmake₀, hrequeue, hproc, -⟩ :=
    step_spawn_make cfg hs.toSound hcur hlevel hc hk
  have hmake : Move (.create c) s.table t := hmake₀
  obtain ⟨hqueue₁, hnext₁⟩ := hmake.create_eq (l := 0) (by rw [hproc, Function.update_self]; rfl)
  obtain ⟨hqueue₂, hproc₂, hnext₂⟩ := hrequeue.requeue_cur_eq (l := 1)
    (Move.avail_make hmake₀ hk)
    (by rw [hproc, Function.update_of_ne hcp.symm, h.level]; rfl)
  rw [hproc] at hproc₂
  rw [hqueue₁] at hqueue₂
  have hhigh : (ps.table none).queue (.ready 0) = [(0, c)] := by
    rw [hqueue₂, Function.update_of_ne ready_ne, Function.update_self, h.high]
    rfl
  have hmedium : (ps.table none).queue (.ready 1) = [(0, p)] := by
    rw [hqueue₂, Function.update_self, Function.update_of_ne ready_ne.symm,
      Function.update_of_ne (by decide), h.medium]
    rfl
  have hready : ((ps.table none).proc c).status = .ready := by
    rw [hproc₂, Function.update_of_ne hcp, Function.update_self]
    rfl
  obtain ⟨ps', hdispatch, hcur', -, htable⟩ := dispatch_first (s := ps) (p := c) 0
    (by simp [At, ids, hhigh]) hready fun l hl => absurd hl (Fin.not_lt_zero l)
  have htable' : ({ s.isrSave context with procs := ps' } : KState).table
      = (((ps.table none).take (.queue (.ready 0))).setStatus c .running).setCur (some c) := by
    rw [← htable, KState.table, hcur']
  refine ⟨_, c, hstep.trans (liftProcs_eq hdispatch), ?_, ?_, ?_⟩
  all_goals
    rw [htable']
    generalize ps.table none = t₂ at *
  · refine ⟨rfl, ?_, ?_, ?_, ?_, ?_, h.not_idle, hcp, hci⟩
    · simp [hproc₂, hcp.symm, h.level]
    · simp [hproc₂, hcp.symm]
    · simp [take, pop, hhigh]
    · change Function.update t₂.queue (.ready 0) (t₂.queue (.ready 0)).tail (.ready 1) = _
      rw [Function.update_of_ne ready_ne.symm, hmedium]
    · simpa [IdleInUse, hproc₂, hci.symm, h.not_idle.symm] using h.idle
  · simp [hproc₂, hcp, newProc]
  · simp [hnext₂, hnext₁]

/-- The child exits, and the process runs again. -/
lemma lent_exit (cfg : Config) (hs : Roomy s) (h : Lent s.table p c) :
    ∃ s', step cfg s (call 3 []) = .ok s' ∧ Lone s'.table p
      ∧ s'.table.nextPid = s.table.nextPid := by
  have hcur : s.procs.current = some c := h.cur
  obtain ⟨context, args, he⟩ : ∃ context args, call 3 [] = .syscall context args
      ∧ SysCall.ofNum context.eax = .exit := ⟨_, _, rfl, rfl⟩
  obtain ⟨hcur', hsame, -, -⟩ := isrSave_running context hs.core hcur
  have hreap := cleanup_reap (s := (s.isrSave context).procs) (p := c) (by
    rw [hsame]
    exact hs.core)
  rw [hsame] at hreap
  set ps := (s.isrSave context).procs.cleanup (some c) with hps
  obtain ⟨hqueue, hproc, hnext, hstack⟩ :=
    hreap.reap_cur_eq (hs.core.avail_of_cur hs.room h.cur)
  have hhigh : (ps.table none).queue (.ready 0) = [] := by simp [hqueue, h.high]
  have hmedium : (ps.table none).queue (.ready 1) = [(0, p)] := by simp [hqueue, h.medium]
  have hready : ((ps.table none).proc p).status = .ready := by
    rw [hproc, Function.update_of_ne h.child_ne.symm, h.ready]
  obtain ⟨ps', hdispatch, hcur'', -, htable⟩ := dispatch_first (s := ps) (p := p) 1
    (by simp [At, ids, hmedium]) hready fun l hl => by
      obtain rfl : l = 0 := Fin.ext (Nat.lt_one_iff.mp hl)
      exact hhigh
  have htable' : ({ s.isrSave context with procs := ps' } : KState).table
      = (((ps.table none).take (.queue (.ready 1))).setStatus p .running).setCur (some p) := by
    rw [← htable, KState.table, hcur'']
  refine ⟨{ s.isrSave context with procs := ps' }, ?_, ?_, ?_⟩
  · rw [he.1, step_syscall hcur, he.2]
    exact liftProcs_eq hdispatch
  all_goals
    rw [htable']
    generalize ps.table none = t₂ at *
  · refine ⟨rfl, ?_, ?_, ?_, ?_, ?_, ?_, h.not_idle⟩
    · simp [hproc, h.child_ne.symm, h.level]
    · change Function.update t₂.queue (.ready 1) (t₂.queue (.ready 1)).tail (.ready 0) = []
      rw [Function.update_of_ne ready_ne, hhigh]
    · simp [take, pop, hmedium]
    · simp [ids, take, pop, hqueue]
    · simpa [stackIds] using hstack
    · simpa [IdleInUse, hproc, h.child_not_idle.symm, h.not_idle.symm] using h.idle
  · simp [hnext]

lemma processEvent_spawn (s : KState) : ProcessEvent s (call 1 [0x5000, 0]) :=
  (by decide : (0 : UInt8).toNat < mlqLevels)

/-- **A turn**: the process makes a child, which exits, and the PID counter is one
further. -/
lemma lone_turn (cfg : Config) (hs : Roomy s) (h : Lone s.table p) :
    ∃ s', Run cfg ProcessEvent s [call 1 [0x5000, 0], call 3 []] s' ∧ Roomy s' ∧ Lone s'.table p
      ∧ s'.table.nextPid = s.table.nextPid + 1 := by
  have hexit : ∀ s, ProcessEvent s (call 3 []) := fun _ => trivial
  obtain ⟨s₁, c, hstep₁, hlent, -, hnext₁⟩ := lone_spawn cfg hs h
  have hs₁ := step_roomy hs (processEvent_spawn s).shmrmHasRoom hstep₁
  obtain ⟨s₂, hstep₂, hlone, hnext₂⟩ := lent_exit cfg hs₁ hlent
  exact ⟨s₂, .cons (processEvent_spawn s) hstep₁ (.cons (hexit s₁) hstep₂ (.nil s₂)),
    step_roomy hs₁ (hexit s₁).shmrmHasRoom hstep₂, hlone, hnext₂.trans hnext₁⟩

/-- **Many turns**, by induction on their number. -/
lemma lone_turns (cfg : Config) (hs : Roomy s) (h : Lone s.table p) (n : ℕ) :
    ∃ es s', Run cfg ProcessEvent s es s' ∧ Roomy s' ∧ Lone s'.table p
      ∧ s'.table.nextPid = s.table.nextPid + UInt16.ofNat n := by
  induction n with
  | zero => exact ⟨[], s, .nil s, hs, h, by simp⟩
  | succ n ih =>
      obtain ⟨es, s₁, hrun, hs₁, h₁, hnext₁⟩ := ih
      obtain ⟨s₂, hturn, hs₂, h₂, hnext₂⟩ := lone_turn cfg hs₁ h₁
      refine ⟨_, s₂, hrun.append hturn, hs₂, h₂, ?_⟩
      rw [hnext₂, hnext₁, UInt16.ofNat_add, UInt16.add_assoc]
      rfl

/-- **The PID counter wraps**: a process makes 65533 children, one after the other, and the
PID of the next one is 0, which the idle process has. -/
theorem pid_wraps : ∃ s, Reachable demoConfig ProcessEvent s ∧ ¬ PidsUnique s.procs := by
  obtain ⟨s₀, hrun₀, hlone⟩ := Transition.exists_run (step demoConfig) ProcessEvent
    bootState [call 3 []]
    (f := fun s => decide (s.table.nextPid = 3 ∧ s.table.cur = some 2
      ∧ (s.table.proc 2).level = levelDefault ∧ s.table.queue (.ready 0) = []
      ∧ s.table.queue (.ready 1) = [] ∧ s.table.ids .freePcbs ≠ [] ∧ s.table.stackIds ≠ []
      ∧ (s.table.proc idlePcb).status ≠ .free ∧ (s.table.proc idlePcb).pid = 0)) (b := true)
    (by decide +kernel)
  obtain ⟨hnext₀, hcur, hlevel, hhigh, hmedium, hpcbs, hstacks, hidle⟩ := of_decide_eq_true hlone
  have hreach₀ : Reachable demoConfig ProcessEvent s₀ :=
    Transition.Reachable.run (.of_init initial_bootState) hrun₀
  have hroomy₀ := reachable_roomy (hreach₀.mono fun _ _ h => h.shmrmHasRoom)
  obtain ⟨es, s₁, hrun₁, hs₁, h₁, hnext₁⟩ := lone_turns demoConfig hroomy₀
    ⟨hcur, hlevel, hhigh, hmedium, hpcbs, hstacks, hidle, by decide⟩ 65533
  have hzero : s₁.table.nextPid = 0 := by rw [hnext₁, hnext₀]; rfl
  obtain ⟨s₂, c, hstep, hlent, hpid, -⟩ := lone_spawn demoConfig hs₁ h₁
  have hs₂ := step_sound hs₁.toSound hstep
  have hreach : Reachable demoConfig ProcessEvent s₂ := (hreach₀.run hrun₁).run
    (.cons (processEvent_spawn s₁) hstep (.nil s₂))
  refine ⟨s₂, hreach, fun hu => hlent.child_not_idle (hu.zero c ?_ (hpid.trans hzero))⟩
  exact hs₂.core.used_of_alive (Or.inr hlent.cur)

end Turns

end Sp2
