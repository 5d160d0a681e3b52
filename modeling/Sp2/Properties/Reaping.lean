import Sp2.Properties.Kill
import Sp2.Properties.Waiting

/-!
Killed processes are freed.

* `step_reaped`: a step frees a process that has been killed in a ready queue, or takes its clock
  interrupt off the time until that.
* `reaped_within`: **a process that has been killed in a ready queue is freed in bounded time**, as
  if it still waited for the processor.
-/

namespace Sp2

open ProcTable Procs Transition

/-- The process has been killed and is in the ready queue of the level. -/
def KilledAt (s : KState) (level : Fin mlqLevels) (x : PcbId) : Prop :=
  (s.procs.pcbs x).status = .zombie ∧ x ∈ s.procs.members (.ready level)

instance (s : KState) (level : Fin mlqLevels) (x : PcbId) : Decidable (KilledAt s level x) :=
  inferInstanceAs (Decidable (_ ∧ _))

section Reaping

variable {cfg : Config} {s s' : KState} {e : Event} {es : List Event} {x : PcbId}
  {level : Fin mlqLevels}

/-- It is in no other place. -/
lemma KilledAt.dead (hs : Sound s) (hx : KilledAt s level x) : Dead s.table x := by
  have helsewhere (q : PcbQueue) (hq : q ≠ .ready level) : x ∉ s.table.ids q := fun hmem =>
    hq (queue_unique (hs.core.occ_le x) hmem hx.2)
  exact ⟨Or.inl hx.1, fun hcur => notMem_of_cur (hs.core.occ_le x) hcur hx.2,
    helsewhere _ (by simp), helsewhere _ (by simp)⟩

/-- A step frees a killed process, or takes its clock interrupt off the time until that. -/
lemma step_reaped (hs : Sound s) (h : step cfg s e = .ok s') (hx : KilledAt s level x)
    (hhigher : NoneHigher level s') :
    (s'.procs.pcbs x).status = .free ∨
      (Sound s' ∧ KilledAt s' level x) ∧ waitingTime s' level x + clockWeight e
        ≤ waitingTime s level x := by
  by_cases hfree : (s'.procs.pcbs x).status = .free
  · exact Or.inl hfree
  have hdead : Dead s'.table x := by
    -- its PCB is not in the pool
    refine (step_dead hs (hx.dead hs) h).resolve_right fun halloc => ?_
    exact absurd (queue_unique (hs.core.occ_le x) halloc.2.1 hx.2) (by simp)
  have hpassed := step_passed_of_used hs h hx.2 hdead.not_cur hfree
  exact Or.inr ⟨⟨step_sound hs h, hdead.status.resolve_right hfree, hpassed.member hx.2⟩,
    hpassed.waitingTime_le hx.2 hhigher⟩

/-- **A process that has been killed in a ready queue is freed**, within `waitingTime` clock
interrupts and one more, whatever else happens meanwhile, unless a process of a higher priority
runs. -/
theorem reaped_within (hs : Reachable cfg (fun _ _ => True) s) (hx : KilledAt s level x)
    (h : Run cfg (fun s _ => NoneHigher level s) s es s') (hlast : NoneHigher level s')
    (hcount : waitingTime s level x < es.countP (·.isClock)) :
    ∃ es₁ s₁, es₁ <+: es ∧ Run cfg (fun _ _ => True) s es₁ s₁
      ∧ (s₁.procs.pcbs x).status = .free := by
  have hrun := (h.backwards (I := fun _ => True) trivial hlast
    fun _ _ _ _ hP _ => ⟨trivial, fun _ => hP⟩).2
  rw [← sum_clockWeight] at hcount
  obtain ⟨es₁, s₁, hes, hrun₁, hfree⟩ := hrun.reaches
    (I := fun s => Sound s ∧ KilledAt s level x)
    (G := fun s => (s.procs.pcbs x).status = .free)
    (m := fun s => waitingTime s level x) ⟨reachable_sound hs, hx⟩
    (fun s e s' ⟨hs, hx⟩ ⟨_, hhigher⟩ hstep => step_reaped hs hstep hx (hhigher s' hstep)) hcount
  exact ⟨es₁, s₁, hes, hrun₁.mono fun _ _ _ => trivial, hfree⟩

end Reaping

/-- The first process kills the second one, which is freed at the end of the quantum. -/
theorem reaped_within_quantum : ∃ s, Reachable demoConfig (fun _ _ => True) s
    ∧ ∃ es₁ s₁, es₁ <+: [call 8 [], tick, tick, call 7 [], tick]
      ∧ Run demoConfig (fun _ _ => True) s es₁ s₁ ∧ (s₁.procs.pcbs 2).status = .free := by
  obtain ⟨s, hrun, hs⟩ := exists_run (step demoConfig) (fun _ _ => True) bootState [call 4 [2]]
    (f := fun s => (decide (KilledAt s mediumLevel 2), decide (waitingTime s mediumLevel 2 < 3),
      (exec (step demoConfig) (fun s _ => NoneHigher mediumLevel s) s
        [call 8 [], tick, tick, call 7 [], tick]).map
          fun s => decide (NoneHigher mediumLevel s)))
    (b := (true, true, some true)) (by decide +kernel)
  simp only [Prod.mk.injEq, decide_eq_true_eq] at hs
  obtain ⟨hkilled, hshort, hrest⟩ := hs
  obtain ⟨s', hrun', hlast⟩ := exists_run _ _ _ _ hrest
  have hreach : Reachable demoConfig (fun _ _ => True) s :=
    Reachable.run (.of_init initial_bootState) hrun
  exact ⟨s, hreach, reaped_within hreach hkilled hrun' (of_decide_eq_true hlast) hshort⟩

end Sp2
