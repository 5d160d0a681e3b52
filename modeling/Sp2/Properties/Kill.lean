import Sp2.Properties.Spawn

/-!
Killed processes.

* `Kills`: a system call by which the running process kills another active process.
* `Allocates`: a spawning call that takes a PCB out of the free pool.
* `killed_never_runs`: a process that is killed in a ready queue **never runs again** before
  its PCB is taken for a new process.
* `killed_sleeper_runs`: a process that is killed in `_sleeping` does, because the clock
  interrupt wakes it up as if it were alive.
-/

namespace Sp2

open ProcTable Procs

/-! ### The statement -/

/-- The event is a `kill` of the running process that finds another active process `x`. -/
def Kills (s : KState) (x : PcbId) : Event → Prop
  | .syscall context args => SysCall.ofNum context.eax = .kill ∧ ∃ p, s.procs.current = some p
      ∧ (args 0).toUInt16 ≠ 0 ∧ (args 0).toUInt16 ≠ (s.procs.pcbs p).pid
      ∧ s.procs.findPid (args 0).toUInt16 = some x
  | _ => False

instance (s : KState) (x : PcbId) : (e : Event) → Decidable (Kills s x e)
  | .syscall context args => inferInstanceAs (Decidable (SysCall.ofNum context.eax = .kill
      ∧ ∃ p, s.procs.current = some p ∧ (args 0).toUInt16 ≠ 0
        ∧ (args 0).toUInt16 ≠ (s.procs.pcbs p).pid
        ∧ s.procs.findPid (args 0).toUInt16 = some x))
  | .clock _ | .sio _ _ | .store _ _ | .record _ _ => inferInstanceAs (Decidable False)

/-- The event is a spawning call that takes the PCB out of the free pool. -/
def Allocates (cfg : Config) (s : KState) (x : PcbId) (e : Event) : Prop :=
  e.spawnLevel ≠ none ∧ x ∈ s.procs.members .freePcbs
    ∧ ∀ s', step cfg s e = .ok s' → x ∉ s'.procs.members .freePcbs

/-! ### The proof -/

section Proof

variable {cfg : Config} {s s₁ s' : KState} {e : Event} {es : List Event} {p x c : PcbId}
  {t t' : ProcTable} {P : Label → Prop}

/-- A dead process stays dead while no process is made of its PCB. -/
lemma Moves.dead (hms : Moves P t t') (hc : Core t) (hx : Dead t x)
    (hP : ∀ l, P l → l ≠ .create x ∧ l ≠ .leak x) : Dead t' x :=
  hms.invariant hc (I := fun u => Dead u x) hx fun l _ _ hl _ hm hu =>
    hm.dead hu (hP l hl).1 (hP l hl).2

lemma makeLabel_ne (level : UInt8) (h : c ≠ x) :
    makeLabel level c ≠ .create x ∧ makeLabel level c ≠ .leak x := by
  rw [makeLabel]
  split_ifs <;> simp [h]

/-- A new process is not in the free pool after the call that has made it. -/
lemma notMem_of_make {level : UInt8} (hc : Core t) (hc' : Core t') {t₁ : ProcTable}
    (hcur : t.cur = some p) (hat : t.At c (.queue .freePcbs))
    (hmake : Move (makeLabel level c) t t₁)
    (hms : Moves (AfterMake p) t₁ t') : c ∉ t'.ids .freePcbs := by
  have hne : p ≠ c := by
    rintro rfl
    exact notMem_of_cur (hc.occ_le p) hcur (At.mem hat)
  rw [makeLabel] at hmake
  split_ifs at hmake with hl
  · obtain ⟨halive, -⟩ :=
      Moves.alive_afterMake hms (hmake.core hc) hne (Or.inl hmake.inReady_create)
    exact fun hmem => hc'.used_of_alive halive ((hc'.free_iff hmem).mpr rfl)
  · exact (Moves.nowhere_afterMake hms (hmake.core hc) (hmake.nowhere_leak hc)).1 _

/-- **One step** leaves a dead process dead, or takes its PCB for a new process. -/
lemma step_dead (hs : Sound s) (hx : Dead s.table x) (h : step cfg s e = .ok s') :
    Dead s'.table x ∨ Allocates cfg s x e := by
  obtain ⟨p, hcur⟩ := hs.exists_cur
  cases hlevel : e.spawnLevel with
  | none =>
      exact Or.inl (Moves.dead (step_moves hs hcur h) hs.core hx fun l hl =>
        hl.ne_make hlevel x)
  | some level =>
      obtain ⟨s'', heq, hres⟩ := step_spawn cfg hs hcur hlevel
      obtain rfl : s'' = s' := Except.ok.inj (heq.symm.trans h)
      rcases hres with ⟨-, -, hsame⟩ | ⟨c, -, -, -, hm⟩ |
        ⟨c, k, t₁, t₂, hat, -, -, hmake, hrequeue, hms, -⟩
      · exact Or.inl (hsame ▸ hx)
      · exact Or.inl (hm.dead hx (by simp) (by simp))
      · have hms' : Moves (AfterMake p) t₁ s''.table :=
          Moves.head hrequeue (Or.inl rfl) (hms.mono fun _ => Or.inr)
        by_cases hcx : c = x
        · subst hcx
          refine Or.inr ⟨by rw [hlevel]; simp, At.mem hat, fun s' hs' => ?_⟩
          obtain rfl : s'' = s' := Except.ok.inj (heq.symm.trans hs')
          exact notMem_of_make hs.core (step_sound hs h).core hcur hat hmake hms'
        · obtain ⟨hcreate, hleak⟩ := makeLabel_ne level hcx
          exact Or.inl (Moves.dead hms' (hmake.core hs.core) (hmake.dead hx hcreate hleak)
            fun l hl => ⟨hl.ne.1, hl.ne.2.1⟩)

/-- The entry to the kernel does not change which process a PID denotes. -/
lemma isrSave_findPid (context : Context) (hs : Sound s) (hcur : s.procs.current = some p) :
    (∀ y, ((s.isrSave context).procs.pcbs y).pid = (s.procs.pcbs y).pid)
      ∧ ∀ pid, (s.isrSave context).procs.findPid pid = s.procs.findPid pid := by
  obtain ⟨-, htable, -, -⟩ := isrSave_running context hs.core hcur
  have hpid : ∀ y, ((s.isrSave context).procs.pcbs y).pid = (s.procs.pcbs y).pid := fun y =>
    congrArg (fun t => (t.proc y).pid) htable
  have hstatus : ∀ y, ((s.isrSave context).procs.pcbs y).status = (s.procs.pcbs y).status :=
    fun y => congrArg (fun t => (t.proc y).status) htable
  refine ⟨hpid, fun pid => ?_⟩
  simp only [findPid, hpid, hstatus]

/-- A step that is not a kill of the process makes no such move. -/
lemma step_moves_notKills (hs : Sound s) (hcur : s.procs.current = some p)
    (h : step cfg s e = .ok s') (hk : ¬ Kills s x e) :
    Moves (fun l => e.Allows p l ∧ l ≠ .kill x) s.table s'.table := by
  by_cases hcall : e.call = some .kill
  · cases e with
    | syscall context args =>
        have hnum : SysCall.ofNum context.eax = .kill := Option.some.inj hcall
        obtain ⟨hcur', htable, -, -⟩ := isrSave_running context hs.core hcur
        obtain ⟨hpid, hfind⟩ := isrSave_findPid context hs hcur
        have hmoved := liftProcs_moved (s := s.isrSave context) (f := (·.kill p (args 0).toUInt16))
          (kill_moved (by rw [htable]; exact hs.core) hcur')
        have hstep : (s.isrSave context).liftProcs (·.kill p (args 0).toUInt16) = .ok s' := by
          rw [← h, step_syscall hcur, hnum]
          rfl
        rw [hstep, htable] at hmoved
        refine hmoved.1.mono fun l hl => ?_
        rw [Event.Allows, hnum]
        rcases hl with rfl | ⟨y, rfl, hzero, hself, hy⟩ | hl
        · exact ⟨Or.inl rfl, by simp⟩
        · refine ⟨Or.inr (Or.inl ⟨y, rfl⟩), fun hyx => hk ?_⟩
          obtain rfl : y = x := by simpa using hyx
          exact ⟨hnum, p, hcur, hzero, by rwa [hpid] at hself, by rwa [hfind] at hy⟩
        · refine ⟨Or.inr (Or.inr hl), ?_⟩
          rintro rfl
          exact hl
    | _ => exact absurd hcall (by simp [Event.call])
  · refine (step_moves hs hcur h).mono fun l hl => ⟨hl, ?_⟩
    rintro rfl
    exact hcall hl.cause

/-- A killed process that waits for nothing is dead. -/
lemma dead_of_kills (hs : Sound s) (hk : Kills s x e) (h : step cfg s e = .ok s₁)
    (hsleeping : x ∉ s.procs.members .sleeping) (hreading : x ∉ s.procs.members .reading) :
    Dead s₁.table x := by
  cases e with
  | syscall context args =>
      obtain ⟨hnum, p, hcur, hzero, hself, hfind⟩ := hk
      obtain ⟨hcur', htable, -, -⟩ := isrSave_running context hs.core hcur
      obtain ⟨hpid, hsame⟩ := isrSave_findPid context hs hcur
      obtain ⟨ps, hres, hcur₁, hmove, -⟩ := kill_other (s := (s.isrSave context).procs) (p := p)
        hzero (by rwa [hpid]) (by rwa [hsame])
      rw [step_syscall hcur, hnum] at h
      obtain ⟨ps', hres', rfl⟩ := liftProcs_ok h
      obtain rfl : ps = ps' := Except.ok.inj (hres.symm.trans hres')
      rw [htable] at hmove
      have hcur₂ : ps.current = some p := hcur₁.trans hcur'
      obtain ⟨t₁, ht₁⟩ : ∃ t₁, ps.table (some p) = t₁ := ⟨_, rfl⟩
      change Dead (ps.table ps.current) x
      rw [hcur₂, ht₁]
      rw [ht₁] at hmove
      cases hmove with
      | kill is_used not_cur not_idle =>
          exact ⟨Or.inl (by simp), not_cur, hsleeping, hreading⟩
  | _ => exact hk.elim

/-- **A process that is killed in a ready queue never runs again**: in no state of a later
run is it the current process, as long as no spawning call takes its PCB, which such a
call finds in the free pool. -/
theorem killed_never_runs (h : Reachable cfg (fun _ _ => True) s) (hk : Kills s x e)
    (hstep : step cfg s e = .ok s₁) (hsleeping : x ∉ s.procs.members .sleeping)
    (hreading : x ∉ s.procs.members .reading)
    (hrun : Run cfg (fun s e => ¬ Allocates cfg s x e) s₁ es s') : s'.procs.current ≠ some x := by
  have hs := reachable_sound h
  have hI : Sound s' ∧ Dead s'.table x := by
    refine hrun.invariant (I := fun s => Sound s ∧ Dead s.table x)
      ⟨step_sound hs hstep, dead_of_kills hs hk hstep hsleeping hreading⟩ ?_
    rintro u e u' ⟨hu, hx⟩ he hu'
    exact ⟨step_sound hu hu', (step_dead hu hx hu').resolve_right he⟩
  exact hI.2.not_cur

/-- Without spawning calls no PCB is taken. -/
lemma run_of_noSpawn (h : Run cfg (fun _ e => e.spawnLevel = none) s es s') :
    Run cfg (fun s e => ¬ Allocates cfg s x e) s es s' :=
  h.mono fun _ _ he halloc => halloc.1 he

/-- The first process kills the second one and yields twice. -/
theorem killed_never_runs_demo : ∃ s₁ s', Kills bootState 2 (call 4 [2])
    ∧ step demoConfig bootState (call 4 [2]) = .ok s₁
    ∧ Run demoConfig (fun s e => ¬ Allocates demoConfig s 2 e) s₁ [call 2 [0], call 2 [0]] s'
    ∧ s'.procs.current ≠ some 2 := by
  obtain ⟨s₁, hstep, hrest⟩ := Transition.exists_run (step demoConfig)
    (fun _ e => e.spawnLevel = none) bootState [call 4 [2]]
    (f := fun s => ((Transition.exec (step demoConfig) (fun _ e => e.spawnLevel = none) s
      [call 2 [0], call 2 [0]]).map fun _ => ())) (b := some ()) (by decide +kernel)
  obtain ⟨s', hrun, -⟩ := Transition.exists_run _ _ _ _ hrest
  obtain ⟨s₂, -, hs₂, hnil⟩ := Transition.run_cons.mp hstep
  obtain rfl := Transition.run_nil.mp hnil
  have hkills : Kills bootState 2 (call 4 [2]) := by decide +kernel
  exact ⟨s₁, s', hkills, hs₂, run_of_noSpawn hrun, killed_never_runs
    (.of_init initial_bootState) hkills hs₂ (by decide +kernel) (by decide +kernel)
    (run_of_noSpawn hrun)⟩

/-- **A killed sleeper runs again**: the first process sleeps, the second kills it, and after
a clock interrupt and the exit of the second it runs, without any spawning call. -/
theorem killed_sleeper_runs : ∃ s s₁ s', Reachable demoConfig (fun _ _ => True) s
    ∧ Kills s 1 (call 4 [1]) ∧ step demoConfig s (call 4 [1]) = .ok s₁
    ∧ Run demoConfig (fun s e => ¬ Allocates demoConfig s 1 e) s₁ [tick, call 3 []] s'
    ∧ s'.procs.current = some 1 := by
  obtain ⟨s, hrun, hrest⟩ := Transition.exists_run (step demoConfig)
    (fun _ _ => True) bootState [call 2 [1]]
    (f := fun s => (decide (Kills s 1 (call 4 [1])), (Transition.exec (step demoConfig)
      (fun _ e => e.spawnLevel = none) s [call 4 [1], tick, call 3 []]).map (·.procs.current)))
    (b := (true, some (some 1))) (by decide +kernel)
  obtain ⟨hkills, hexec⟩ := Prod.mk.inj hrest
  obtain ⟨s', hrun', hcur⟩ := Transition.exists_run _ _ _ _ hexec
  obtain ⟨s₁, -, hstep, hlater⟩ := Transition.run_cons.mp hrun'
  exact ⟨s, s₁, s', Transition.Reachable.run (.of_init initial_bootState) hrun,
    of_decide_eq_true hkills, hstep, run_of_noSpawn hlater, hcur⟩

end Proof

end Sp2
