import Sp2.Lib.Progress
import Sp2.Properties.RoundRobin
import Sp2.Table.Phases

/-!
Waiting for the processor, over whole runs.

* `Waits`, `WaitsBefore`: a ready process waits in the ready queue of its level, and before another
  one if that is behind it or waits at a level of lower priority.
* `Passed`, `step_passed`: what a step does to the ready queues as far as a process that waits can
  see.
* `not_overtaken`: **no process is overtaken**. While a process waits, none of those it waits before
  gets the processor, whatever calls and interrupts there are.
* `dispatched_within`: **waiting is bounded**. A process that waits gets the processor after at most
  so many clock interrupts as the quanta of the processes before it last, if no process of a higher
  priority runs meanwhile.
-/

namespace Sp2

open ProcTable Procs Transition

/-! ### The statements -/

/-- The process is ready and waits at the level. -/
def Waits (s : KState) (level : Fin mlqLevels) (x : PcbId) : Prop :=
  (s.procs.pcbs x).status = .ready ∧ x ∈ s.procs.members (.ready level)

instance (s : KState) (level : Fin mlqLevels) (x : PcbId) : Decidable (Waits s level x) :=
  inferInstanceAs (Decidable (_ ∧ _))

/-- `x` waits, and `y` is behind it or at a level of lower priority. -/
def WaitsBefore (s : KState) (x y : PcbId) : Prop :=
  ∃ level, Waits s level x ∧
    (y ∈ s.procs.members (.ready level) ∧ (s.procs.members (.ready level)).idxOf x
        < (s.procs.members (.ready level)).idxOf y
      ∨ ∃ level' > level, y ∈ s.procs.members (.ready level'))

/-- How many clock interrupts the processes before `x` may use up: the rest of the quantum of the
running process, and a quantum for each process in the queue. -/
def waitingTime (s : KState) (level : Fin mlqLevels) (x : PcbId) : ℕ :=
  (quantumDefault.toNat + 1) * (s.procs.members (.ready level)).idxOf x + s.procs.quantumLeft

/-! ### The ready queues during a step -/

namespace ProcTable

section Queues

variable {t t' u : ProcTable} {l : Label} {p : PcbId} {q : PcbQueue} {level : Fin mlqLevels}

lemma prefix_push (h : u.ids (.ready level) = t.ids (.ready level)) :
    t.ids (.ready level) <+: (u.push q p).ids (.ready level) := by
  rw [← h]
  by_cases ha : u.avail = 0
  · rw [push, if_pos ha]
    exact List.prefix_rfl
  · by_cases hq : q = .ready level
    · subst hq
      have hpush : (u.push (.ready level) p).ids (.ready level) = u.ids (.ready level) ++ [p] := by
        simp [push, ha, ids, PcbQueue.insertItem]
      exact ⟨[p], hpush.symm⟩
    · rw [ProcTable.ids, ProcTable.ids, push_queue_of_ne (Ne.symm hq)]

lemma ids_take_of_ne {src : Source} (h : src ≠ .queue q) : (t.take src).ids q = t.ids q := by
  rw [ProcTable.ids, ProcTable.ids, take_queue_of_ne h]

/-- **Until the kernel dispatches, nothing leaves a ready queue**, and what comes in goes behind the
others. -/
lemma Move.ready_prefix (hm : Move l t t') (hl : NoDispatch l) (level : Fin mlqLevels) :
    t.ids (.ready level) <+: t'.ids (.ready level) := by
  have hpool : (t.take (.queue .freePcbs)).ids (.ready level) = t.ids (.ready level) :=
    ids_take_of_ne (by simp)
  cases hm with
  | @requeue _ src p level' is_next is_process is_level =>
      refine prefix_push (u := (t.take src).setStatus p .ready) (ids_take_of_ne ?_)
      rcases is_process with rfl | rfl | rfl <;> simp
  | @park _ p wakeup is_cur has_node =>
      exact prefix_push (u := (t.take .cur).setProc p _) rfl
  | @block _ p is_cur has_node => exact prefix_push (u := (t.take .cur).setStatus p .blocked) rfl
  | @bounce _ p is_next =>
      exact prefix_push (u := (t.take (.queue .freePcbs)).setStatus p .free) hpool
  | dispatch => exact hl.elim
  | @reap _ src p k is_next is_dead is_stack =>
      cases src with
      | queue q => exact hl.elim
      | cur =>
          refine prefix_push (u := ((t.take .cur).setStatus p .free).pushStack k) ?_
          rw [ProcTable.ids, pushStack_queue]
          rfl
  | @create _ p k level' l is_next is_stack is_level =>
      exact prefix_push (u := t.make p k .ready level') hpool
  | @leak _ p k level' is_next is_stack is_level =>
      have hmake : (t.make p k .free level').ids (.ready level) = t.ids (.ready level) := hpool
      rw [hmake]
  | kill => exact List.prefix_rfl
  | other => exact List.prefix_rfl

lemma Moves.ready_prefix {P : Label → Prop} (hms : Moves P t t') (hc : Core t)
    (hP : ∀ l, P l → NoDispatch l) (level : Fin mlqLevels) :
    t.ids (.ready level) <+: t'.ids (.ready level) :=
  hms.invariant hc (I := fun u => t.ids (.ready level) <+: u.ids (.ready level)) List.prefix_rfl
    fun l _ _ hl _ hm hI => hI.trans (hm.ready_prefix (hP l hl) level)

end Queues

end ProcTable

/-! ### One step -/

section Steps

variable {cfg : Config} {s s' : KState} {e : Event} {x y p : PcbId} {level : Fin mlqLevels}

/-- A dispatch has taken the processes `gone` out of the ready queue of the level, which others may
have entered. -/
def Gone (s s' : KState) (level : Fin mlqLevels) (gone : List PcbId) : Prop :=
  ∃ entered, s.procs.members (.ready level) ++ entered = gone ++ s'.procs.members (.ready level)

/-- What a step does to the ready queues while `x` waits at the level and does not get the
processor: the same process goes on, or another one of the same or a higher priority gets a new
quantum, and if it is of the same level it has waited before `x`. -/
inductive Passed (ticks : ℕ) (s s' : KState) (level : Fin mlqLevels) (x : PcbId) : Prop
  | stays (entered : ∀ l, s.procs.members (.ready l) <+: s'.procs.members (.ready l))
      (quantum : s'.procs.quantumLeft + ticks = s.procs.quantumLeft)
  | advances (l : Fin mlqLevels) (q : PcbId) (runs : s'.procs.current = some q)
      (is_level : (s'.procs.pcbs q).level.toNat = l) (not_lower : l ≤ level)
      (entered : ∀ j > l, s.procs.members (.ready j) <+: s'.procs.members (.ready j))
      (taken : l = level → ∃ front, Gone s s' level (front ++ [q]) ∧ x ∉ front ++ [q])
      (quantum : s'.procs.quantumLeft = quantumDefault.toNat)

/-- A dispatch that leaves `x` in its queue. -/
lemma Passed.of_takenOut {ticks : ℕ} {ps : Procs} {q : PcbId} {l : Fin mlqLevels}
    {front : List PcbId} (hc : Core (ps.table none))
    (hinit : ∀ l, s.procs.members (.ready l) <+: (ps.table none).ids (.ready l))
    (hdispatch : ps.dispatch = .ok s'.procs) (hq : s'.procs.current = some q)
    (hquantum : (s'.procs.pcbs q).quantum = quantumDefault)
    (hout : TakenOut 0 ps q s'.procs l front) (hle : l ≤ level) (hfront : x ∉ front)
    (hx' : s'.procs.current ≠ some x) : Passed ticks s s' level x := by
  have hmem : q ∈ (ps.table none).ids (.ready l) := by
    rw [hout.taken]
    simp
  have hlevel : (ps.pcbs q).level.toNat = l := by
    obtain ⟨key, -, hlevel⟩ := hc.allows_of_mem hmem
    exact hlevel
  have hne : q ≠ x := fun heq => hx' (heq ▸ hq)
  refine .advances l q hq ?_ hle (fun j hj => ?_) (fun hl => ⟨front, ?_, ?_⟩) ?_
  · rw [(keeps_dispatch hdispatch).level]
    exact hlevel
  · have hsame := hout.higher j hj
    change _ <+: (s'.procs.table none).ids (.ready j)
    rw [hsame]
    exact hinit j
  · subst hl
    obtain ⟨entered, hentered⟩ := hinit l
    exact ⟨entered, by rw [hentered, hout.taken, List.append_assoc]; rfl⟩
  · rw [List.mem_append, List.mem_singleton, not_or]
    exact ⟨hfront, Ne.symm hne⟩
  · rw [quantumLeft_eq hq, hquantum]

/-- **A step, as a process sees it that waits.** -/
lemma step_passed (hs : Sound s) (h : step cfg s e = .ok s') (hx : Waits s level x)
    (hx' : s'.procs.current ≠ some x) :
    Passed (if e.isClock then 1 else 0) s s' level x := by
  obtain ⟨p, hcur⟩ := hs.exists_cur
  have hc : Core (s.procs.table (some p)) := by
    rw [← hcur]
    exact hs.core
  cases step_phased hs hcur h with
  | returns runs moves quantum =>
      refine .stays (fun l => Moves.ready_prefix moves hc (fun _ => id) l) ?_
      rw [quantumLeft_eq runs, quantumLeft_eq hcur, quantum]
  | switches ps moves dispatched =>
      have hc₁ : Core (ps.table none) := moves.core hc
      have hinit : ∀ l, s.procs.members (.ready l) <+: (ps.table none).ids (.ready l) := fun l =>
        Moves.ready_prefix moves hc BeforeDispatch.noDispatch l
      have hready : InReady (ps.table none) x := by
        refine moves.invariant hc (I := fun t => InReady t x) ⟨hx.1, level, hx.2⟩
          fun l t t' hl hc hm hI => hm.inReady hc hI ?_ ?_ <;> rintro rfl <;> exact hl
      have hstatus : (ps.pcbs x).status = .ready := hready.1
      obtain ⟨q, l, front, hq, hquantum, hout⟩ := dispatch_order hc₁ dispatched
      refine .of_takenOut hc₁ hinit dispatched hq hquantum hout ?_ ?_ hx'
      · -- at a level that has been passed `x` would be a zombie
        refine not_lt.mp fun hlt => ?_
        have hzombie := hout.lower level (Nat.zero_le _) hlt x ((hinit level).subset hx.2)
        rw [hstatus] at hzombie
        cases hzombie
      · intro hfront
        have hzombie := hout.dead x hfront
        rw [hstatus] at hzombie
        cases hzombie

/-- **A step, as a process sees it** that is in a ready queue, killed or not, and is neither
dispatched nor freed. -/
lemma step_passed_of_used (hs : Sound s) (h : step cfg s e = .ok s')
    (hx : x ∈ s.procs.members (.ready level)) (hx' : s'.procs.current ≠ some x)
    (hused : (s'.procs.pcbs x).status ≠ .free) :
    Passed (if e.isClock then 1 else 0) s s' level x := by
  obtain ⟨p, hcur⟩ := hs.exists_cur
  have hc : Core (s.procs.table (some p)) := by
    rw [← hcur]
    exact hs.core
  cases step_phased hs hcur h with
  | returns runs moves quantum =>
      refine .stays (fun l => Moves.ready_prefix moves hc (fun _ => id) l) ?_
      rw [quantumLeft_eq runs, quantumLeft_eq hcur, quantum]
  | switches ps moves dispatched =>
      have hc₁ : Core (ps.table none) := moves.core hc
      have hinit : ∀ l, s.procs.members (.ready l) <+: (ps.table none).ids (.ready l) := fun l =>
        Moves.ready_prefix moves hc BeforeDispatch.noDispatch l
      obtain ⟨q, l, front, hq, hquantum, hout⟩ := dispatch_order hc₁ dispatched
      refine .of_takenOut hc₁ hinit dispatched hq hquantum hout ?_ ?_ hx'
      · exact not_lt.mp fun hlt =>
          hused (hout.lower_free level (Nat.zero_le _) hlt x ((hinit level).subset hx))
      · exact fun hfront => hused (hout.front_free x hfront)

/-- The members of a list behind what has gone are no longer so far behind. -/
lemma idxOf_gone {entered gone l l' : List PcbId} (h : l ++ entered = gone ++ l') (hx : x ∈ l)
    (hgone : x ∉ gone) : x ∈ l' ∧ l.idxOf x = gone.length + l'.idxOf x := by
  have hmem : x ∈ gone ++ l' := h ▸ List.mem_append_left _ hx
  refine ⟨(List.mem_append.mp hmem).resolve_left hgone, ?_⟩
  rw [← List.idxOf_append_of_notMem hgone, ← h, List.idxOf_append_of_mem hx]

lemma idxOf_front {l l' : List PcbId} (h : l <+: l') (hx : x ∈ l) :
    x ∈ l' ∧ l'.idxOf x = l.idxOf x := by
  obtain ⟨entered, rfl⟩ := h
  exact ⟨List.mem_append_left _ hx, List.idxOf_append_of_mem hx⟩

/-- What waits and does not get the processor still waits, unless it is killed. -/
lemma Passed.member {ticks : ℕ} (h : Passed ticks s s' level x)
    (hx : x ∈ s.procs.members (.ready level)) : x ∈ s'.procs.members (.ready level) := by
  cases h with
  | stays entered quantum => exact (entered level).subset hx
  | advances l q runs is_level not_lower entered taken quantum =>
      rcases not_lower.eq_or_lt with rfl | hlt
      · obtain ⟨front, ⟨entered', hgone⟩, hnot⟩ := taken rfl
        exact (idxOf_gone hgone hx hnot).1
      · exact (entered level hlt).subset hx

/-- **A process that waits stays before those it waits before.** -/
lemma step_waitsBefore (hs : Sound s) (h : step cfg s e = .ok s') (hxy : WaitsBefore s x y)
    (hx' : (s'.procs.pcbs x).status = .ready) : WaitsBefore s' x y := by
  obtain ⟨level, hx, hy⟩ := hxy
  have hs' := step_sound hs h
  have hrun : s'.procs.current ≠ some x := fun hcur => by
    have hrunning := (hs'.core.running x hcur).1
    exact absurd (hx'.symm.trans hrunning) (by decide)
  have hpassed := step_passed hs h hx hrun
  refine ⟨level, ⟨hx', hpassed.member hx.2⟩, ?_⟩
  cases hpassed with
  | stays entered quantum =>
      refine hy.imp (fun ⟨hmem, hlt⟩ => ?_) fun ⟨l, hl, hmem⟩ => ⟨l, hl, (entered l).subset hmem⟩
      obtain ⟨hmem', heq⟩ := idxOf_front (entered level) hmem
      rw [heq, (idxOf_front (entered level) hx.2).2]
      exact ⟨hmem', hlt⟩
  | advances l q runs is_level not_lower entered taken quantum =>
      rcases hy with ⟨hmem, hlt⟩ | ⟨l', hl', hmem⟩
      · left
        rcases not_lower.eq_or_lt with rfl | hlt'
        · -- what has gone was before `x`, and `y` is behind `x`
          obtain ⟨front, ⟨entered', hgone⟩, hnot⟩ := taken rfl
          obtain ⟨hx'', heq⟩ := idxOf_gone hgone hx.2 hnot
          have hnoty : y ∉ front ++ [q] := fun hy => by
            have hidx : (s.procs.members (.ready l)).idxOf y < (front ++ [q]).length := by
              have hsame := congrArg (List.idxOf y) hgone
              rw [List.idxOf_append_of_mem hmem, List.idxOf_append_of_mem hy] at hsame
              exact hsame ▸ List.idxOf_lt_length_of_mem hy
            omega
          obtain ⟨hy'', heq'⟩ := idxOf_gone hgone hmem hnoty
          exact ⟨hy'', by omega⟩
        · obtain ⟨hmem', heq⟩ := idxOf_front (entered level hlt') hmem
          rw [heq, (idxOf_front (entered level hlt') hx.2).2]
          exact ⟨hmem', hlt⟩
      · exact Or.inr ⟨l', hl', (entered l' (lt_of_le_of_lt not_lower hl')).subset hmem⟩

end Steps

/-! ### Runs -/

/-- The level of the idle process. -/
def lowLevel : Fin mlqLevels := ⟨2, by decide⟩

section Runs

variable {cfg : Config} {s s' : KState} {es : List Event} {x y : PcbId} {level : Fin mlqLevels}

/-- **No process is overtaken**: as long as a process stays ready, none of those that it waits
before gets the processor, and it still waits before them. -/
theorem not_overtaken (hs : Reachable cfg (fun _ _ => True) s) (hxy : WaitsBefore s x y)
    (h : Run cfg (fun s _ => (s.procs.pcbs x).status = .ready) s es s')
    (hx' : (s'.procs.pcbs x).status = .ready) :
    WaitsBefore s' x y ∧ s'.procs.current ≠ some y := by
  have hrun := (h.backwards (I := fun _ => True) trivial hx'
    fun _ _ _ _ hP _ => ⟨trivial, fun _ => hP⟩).2
  obtain ⟨hs', hxy'⟩ := hrun.invariant (I := fun s => Sound s ∧ WaitsBefore s x y)
    ⟨reachable_sound hs, hxy⟩ fun s e s' ⟨hs, hxy⟩ ⟨_, hready⟩ hstep =>
      ⟨step_sound hs hstep, step_waitsBefore hs hstep hxy (hready s' hstep)⟩
  refine ⟨hxy', fun hcur => ?_⟩
  obtain ⟨level, -, ⟨hmem, -⟩ | ⟨l, -, hmem⟩⟩ := hxy'
  · exact notMem_of_cur (hs'.core.occ_le y) hcur hmem
  · exact notMem_of_cur (hs'.core.occ_le y) hcur hmem

/-- The second process waits before the idle process, while the first one makes a child of the
highest level, which runs at once. -/
theorem not_overtaken_idle : ∃ s', Run demoConfig (fun s _ => (s.procs.pcbs 2).status = .ready)
      bootState [call 1 [0x5000, 0], tick, tick] s' ∧ s'.procs.current = some 3
      ∧ WaitsBefore s' 2 0 ∧ s'.procs.current ≠ some 0 := by
  obtain ⟨s', hrun, hend⟩ := exists_run (step demoConfig)
    (fun s _ => (s.procs.pcbs 2).status = .ready) bootState [call 1 [0x5000, 0], tick, tick]
    (f := fun s => ((s.procs.pcbs 2).status, s.procs.current)) (b := (.ready, some 3))
    (by decide +kernel)
  obtain ⟨hready, hcur⟩ := Prod.mk.inj hend
  have hwaits : WaitsBefore bootState 2 0 :=
    ⟨mediumLevel, by decide +kernel, Or.inr ⟨lowLevel, by decide, by decide +kernel⟩⟩
  exact ⟨s', hrun, hcur, not_overtaken (.of_init initial_bootState) hwaits hrun hready⟩

/-- No process of a higher priority than the level runs. -/
def NoneHigher (level : Fin mlqLevels) (s : KState) : Prop :=
  ∀ c, s.procs.current = some c → level ≤ (s.procs.pcbs c).level.toNat

instance (level : Fin mlqLevels) (s : KState) : Decidable (NoneHigher level s) :=
  inferInstanceAs (Decidable (∀ _, _))

/-- The process is not killed, and none of a higher priority runs. -/
def Undisturbed (level : Fin mlqLevels) (x : PcbId) (s : KState) : Prop :=
  (s.procs.pcbs x).status ≠ .zombie ∧ NoneHigher level s

instance (level : Fin mlqLevels) (x : PcbId) (s : KState) : Decidable (Undisturbed level x s) :=
  inferInstanceAs (Decidable (_ ∧ _))

/-- A clock interrupt weighs one. -/
def clockWeight (e : Event) : ℕ := if e.isClock then 1 else 0

lemma sum_clockWeight (es : List Event) : (es.map clockWeight).sum = es.countP (·.isClock) := by
  have h : (es.map clockWeight).sum = _ := sum_map_weight (fun e : Event => e.isClock = true) es
  simpa using h

/-- Where no process of a higher priority runs, a step takes its clock interrupt off the time a
process has to wait. -/
lemma Passed.waitingTime_le {e : Event} (h : Passed (if e.isClock then 1 else 0) s s' level x)
    (hx : x ∈ s.procs.members (.ready level))
    (hhigher : NoneHigher level s') :
    waitingTime s' level x + clockWeight e ≤ waitingTime s level x := by
  cases h with
  | stays entered quantum =>
      rw [waitingTime, waitingTime, (idxOf_front (entered level) hx).2, clockWeight]
      omega
  | advances l q runs is_level not_lower entered taken quantum =>
      have hle : level ≤ l := Fin.le_def.mpr (is_level ▸ hhigher q runs)
      obtain rfl := le_antisymm not_lower hle
      obtain ⟨front, ⟨entered', hgone⟩, hnot⟩ := taken rfl
      obtain ⟨-, heq⟩ := idxOf_gone hgone hx hnot
      have hweight : clockWeight e ≤ 1 := by
        rw [clockWeight]
        split_ifs <;> omega
      rw [List.length_append, List.length_singleton] at heq
      rw [waitingTime, waitingTime, quantum, heq]
      have hexpand : (quantumDefault.toNat + 1) * (front.length + 1
          + (s'.procs.members (.ready l)).idxOf x)
          = (quantumDefault.toNat + 1) * front.length + (quantumDefault.toNat + 1)
            + (quantumDefault.toNat + 1) * (s'.procs.members (.ready l)).idxOf x := by
        rw [Nat.mul_add, Nat.mul_add, Nat.mul_one]
      rw [hexpand]
      omega

/-- A step gives the processor to the process that waits, or takes its clock interrupt off the time
the process has to wait. -/
lemma step_waitingTime {e : Event} (hs : Sound s) (h : step cfg s e = .ok s')
    (hx : Waits s level x) (hx' : Undisturbed level x s') :
    s'.procs.current = some x ∨
      (Sound s' ∧ Waits s' level x) ∧ waitingTime s' level x + clockWeight e
        ≤ waitingTime s level x := by
  by_cases hcur : s'.procs.current = some x
  · exact Or.inl hcur
  have hs' := step_sound hs h
  have hpassed := step_passed hs h hx hcur
  have hmem := hpassed.member hx.2
  have hready : (s'.procs.pcbs x).status = .ready := by
    obtain ⟨key, hstatus, -⟩ := hs'.core.allows_of_mem (q := .ready level) hmem
    exact hstatus.resolve_right hx'.1
  exact Or.inr ⟨⟨hs', hready, hmem⟩, hpassed.waitingTime_le hx.2 hx'.2⟩

/-- **Waiting is bounded**: a process that is ready gets the processor within `waitingTime` clock
interrupts and one more, whatever else happens meanwhile, unless it is killed or a process of a
higher priority runs. -/
theorem dispatched_within (hs : Reachable cfg (fun _ _ => True) s) (hx : Waits s level x)
    (h : Run cfg (fun s _ => Undisturbed level x s) s es s') (hx' : Undisturbed level x s')
    (hcount : waitingTime s level x < es.countP (·.isClock)) :
    ∃ es₁ s₁, es₁ <+: es ∧ Run cfg (fun _ _ => True) s es₁ s₁ ∧ s₁.procs.current = some x := by
  have hrun := (h.backwards (I := fun _ => True) trivial hx'
    fun _ _ _ _ hP _ => ⟨trivial, fun _ => hP⟩).2
  rw [← sum_clockWeight] at hcount
  obtain ⟨es₁, s₁, hes, hrun₁, hcur⟩ := hrun.reaches
    (I := fun s => Sound s ∧ Waits s level x) (G := fun s => s.procs.current = some x)
    (m := fun s => waitingTime s level x) ⟨reachable_sound hs, hx⟩
    (fun s e s' ⟨hs, hx⟩ ⟨_, hx'⟩ hstep => step_waitingTime hs hstep hx (hx' s' hstep)) hcount
  exact ⟨es₁, s₁, hes, hrun₁.mono fun _ _ _ => trivial, hcur⟩

/-- The second process gets the processor from the first within three clock interrupts. -/
theorem dispatched_within_quantum : ∃ es₁ s₁, es₁ <+: [call 8 [], tick, tick, call 7 [], tick]
      ∧ Run demoConfig (fun _ _ => True) bootState es₁ s₁ ∧ s₁.procs.current = some 2 := by
  obtain ⟨s', hrun, hlast⟩ := exists_run (step demoConfig)
    (fun s _ => Undisturbed mediumLevel 2 s) bootState [call 8 [], tick, tick, call 7 [], tick]
    (f := fun s => decide (Undisturbed mediumLevel 2 s)) (b := true) (by decide +kernel)
  exact dispatched_within (.of_init initial_bootState) (by decide +kernel)
    hrun (of_decide_eq_true hlast) (by decide +kernel)

end Runs

end Sp2
