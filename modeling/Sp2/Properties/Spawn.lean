import Sp2.Properties.Places

/-!
What a spawning call returns and what it has done.

* `SpawnMeets`: the call returns the PID of a process that owns a stack from the pool and
  will run, or it returns `-1` and has consumed nothing.
* `spawn_meets_iff`: **exactly when a call does that**. `_spawn` does not look at what
  `_schedule` returns, so with a level that `_schedule` refuses it returns the PID of a
  process that is in no queue.
* `spawnl_leaks`: such a call.
-/

namespace Sp2

open ProcTable Procs

/-! ### The statement -/

/-- The call has returned the PID of a process that owns a stack taken from the pool and is
current or in its ready queue, exactly once. -/
def Spawned (caller : PcbId) (s s' : KState) : Prop :=
  ∃ c k, s'.eax caller = some (s'.procs.pcbs c).pid.toUInt32
    ∧ (s'.procs.pcbs c).stack = some k ∧ k ∈ s.procs.poolStacks ∧ k ∉ s'.procs.poolStacks
    ∧ ∃ level : Fin mlqLevels, (s'.procs.pcbs c).level.toNat = level
      ∧ s'.procs.current.toList.count c + (s'.procs.members (.ready level)).count c = 1

/-- The call has returned `-1` and changed neither the pools nor the queues, neither the
next PID nor the current process. -/
def Refused (caller : PcbId) (s s' : KState) : Prop :=
  s'.eax caller = some minusOne
    ∧ (s'.procs.members .freePcbs).Perm (s.procs.members .freePcbs)
    ∧ s'.procs.poolStacks.Perm s.procs.poolStacks
    ∧ (∀ q ≠ .freePcbs, s'.procs.queues.items (.pcbs q) = s.procs.queues.items (.pcbs q))
    ∧ s'.procs.nextPid = s.procs.nextPid ∧ s'.procs.current = s.procs.current

/-- What a spawning call is to do. -/
def SpawnMeets (caller : PcbId) (s s' : KState) : Prop := Spawned caller s s' ∨ Refused caller s s'

/-! ### The proof -/

section Proof

variable {cfg : Config} {s s' : KState} {e : Event} {level : UInt8} {p c x : PcbId}
  {t t' : ProcTable} {l : Label} {k : StackId}

/-- The moves of a spawning call after the making of the process: its parent is scheduled,
and a process dispatched. -/
def AfterMake (p : PcbId) (l : Label) : Prop := l = .requeue .cur p ∨ OfDispatch l

lemma AfterMake.ne (h : AfterMake p l) : l ≠ .create x ∧ l ≠ .leak x ∧ l ≠ .kill x
    ∧ (∀ wakeup, l ≠ .park x wakeup) ∧ l ≠ .block x ∧ l ≠ .reap .cur x := by
  refine ⟨?_, ?_, ?_, fun wakeup => ?_, ?_, ?_⟩ <;> rintro rfl <;> rcases h with h | h <;>
    first
      | exact absurd h (by simp)
      | exact h

/-- A new process stays ready or running, and keeps its PID, level and stack. -/
lemma Moves.alive_afterMake (hms : Moves (AfterMake p) t t') (hc : Core t) (hne : p ≠ x)
    (hx : Alive t x) : Alive t' x ∧ (t'.proc x).pid = (t.proc x).pid
      ∧ (t'.proc x).level = (t.proc x).level ∧ (t'.proc x).stack = (t.proc x).stack := by
  refine hms.invariant hc (I := fun u => Alive u x ∧ (u.proc x).pid = (t.proc x).pid
    ∧ (u.proc x).level = (t.proc x).level ∧ (u.proc x).stack = (t.proc x).stack)
    ⟨hx, rfl, rfl, rfl⟩ ?_
  rintro l u u' hl hc' hm ⟨hx', hpid, hlevel, hstack⟩
  obtain ⟨hcreate, hleak, hkill, hpark, hblock, hreap⟩ := hl.ne (x := x)
  obtain ⟨hpid', hlevel', hstack'⟩ := hm.identity hcreate hleak
  refine ⟨hm.alive hc' hx' (fun h => ?_) hkill hpark hblock hreap, hpid'.trans hpid,
    hlevel'.trans hlevel, hstack'.trans hstack⟩
  subst h
  rcases hl with h | h
  · exact absurd (by simpa using h.symm) hne
  · exact h.elim

/-- A process that is in no place stays so. -/
lemma Moves.nowhere_afterMake (hms : Moves (AfterMake p) t t') (hc : Core t)
    (hx : Nowhere t c) : Nowhere t' c :=
  hms.invariant hc (I := fun u => Nowhere u c) hx fun _ _ _ _ _ hm => hm.nowhere

/-- With a level that `_schedule` accepts a new process is scheduled or running. -/
lemma spawned_of_create {t₁ : ProcTable} (hs : Sound s) (hs' : Sound s')
    (hcur : s.table.cur = some p)
    (hc : s.table.At c (.queue .freePcbs)) (hk : s.table.stackIds.head? = some k)
    (heax : s'.eax p = some s.table.nextPid.toUInt32)
    (hmake : Move (.create c) s.table t₁) (hms : Moves (AfterMake p) t₁ s'.table)
    (hproc : t₁.proc c = newProc .ready level k s.table.nextPid) : Spawned p s s' := by
  have hne : p ≠ c := by
    rintro rfl
    exact notMem_of_cur (hs.core.occ_le p) hcur (At.mem hc)
  obtain ⟨halive, hpid, -, hstack⟩ :=
    Moves.alive_afterMake hms (hmake.core hs.core) hne (Or.inl hmake.inReady_create)
  rw [hproc] at hpid hstack
  refine ⟨c, k, ?_, hstack, List.mem_of_mem_head? hk, ?_, hs'.core.count_of_alive halive⟩
  · rw [heax]
    exact congrArg (fun pid : UInt16 => some pid.toUInt32) hpid.symm
  · obtain ⟨k', hk', hfree⟩ := hs'.core.stack_owned c (hs'.core.used_of_alive halive)
    obtain rfl : k = k' := Option.some.inj (hstack.symm.trans hk')
    exact hfree

/-- With any other level the PID that is returned belongs to no process that will run. -/
lemma not_meets_of_leak {t₁ : ProcTable} (hs : Sound s) (hs' : Sound s')
    (heax : s'.eax p = some s.table.nextPid.toUInt32)
    (hmake : Move (.leak c) s.table t₁) (hms : Moves (AfterMake p) t₁ s'.table)
    (hproc : ∀ x ≠ c, t₁.proc x = s.table.proc x) : ¬ SpawnMeets p s s' := by
  rintro (⟨x, k, -, hstack, hk, -, lvl, -, hcount⟩ | ⟨hminus, -⟩)
  · have hnowhere := Moves.nowhere_afterMake hms (hmake.core hs.core) (hmake.nowhere_leak hs.core)
    -- the process that is current or ready is not the new one, so its stack was never free
    have hplace : s'.procs.current = some x ∨ x ∈ s'.procs.members (.ready lvl) := by
      by_contra hnot
      obtain ⟨hcur, hmem⟩ := not_or.mp hnot
      have hzero : s'.procs.current.toList.count x = 0 := by
        rw [List.count_eq_zero]
        simpa using hcur
      rw [hzero, List.count_eq_zero_of_not_mem hmem] at hcount
      exact absurd hcount (by decide)
    have hne : x ≠ c := by
      rintro rfl
      rcases hplace with h | h
      · exact hnowhere.2 h
      · exact hnowhere.1 _ h
    have hinuse : (s'.table.proc x).status ≠ .free := by
      rcases hplace with h | h
      · rw [(hs'.core.running x h).1]
        decide
      · rw [Ne, hs'.core.free_iff h]
        simp
    obtain ⟨hinuse₁, -, hstack₁⟩ := Moves.inherited hms (hmake.core hs.core)
      (fun l hl => ⟨hl.ne.1, hl.ne.2.1⟩) hinuse
    rw [hproc x hne] at hinuse₁ hstack₁
    obtain ⟨k', hk', hfree⟩ := hs.core.stack_owned x hinuse₁
    have hstack' : (s'.table.proc x).stack = some k := hstack
    obtain rfl : k = k' := Option.some.inj (hstack'.symm.trans (hstack₁.trans hk'))
    exact hfree hk
  · rw [heax] at hminus
    exact toUInt32_ne_minusOne _ (Option.some.inj hminus)

/-- Without a free stack the PCB goes to the end of its pool, and nothing else changes. -/
lemma refused_of_bounce (heax : s'.eax p = some minusOne)
    (hm : Move (.bounce c) s.table s'.table) : Refused p s s' := by
  obtain ⟨t', ht'⟩ : ∃ t', s'.table = t' := ⟨_, rfl⟩
  rw [ht'] at hm
  cases hm with
  | bounce is_next =>
      obtain ⟨r, hr⟩ := List.head?_eq_some_iff.mp is_next
      have hpush : (((s.table.take (.queue .freePcbs)).setStatus c .free).push .freePcbs c).queue
          = Function.update s.table.queue .freePcbs
            ((s.table.queue .freePcbs).tail ++ [(0, c)]) := by
        have havail : ((s.table.take (.queue .freePcbs)).setStatus c .free).avail ≠ 0 := by
          rw [setStatus_avail, take_avail is_next, if_neg (by simp)]
          omega
        rw [push, if_neg havail]
        simp [take, pop, PcbQueue.insertItem]
      have hqueue := fun q => congrFun ((congrArg ProcTable.queue ht').trans hpush) q
      refine ⟨heax, ?_, ?_, fun q hq => ?_, ?_, ?_⟩
      · have hids : s'.procs.members .freePcbs = r ++ [c] := by
          change (s'.table.queue .freePcbs).map Prod.snd = _
          rw [hqueue, Function.update_self, List.map_append, List.map_tail]
          change (s.table.ids .freePcbs).tail ++ _ = _
          rw [hr]
          rfl
        have hids₀ : s.procs.members .freePcbs = c :: r := hr
        rw [hids, hids₀]
        exact List.perm_append_singleton c r
      · have hsame : s'.table.stackIds = s.table.stackIds := by
          rw [ht']
          simp [stackIds]
        exact List.Perm.of_eq hsame
      · exact (hqueue q).trans (Function.update_of_ne hq _ _)
      · have hsame : s'.table.nextPid = s.table.nextPid := by rw [ht']; simp
        exact hsame
      · have hsame : s'.table.cur = s.table.cur := by rw [ht']; simp [take]
        exact hsame

/-- A spawning call in a sound state returns, and does what it is to do exactly when its
level is one that `_schedule` accepts or one of the pools is empty. -/
lemma step_spawn_meets (cfg : Config) (hs : Sound s) (hcur : s.procs.current = some p)
    (hlevel : e.spawnLevel = some level) : ∃ s', step cfg s e = .ok s' ∧
      (SpawnMeets p s s' ↔ level.toNat < mlqLevels ∨ s.procs.members .freePcbs = []
        ∨ s.procs.poolStacks = []) := by
  obtain ⟨s', hstep, hres⟩ := step_spawn cfg hs hcur hlevel
  have hs' := step_sound hs hstep
  refine ⟨s', hstep, ?_⟩
  rcases hres with ⟨hnil, heax, hsame⟩ | ⟨c, hc, hnil, heax, hm⟩ |
    ⟨c, k, t₁, t₂, hc, hk, heax, hmake, hrequeue, hms, hproc⟩
  · -- no free PCB
    refine iff_of_true (Or.inr ⟨heax, ?_, ?_, fun q _ => ?_, ?_, ?_⟩) (Or.inr (Or.inl hnil))
    · exact List.Perm.of_eq (congrArg (fun t => t.ids .freePcbs) hsame)
    · exact List.Perm.of_eq (congrArg stackIds hsame)
    · exact congrArg (fun t => t.queue q) hsame
    · exact congrArg ProcTable.nextPid hsame
    · exact congrArg ProcTable.cur hsame
  · -- no free stack
    exact iff_of_true (Or.inr (refused_of_bounce heax hm)) (Or.inr (Or.inr hnil))
  · -- a process is made
    have hms' : Moves (AfterMake p) t₁ s'.table :=
      Moves.head hrequeue (Or.inl rfl) (hms.mono fun _ => Or.inr)
    have hpools : ¬ (s.procs.members .freePcbs = [] ∨ s.procs.poolStacks = []) := by
      have hpcb : c ∈ s.procs.members .freePcbs := At.mem hc
      have hstack : k ∈ s.procs.poolStacks := List.mem_of_mem_head? hk
      rintro (hnil | hnil)
      · exact List.not_mem_nil (hnil ▸ hpcb)
      · exact List.not_mem_nil (hnil ▸ hstack)
    rw [or_iff_left hpools]
    rw [makeLabel] at hmake
    by_cases hl : level.toNat < mlqLevels
    · rw [if_pos hl] at hmake hproc
      have hnew : t₁.proc c = newProc .ready level k s.table.nextPid := by
        rw [hproc, Function.update_self]
      exact iff_of_true (Or.inl (spawned_of_create hs hs' hcur hc hk heax hmake hms' hnew)) hl
    · rw [if_neg hl] at hmake
      refine iff_of_false (not_meets_of_leak hs hs' heax hmake hms' fun x hx => ?_) hl
      rw [hproc, Function.update_of_ne hx]

/-- **When a spawning call does what it is to do**, in every reachable state, with every
entry point and every level: exactly when `_schedule` accepts the level, or a pool is
empty. -/
theorem spawn_meets_iff (h : Reachable cfg (fun _ _ => True) s) (hcur : s.procs.current = some p)
    (hlevel : e.spawnLevel = some level) : ∃ s', step cfg s e = .ok s' ∧
      (SpawnMeets p s s' ↔ level.toNat < mlqLevels ∨ s.procs.members .freePcbs = []
        ∨ s.procs.poolStacks = []) :=
  step_spawn_meets cfg (reachable_sound h) hcur hlevel

/-- A spawn of a process with the highest level. -/
theorem spawn_meets_iff_demo :
    ∃ s', step demoConfig bootState (call 1 [0x5000, 0]) = .ok s' ∧ SpawnMeets 1 bootState s' := by
  obtain ⟨s', hstep, hiff⟩ := spawn_meets_iff (e := call 1 [0x5000, 0])
    (.of_init initial_bootState) bootState_current rfl
  exact ⟨s', hstep, hiff.mpr (Or.inl (by decide))⟩

/-- **A process is lost**: with the level 3 the first process gets a PID for a process that
is in no queue. -/
theorem spawnl_leaks : ∃ s', step demoConfig bootState (call 1 [0x5000, 3]) = .ok s'
    ∧ ¬ SpawnMeets 1 bootState s' := by
  obtain ⟨s', hstep, hiff⟩ := step_spawn_meets demoConfig
    (e := call 1 [0x5000, 3]) (initial_sound initial_bootState) bootState_current rfl
  refine ⟨s', hstep, fun hmeets => ?_⟩
  rcases hiff.mp hmeets with hlevel | hpcbs | hstacks
  · exact absurd hlevel (by decide)
  · change bootState.table.ids .freePcbs = [] at hpcbs
    rw [bootState_table] at hpcbs
    exact absurd hpcbs (by decide +kernel)
  · change bootState.table.stackIds = [] at hstacks
    rw [bootState_table] at hstacks
    exact absurd hstacks (by decide +kernel)

end Proof

end Sp2
