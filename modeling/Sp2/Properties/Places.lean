import Sp2.Properties.NodePool

/-!
Every process is in its place.

* `Placed`: each PCB is in exactly one place, once, its status agrees with the place, and
  each stack is free or has one owner.
* `ProcessEvent`: the events of runs without shared memory calls, in which `spawnl` is
  called with levels that `_schedule` accepts.
* `processes_placed`: **every state such a run reaches is placed**.
-/

namespace Sp2

open ProcTable Procs

/-! ### The statement -/

/-- The processes in a queue, first to last. -/
def Procs.members (ps : Procs) (q : PcbQueue) : List PcbId :=
  (ps.queues.items (.pcbs q)).map Prod.snd

/-- The stacks in the pool, first to last. -/
def Procs.poolStacks (ps : Procs) : List StackId := (ps.queues.items .freeStacks).map Prod.snd

/-- The process has a PCB in use that owns the stack. -/
def Procs.Owns (ps : Procs) (p : PcbId) (k : StackId) : Prop :=
  (ps.pcbs p).status ≠ .free ∧ (ps.pcbs p).stack = some k

/-- Every PCB is in exactly one of the places, exactly once, and its status agrees with
the place; every stack is in the pool exactly once or has exactly one owner. -/
structure Placed (ps : Procs) : Prop where
  one_place : ∀ p, ps.current.toList.count p + ∑ q, (ps.members q).count p = 1
  free : ∀ p ∈ ps.members .freePcbs, (ps.pcbs p).status = .free
  running : ∀ p, ps.current = some p → (ps.pcbs p).status = .running
  ready : ∀ level, ∀ p ∈ ps.members (.ready level),
    ((ps.pcbs p).status = .ready ∨ (ps.pcbs p).status = .zombie)
      ∧ (ps.pcbs p).level.toNat = level
  sleeping : ∀ p ∈ ps.members .sleeping,
    (ps.pcbs p).status = .sleeping ∨ (ps.pcbs p).status = .zombie
  reading : ∀ p ∈ ps.members .reading,
    (ps.pcbs p).status = .blocked ∨ (ps.pcbs p).status = .zombie
  stacks_placed : ∀ k, ps.poolStacks.count k = 1 ∧ (∀ p, ¬ ps.Owns p k)
    ∨ ps.poolStacks.count k = 0 ∧ ∃! p, ps.Owns p k
  owner : ∀ p, (ps.pcbs p).status ≠ .free → ∃ k, ps.Owns p k

/-- A system call other than those of the shared memory, with a level that `_schedule`
accepts if it is `spawnl`, or any other event. -/
def ProcessEvent (_ : KState) : Event → Prop
  | .syscall context args =>
      match SysCall.ofNum context.eax with
      | .shmget | .shmat | .shmwrite | .shmread | .shmdt | .shmrm => False
      | .spawnl => (args 1).toUInt8.toNat < mlqLevels
      | _ => True
  | _ => True

instance (s : KState) (e : Event) : Decidable (ProcessEvent s e) := by
  unfold ProcessEvent
  split
  · split <;> infer_instance
  · infer_instance

/-! ### The proof -/

section Proof

variable {cfg : Config} {s s' : KState} {e : Event} {l : Label} {p : PcbId}

lemma ProcessEvent.shmrmHasRoom (h : ProcessEvent s e) : ShmrmHasRoom s e := by
  cases e with
  | syscall context args =>
      intro hnum
      simp [ProcessEvent, hnum] at h
  | _ => trivial

/-- Such an event makes no process with a level that is refused. -/
lemma ProcessEvent.ne_leak (h : ProcessEvent s e) (hl : e.Allows p l) (c : PcbId) :
    l ≠ .leak c := by
  rintro rfl
  obtain ⟨level, hlevel, hle⟩ := hl.cause
  cases e with
  | syscall context args =>
      rw [Event.spawnLevel] at hlevel
      rw [ProcessEvent] at h
      cases hnum : SysCall.ofNum context.eax <;> rw [hnum] at h hlevel
      case spawn =>
        obtain rfl := Option.some.inj hlevel
        exact absurd hle (by decide)
      case spawnl =>
        obtain rfl := Option.some.inj hlevel
        exact absurd h (not_lt.mpr hle)
      all_goals exact absurd hlevel (by simp)
  | _ => exact absurd hlevel (by simp [Event.spawnLevel])

/-- Neither is a segment moved. -/
lemma ProcessEvent.ne_other (h : ProcessEvent s e) (hl : e.Allows p l) : l ≠ .other := by
  rintro rfl
  rcases hl.cause with hcall | hcall
  all_goals
    cases e with
    | syscall context args =>
        have hnum := Option.some.inj hcall
        simp [ProcessEvent, hnum] at h
    | _ => exact absurd hcall (by simp [Event.call])

/-- One step loses no process and no stack. -/
lemma step_full (hs : Roomy s) (hf : Full s.table) (he : ProcessEvent s e)
    (h : step cfg s e = .ok s') : Full s'.table := by
  obtain ⟨p, hcur⟩ := hs.exists_cur
  have hms := step_moves hs.toSound hcur h
  have hI : s'.table.other = s.table.other ∧ Full s'.table := by
    refine hms.invariant hs.core (I := fun t => t.other = s.table.other ∧ Full t) ⟨rfl, hf⟩ ?_
    rintro l t t' hl hc hm ⟨hother, hfull⟩
    have hroom := hs.room
    refine ⟨?_, hm.full hc hfull (hm.failed_eq hc (by omega)) fun c => he.ne_leak hl c⟩
    rw [← hother, ProcTable.other, ProcTable.other, hm.shms_eq (he.ne_other hl), hm.requests_eq]
  exact hI.2

lemma bootTable_full : Full bootTable where
  occ_eq := by decide +kernel
  stack_used := by
    have hused : ∀ k, k ∈ bootTable.stackIds ∨ (bootProc k).status ≠ .free
        ∧ (bootProc k).stack = some k := by decide +kernel
    exact fun k => (hused k).imp_right fun h => ⟨k, h⟩

/-- A sound table in which nothing is lost, read off the kernel's variables. -/
lemma placed_of_full (hc : Core s.table) (hf : Full s.table) : Placed s.procs where
  one_place := hf.occ_eq
  free p hp := (hc.free_iff hp).mpr rfl
  running p hp := (hc.running p hp).1
  ready level p hp := by
    obtain ⟨key, ha⟩ := hc.allows_of_mem hp
    exact ha
  sleeping p hp := by
    obtain ⟨key, ha⟩ := hc.allows_of_mem hp
    exact ha.1
  reading p hp := by
    obtain ⟨key, ha⟩ := hc.allows_of_mem hp
    exact ha.1
  stacks_placed k := by
    by_cases hk : k ∈ s.table.stackIds
    · refine Or.inl ⟨List.count_eq_one_of_mem hc.stack_free hk, fun p hp => ?_⟩
      obtain ⟨k', hk', hfree⟩ := hc.stack_owned p hp.1
      obtain rfl : k = k' := Option.some.inj (hp.2.symm.trans hk')
      exact hfree hk
    · obtain ⟨p, hp⟩ := (hf.stack_used k).resolve_left hk
      exact Or.inr ⟨List.count_eq_zero_of_not_mem hk, p, hp, fun p' hp' =>
        hc.stack_unique p' p k hp'.1 hp.1 hp'.2 hp.2⟩
  owner p hp := by
    obtain ⟨k, hk, -⟩ := hc.stack_owned p hp
    exact ⟨k, hp, hk⟩

/-- **Every process is in its place** in every state a run of process events reaches: no
process is lost or queued twice, and no two of them share a stack. -/
theorem processes_placed (h : Reachable cfg ProcessEvent s) : Placed s.procs := by
  have hI : Roomy s ∧ Full s.table := by
    refine h.invariant (J := fun s => Roomy s ∧ Full s.table) (fun s₀ h₀ => ?_) ?_
    · rw [initial_table h₀]
      exact ⟨initial_roomy h₀, bootTable_full⟩
    · rintro s e s' ⟨hs, hf⟩ he hstep
      exact ⟨step_roomy hs he.shmrmHasRoom hstep, step_full hs hf he hstep⟩
  exact placed_of_full hI.1.core hI.2

/-- A process spawns another one, which kills it, sleeps and is woken. -/
theorem processes_placed_demo : ∃ s, Reachable demoConfig ProcessEvent s ∧ Placed s.procs := by
  obtain ⟨s, hrun, -⟩ := Transition.exists_run (step demoConfig) ProcessEvent
    bootState [call 1 [0x5000, 0], call 4 [1], call 2 [1], tick]
    (f := fun _ => ()) (b := ()) (by decide +kernel)
  have hreach : Reachable demoConfig ProcessEvent s :=
    Transition.Reachable.run (.of_init initial_bootState) hrun
  exact ⟨s, hreach, processes_placed hreach⟩

end Proof

end Sp2
