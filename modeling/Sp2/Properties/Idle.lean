import Sp2.Properties.Places

/-!
The idle process keeps the kernel running.

* `IdleWrites`: the events of runs in which the idle process only writes and no process
  uses the shared memory.
* `IdleReady`: the idle process runs or is ready, under its own PID and level, so that
  `_dispatch` always finds a process.
* `idle_prevents_panics`: **none of the panics of the process modules is reachable** in
  such a run.
-/

namespace Sp2

open ProcTable Procs

/-! ### The statement -/

/-- The PCB of the idle process, the first one that `_init` makes. -/
def idlePcb : PcbId := 0

/-- A call of `_kpanic` in the process modules or on their behalf. -/
def processPanics : List Panic :=
  [.nullPcbInDispatch, .nonReadyInDispatch, .sleepInsert, .readBlock, .serialWakeup, .nullCurrent]

example : processPanics.map Panic.message = ["null pcb in dispatch",
    "non-ready non-zombie in dispatch", "sleep: insert failed",
    "sys read: can't block current process", "sio isr - serial wakeup failed",
    "syscall: null current"] := rfl

/-- A system call other than those of the shared memory, which is a `write` if the idle
process makes it, or any other event. -/
def IdleWrites (s : KState) : Event → Prop
  | .syscall context _ =>
      SysCall.ofNum context.eax ∉ [.shmget, .shmat, .shmwrite, .shmread, .shmdt, .shmrm]
        ∧ (s.procs.current = some idlePcb → SysCall.ofNum context.eax = .write)
  | _ => True

instance (s : KState) : (e : Event) → Decidable (IdleWrites s e)
  | .syscall context _ => inferInstanceAs (Decidable
      (SysCall.ofNum context.eax ∉ [.shmget, .shmat, .shmwrite, .shmread, .shmdt, .shmrm]
        ∧ (s.procs.current = some idlePcb → SysCall.ofNum context.eax = .write)))
  | .clock _ | .sio _ _ | .store _ _ | .record _ _ => inferInstanceAs (Decidable True)

/-! ### The invariant -/

/-- The idle process runs or is ready, under its PID and level. -/
structure IdleReady (t : ProcTable) : Prop where
  alive : Alive t idlePcb
  pid : (t.proc idlePcb).pid = 0
  level : (t.proc idlePcb).level = levelLow

section Proof

variable {cfg : Config} {s s' : KState} {e : Event} {l : Label} {p : PcbId} {t t' : ProcTable}

lemma ofProcess_iff {halt : Halt} :
    halt.ofProcess = true ↔ ∃ panic ∈ processPanics, halt = .panic panic := by
  cases halt with
  | panic panic => cases panic <;> simp [Halt.ofProcess, processPanics]
  | nullPointer => simp [Halt.ofProcess]
  | hang => simp [Halt.ofProcess]

/-- The moves such events make: no segment moves, and the idle process does not leave. -/
lemma IdleWrites.moves (he : IdleWrites s e) (hcur : s.procs.current = some p)
    (hl : e.Allows p l) : l ≠ .other ∧ (∀ wakeup, l ≠ .park idlePcb wakeup)
      ∧ l ≠ .block idlePcb ∧ l ≠ .reap .cur idlePcb := by
  have hcall : ∀ call, e.call = some call →
      call ∉ [SysCall.shmget, .shmat, .shmwrite, .shmread, .shmdt, .shmrm]
        ∧ (p = idlePcb → call = .write) := by
    intro call hcall
    cases e with
    | syscall context args =>
        obtain rfl := Option.some.inj hcall
        exact ⟨he.1, fun hp => he.2 (hp ▸ hcur)⟩
    | _ => exact absurd hcall (by simp [Event.call])
  refine ⟨?_, fun wakeup => ?_, ?_, ?_⟩
  · rintro rfl
    rcases hl.cause with h | h <;> exact absurd (hcall _ h).1 (by decide)
  · rintro rfl
    obtain ⟨hp, h⟩ := hl.cause
    exact absurd ((hcall _ h).2 hp.symm) (by decide)
  · rintro rfl
    obtain ⟨hp, h⟩ := hl.cause
    exact absurd ((hcall _ h).2 hp.symm) (by decide)
  · rintro rfl
    obtain ⟨hp, h | h⟩ := hl.cause <;> exact absurd ((hcall _ h).2 hp.symm) (by decide)

/-- One move keeps the idle process. -/
lemma Move.idleReady (hm : Move l t t') (hc : Core t) (ho : t.other ≤ spare) (hI : IdleReady t)
    (hpark : ∀ wakeup, l ≠ .park idlePcb wakeup) (hblock : l ≠ .block idlePcb)
    (hreap : l ≠ .reap .cur idlePcb) : IdleReady t' := by
  have hused := hc.used_of_alive hI.alive
  have havail := hc.avail_pos ho hused
  have hkill : l ≠ .kill idlePcb := by
    rintro rfl
    cases hm with
    | kill is_used not_cur not_idle => exact not_idle hI.pid
  obtain ⟨hcreate, hleak, -⟩ := hm.ne_make hc hused
  obtain ⟨hpid, hlevel, -⟩ := hm.identity hcreate hleak
  exact ⟨hm.alive hc hI.alive (fun _ => by omega) hkill hpark hblock hreap, hpid.trans hI.pid,
    hlevel.trans hI.level⟩

/-- The moves of an event keep the idle process and the room in the pool. -/
lemma moves_idleReady (hs : Roomy s) (hI : IdleReady s.table) (he : IdleWrites s e)
    (hcur : s.procs.current = some p) (hms : Moves (fun l => e.Allows p l) s.table t) :
    IdleReady t := by
  have hboth : t.other = s.table.other ∧ IdleReady t := by
    refine hms.invariant hs.core (I := fun t => t.other = s.table.other ∧ IdleReady t)
      ⟨rfl, hI⟩ ?_
    rintro l u u' hl hc hm ⟨hother, hidle⟩
    obtain ⟨hne, hpark, hblock, hreap⟩ := he.moves hcur hl
    have hroom := hs.room
    refine ⟨?_, Move.idleReady hm hc (by omega) hidle hpark hblock hreap⟩
    rw [← hother, ProcTable.other, ProcTable.other, hm.shms_eq hne, hm.requests_eq]
  exact hboth.2

lemma IdleWrites.shmrmHasRoom (he : IdleWrites s e) : ShmrmHasRoom s e := by
  cases e with
  | syscall context args =>
      intro hnum
      exact absurd he.1 (by rw [hnum]; decide)
  | _ => trivial

/-- While the idle process is ready or running, a step stops for none of these panics. -/
lemma step_stop_idle {halt : Halt} (hs : Roomy s) (hI : IdleReady s.table)
    (he : IdleWrites s e) (h : step cfg s e = .error (halt, s')) : halt.ofProcess = false := by
  obtain ⟨p, hcur⟩ := hs.exists_cur
  have hmoved := step_moved cfg e hs.toSound hcur
  rw [h] at hmoved
  have hno := Stops.room hmoved hs.core hs.room fun l hl => (he.moves hcur hl).1
  cases hmoved with
  | empty moves is_empty =>
      -- the idle process would be in the last of the ready queues
      rcases (moves_idleReady hs hI he hcur moves).alive with ⟨-, level, hmem⟩ | hrun
      · rw [ids, is_empty level] at hmem
        exact absurd hmem List.not_mem_nil
      · exact absurd hrun (by simp)
  | full u moves runs no_node is_panic =>
      rcases is_panic with rfl | rfl
      · exact absurd rfl hno.2.1
      · exact absurd rfl hno.2.2
  | outside moves is_outside => exact is_outside

lemma bootTable_idleReady : IdleReady bootTable :=
  ⟨Or.inl ⟨by decide +kernel, 2, by decide +kernel⟩, by decide +kernel, by decide +kernel⟩

/-- **The idle process keeps the kernel running**: while it only writes, it is running or
ready in the ready queue of the lowest level, and the kernel stops with none of the panics
of the process modules. -/
theorem idle_prevents_panics (h : Reachable cfg IdleWrites s) :
    (s.procs.current = some idlePcb ∨
        (s.procs.pcbs idlePcb).status = .ready ∧ idlePcb ∈ s.procs.members (.ready 2)) ∧
      ∀ e halt s', IdleWrites s e → step cfg s e = .error (halt, s') →
        ∀ panic ∈ processPanics, halt ≠ .panic panic := by
  have hI : Roomy s ∧ IdleReady s.table := by
    refine h.invariant (J := fun s => Roomy s ∧ IdleReady s.table) (fun s₀ h₀ => ?_) ?_
    · rw [initial_table h₀]
      exact ⟨initial_roomy h₀, bootTable_idleReady⟩
    · rintro s e s' ⟨hs, hI⟩ he hstep
      obtain ⟨p, hcur⟩ := hs.exists_cur
      exact ⟨step_roomy hs he.shmrmHasRoom hstep,
        moves_idleReady hs hI he hcur (step_moves hs.toSound hcur hstep)⟩
  obtain ⟨hs, hI⟩ := hI
  refine ⟨?_, fun e halt s' he hstep panic hpanic hhalt => ?_⟩
  · rcases hI.alive with ⟨hstatus, level, hmem⟩ | hrun
    · -- its level says which ready queue that is
      obtain ⟨key, -, hlevel⟩ := hs.core.allows_of_mem hmem
      have htwo : level = 2 := by
        rw [hI.level] at hlevel
        exact Fin.ext hlevel.symm
      exact Or.inr ⟨hstatus, htwo ▸ hmem⟩
    · exact Or.inl hrun
  · have hno := step_stop_idle hs hI he hstep
    rw [ofProcess_iff.mpr ⟨panic, hpanic, hhalt⟩] at hno
    exact absurd hno (by simp)

/-- The two user processes exit, and the idle process runs and writes. -/
theorem idle_prevents_panics_demo : ∃ s, Reachable demoConfig IdleWrites s ∧
    (s.procs.current = some idlePcb ∨
        (s.procs.pcbs idlePcb).status = .ready ∧ idlePcb ∈ s.procs.members (.ready 2)) ∧
      ∀ e halt s', IdleWrites s e → step demoConfig s e = .error (halt, s') →
        ∀ panic ∈ processPanics, halt ≠ .panic panic := by
  obtain ⟨s, hrun, -⟩ := Transition.exists_run (step demoConfig) IdleWrites
    bootState [call 4 [0], call 3 [], call 3 [], call 6 [65], tick]
    (f := fun _ => ()) (b := ()) (by decide +kernel)
  have hreach : Reachable demoConfig IdleWrites s :=
    Transition.Reachable.run (.of_init initial_bootState) hrun
  exact ⟨s, hreach, idle_prevents_panics hreach⟩

end Proof

end Sp2
