import Sp2.Table.Boot

/-!
What each event may do to the process table.

* `Event.call`, `Event.spawnLevel`: the system call an event is, and the level a spawning
  call asks for.
* `Label.Cause`, `Event.Allows.cause`: which events a move can come from.
* `step_spawn`: **the three outcomes of a spawning call**.
* `step_clock`: the moves of a clock interrupt, sleepers first.
* `step_clock_eq`: the system time counts the clock interrupts.
-/

namespace Sp2

open ProcTable Procs Keyed

/-- The system call an event is carried out as. -/
def Event.call : Event → Option SysCall
  | .syscall context _ => some (SysCall.ofNum context.eax)
  | _ => none

/-- The level a spawning call asks for. -/
def Event.spawnLevel : Event → Option UInt8
  | .syscall context args =>
      match SysCall.ofNum context.eax with
      | .spawn => some levelDefault
      | .spawnl => some (args 1).toUInt8
      | _ => none
  | _ => none

/-- The EAX that a process will see when it runs again. -/
def KState.eax (s : KState) (p : PcbId) : Option UInt32 := (s.procs.pcbs p).context.map Context.eax

/-! ### Which events make which moves -/

/-- What a move with this label says about the event that makes it, `caller` being the
process that was running. -/
def ProcTable.Label.Cause (caller : PcbId) (e : Event) : Label → Prop
  | requeue .cur p => p = caller
  | requeue (.queue q) _ =>
      q = .sleeping ∧ (∃ context, e = .clock context)
        ∨ q = .reading ∧ ∃ context polls, e = .sio context polls
  | park p _ => p = caller ∧ e.call = some .sleep
  | block p => p = caller ∧ e.call = some .read
  | bounce _ => e.spawnLevel ≠ none
  | dispatch _ => True
  | reap .cur p => p = caller ∧ (e.call = some .exit ∨ e.call = some .kill)
  | reap (.queue _) _ => True
  | create _ => ∃ level, e.spawnLevel = some level ∧ level.toNat < mlqLevels
  | leak _ => ∃ level, e.spawnLevel = some level ∧ mlqLevels ≤ level.toNat
  | kill _ => e.call = some .kill
  | other => e.call = some .shmget ∨ e.call = some .shmrm

section Causes

variable {caller : PcbId} {e : Event} {l : Label}

lemma ofDispatch_cause (h : OfDispatch l) : l.Cause caller e := by
  unfold OfDispatch at h
  split at h
  · trivial
  · trivial
  · exact h.elim

lemma makeLabel_cause {level : UInt8} {c : PcbId} (h : e.spawnLevel = some level) :
    (makeLabel level c).Cause caller e := by
  rw [makeLabel]
  split_ifs with hl
  · exact ⟨level, h, hl⟩
  · exact ⟨level, h, not_lt.mp hl⟩

/-- A move an event may make has the event for its cause. -/
lemma Event.Allows.cause (h : e.Allows caller l) : l.Cause caller e := by
  cases e with
  | syscall context args =>
      have hcall : (Event.syscall context args).call = some (SysCall.ofNum context.eax) := rfl
      have hlevel : (Event.syscall context args).spawnLevel
          = match SysCall.ofNum context.eax with
            | .spawn => some levelDefault
            | .spawnl => some (args 1).toUInt8
            | _ => none := rfl
      rw [Event.Allows] at h
      cases hnum : SysCall.ofNum context.eax <;> rw [hnum] at h hcall hlevel
      case spawn =>
        rcases h with ⟨c, rfl | rfl⟩ | rfl | h
        · exact ⟨_, hlevel, by decide⟩
        · rw [Label.Cause, hlevel]
          simp
        · rfl
        · exact ofDispatch_cause h
      case spawnl =>
        rcases h with ⟨c, rfl | rfl⟩ | rfl | h
        · exact makeLabel_cause hlevel
        · rw [Label.Cause, hlevel]
          simp
        · rfl
        · exact ofDispatch_cause h
      case sleep =>
        rcases h with rfl | ⟨wakeup, rfl⟩ | h
        · rfl
        · exact ⟨rfl, hcall⟩
        · exact ofDispatch_cause h
      case exit =>
        rcases h with rfl | h
        · exact ⟨rfl, Or.inl hcall⟩
        · exact ofDispatch_cause h
      case kill =>
        rcases h with rfl | ⟨p, rfl⟩ | h
        · exact ⟨rfl, Or.inr hcall⟩
        · exact hcall
        · exact ofDispatch_cause h
      case read =>
        rcases h with rfl | h
        · exact ⟨rfl, hcall⟩
        · exact ofDispatch_cause h
      case shmget =>
        obtain rfl : l = .other := h
        exact Or.inl hcall
      case shmrm =>
        obtain rfl : l = .other := h
        exact Or.inr hcall
      all_goals exact h.elim
  | clock context =>
      rcases h with h | rfl | h
      · unfold OfWake at h
        split at h
        · exact Or.inl ⟨rfl, context, rfl⟩
        · exact h.elim
      · rfl
      · exact ofDispatch_cause h
  | sio context polls =>
      obtain ⟨p, rfl⟩ := h
      exact Or.inr ⟨rfl, context, polls, rfl⟩
  | store address byte => exact h.elim
  | record address segment => exact h.elim

/-- Only a spawning call makes a process. -/
lemma Event.Allows.ne_make (h : e.Allows caller l) (hlevel : e.spawnLevel = none) (x : PcbId) :
    l ≠ .create x ∧ l ≠ .leak x := by
  constructor <;> rintro rfl <;> obtain ⟨level, hlevel', -⟩ := h.cause <;>
    rw [hlevel] at hlevel' <;> exact absurd hlevel' (by simp)

end Causes

/-! ### Spawning -/

section Spawning

variable {cfg : Config} {s s' : KState} {p : PcbId} {e : Event} {level : UInt8}

/-- While a process is ready `_dispatch` finds one. -/
lemma dispatch_of_inReady {ps : Procs} {x : PcbId} (hc : Core (ps.table none))
    (hx : InReady (ps.table none) x) :
    ∃ ps' q, ps.dispatch = .ok ps' ∧ ps'.current = some q ∧ Keeps ps ps'
      ∧ Moves OfDispatch (ps.table none) (ps'.table (some q)) := by
  rcases dispatch_spec hc with ⟨ps', q, h⟩ | ⟨ps', -, hms, hempty⟩
  · exact ⟨ps', q, h⟩
  · exfalso
    have hx' : InReady (ps'.table none) x := by
      refine hms.invariant hc (I := fun t => InReady t x) hx fun l t t' hl hc hm hI =>
        hm.inReady hc hI ?_ ?_ <;> rintro rfl <;> exact hl
    obtain ⟨-, l, hmem⟩ := hx'
    rw [ids, hempty l] at hmem
    exact List.not_mem_nil hmem

/-- The making of a process leaves a node free. -/
lemma Move.avail_make {t t' : ProcTable} {c : PcbId} {k : StackId}
    (hm : Move (makeLabel level c) t t') (hk : t.stackIds.head? = some k) : t'.avail ≠ 0 := by
  have hmake : ∀ k status level, t.At c (.queue .freePcbs) →
      2 ≤ (t.make c k status level).avail := by
    intro k status level hc
    have havail := take_avail hc
    have hstack : t.freeStacks ≠ [] := by
      intro hnil
      simp [stackIds, hnil] at hk
    rw [if_neg (by simp)] at havail
    change 2 ≤ (t.take (.queue .freePcbs)).avail + if t.freeStacks = [] then 0 else 1
    rw [if_neg hstack]
    omega
  rw [makeLabel] at hm
  split_ifs at hm
  · cases hm with
    | @create _ _ k' level' q is_next is_stack is_level =>
        have := hmake k' .ready level' is_next
        rw [push_avail]
        omega
  · cases hm with
    | @leak _ _ k' level' is_next is_stack is_level =>
        have := hmake k' .free level' is_next
        omega

/-- A spawning call is `_spawn` with its level. -/
lemma step_spawnLevel (cfg : Config) (hcur : s.procs.current = some p)
    (hlevel : e.spawnLevel = some level) :
    ∃ context fcn, step cfg s e = (s.isrSave context).liftProcs (·.spawn p fcn level) := by
  cases e with
  | syscall context args =>
      refine ⟨context, args 0, ?_⟩
      rw [step_syscall hcur]
      rw [Event.spawnLevel] at hlevel
      cases hnum : SysCall.ofNum context.eax <;> rw [hnum] at hlevel <;>
        first
          | (obtain rfl := Option.some.inj hlevel; rfl)
          | exact absurd hlevel (by simp)
  | clock context => exact absurd hlevel (by simp [Event.spawnLevel])
  | sio context polls => exact absurd hlevel (by simp [Event.spawnLevel])
  | store address byte => exact absurd hlevel (by simp [Event.spawnLevel])
  | record address segment => exact absurd hlevel (by simp [Event.spawnLevel])

/-- With a free PCB and a free stack a spawning call makes a process, schedules it if it
can and its parent, and dispatches. -/
lemma step_spawn_make (cfg : Config) {c : PcbId} {k : StackId} (hs : Sound s)
    (hcur : s.procs.current = some p) (hlevel : e.spawnLevel = some level)
    (hc : s.table.At c (.queue .freePcbs)) (hk : s.table.stackIds.head? = some k) :
    ∃ (context : Context) (ps : Procs) (t : ProcTable),
      step cfg s e = (s.isrSave context).liftProcs (fun _ => ps.dispatch)
      ∧ Move (makeLabel level c) s.table t ∧ Move (.requeue .cur p) t (ps.table none)
      ∧ t.proc = Function.update s.table.proc c (newProc
        (if level.toNat < mlqLevels then .ready else .free) level k s.table.nextPid)
      ∧ (ps.pcbs p).context.map Context.eax = some s.table.nextPid.toUInt32 := by
  obtain ⟨context, fcn, heq⟩ := step_spawnLevel cfg hcur hlevel
  obtain ⟨hcur', htable, hnone, hcontext⟩ := isrSave_running context hs.core hcur
  obtain ⟨ps, t, hres, hmake, hrequeue, hproc, hcontext'⟩ :=
    spawn_make (s := (s.isrSave context).procs) (p := p) fcn level
      (by rw [htable]; exact hs.core) (by rw [hnone]; exact hc) (by rw [hnone]; exact hk)
  rw [htable] at hmake
  refine ⟨context, ps, t, ?_, hmake, hrequeue, ?_, ?_⟩
  · rw [heq, KState.liftProcs, KState.liftProcs, hres]
  · rw [hproc, hnone, ← htable]
    rfl
  · rw [hcontext', hcontext, ← htable]
    rfl

/-- **The three outcomes of a spawning call**: without a free PCB nothing happens, without
a free stack the PCB goes back, and otherwise the first free PCB gets the first free stack
and the next PID; a level that is too large is not noticed. -/
theorem step_spawn (cfg : Config) (hs : Sound s) (hcur : s.procs.current = some p)
    (hlevel : e.spawnLevel = some level) :
    ∃ s', step cfg s e = .ok s' ∧
      ((s.table.ids .freePcbs = [] ∧ s'.eax p = some minusOne ∧ s'.table = s.table) ∨
      (∃ c, s.table.At c (.queue .freePcbs) ∧ s.table.stackIds = [] ∧ s'.eax p = some minusOne
        ∧ Move (.bounce c) s.table s'.table) ∨
      ∃ c k t₁ t₂, s.table.At c (.queue .freePcbs) ∧ s.table.stackIds.head? = some k
        ∧ s'.eax p = some s.table.nextPid.toUInt32
        ∧ Move (makeLabel level c) s.table t₁ ∧ Move (.requeue .cur p) t₁ t₂
        ∧ Moves OfDispatch t₂ s'.table
        ∧ t₁.proc = Function.update s.table.proc c (newProc
          (if level.toNat < mlqLevels then .ready else .free) level k s.table.nextPid)) := by
  obtain ⟨context, fcn, heq⟩ := step_spawnLevel cfg hcur hlevel
  obtain ⟨hcur', htable, hnone, hcontext⟩ := isrSave_running context hs.core hcur
  have heax : ∀ {ps' : Procs} {v : UInt32}, Keeps (s.isrSave context).procs ps' →
      ((ps'.setEax p v).pcbs p).context.map Context.eax = some v := by
    intro ps' v hkeeps
    rw [setEax_context, if_pos rfl, hkeeps.context, hcontext]
    rfl
  cases hids : (s.table.ids .freePcbs).head? with
  | none =>
      have hnil := List.head?_eq_none_iff.mp hids
      obtain ⟨ps', hres, hkeeps, hcur'', hsame⟩ := spawn_noPcb (s := (s.isrSave context).procs)
        p fcn level (by rw [hnone]; exact hnil)
      refine ⟨_, heq.trans (liftProcs_eq hres), Or.inl ⟨hnil, heax hkeeps, ?_⟩⟩
      rw [KState.table, setEax_current, table_setEax, hcur'', hsame, hcur', htable]
  | some c =>
      cases hstack : s.table.stackIds.head? with
      | none =>
          have hnil := List.head?_eq_none_iff.mp hstack
          obtain ⟨ps', hres, hkeeps, hcur'', hmove⟩ :=
            spawn_noStack (s := (s.isrSave context).procs) p fcn level
              (by rw [hnone]; exact hids) (by rw [hnone]; exact hnil)
          refine ⟨_, heq.trans (liftProcs_eq hres), ?_⟩
          refine Or.inr (Or.inl ⟨c, hids, hnil, heax hkeeps, ?_⟩)
          have hmove' := hmove (some p)
          rw [htable] at hmove'
          change Move _ s.table ((ps'.setEax p minusOne).table ps'.current)
          rwa [table_setEax, hcur'', hcur']
      | some k =>
          obtain ⟨context', ps, t₁, heq', hmake, hrequeue, hproc, heax'⟩ :=
            step_spawn_make cfg hs hcur hlevel hids hstack
          -- the parent is ready again, so that a process is found
          have hready := Move.inReady_requeue_cur hrequeue (Move.avail_make hmake hstack)
          obtain ⟨ps', q, hdispatch, hcur'', hkeeps, hms⟩ :=
            dispatch_of_inReady (hrequeue.core (hmake.core hs.core)) hready
          refine ⟨_, heq'.trans (liftProcs_eq hdispatch), Or.inr (Or.inr
            ⟨c, k, t₁, ps.table none, hids, rfl, ?_, hmake, hrequeue, ?_, hproc⟩)⟩
          · change (ps'.pcbs p).context.map Context.eax = _
            rw [hkeeps.context, heax']
          · change Moves OfDispatch _ (ps'.table ps'.current)
            rwa [hcur'']

end Spawning

/-! ### The clock -/

section Clock

variable {cfg : Config} {s s' : KState} {p : PcbId} {e : Event} {context : Context} {args : Args}

lemma isrSave_frame (s : KState) (context : Context) :
    (s.isrSave context).clock = s.clock ∧ (s.isrSave context).sio = s.sio := by
  rw [KState.isrSave]
  cases s.procs.current <;> exact ⟨rfl, rfl⟩

/-- No PID and no identifier is `-1`. -/
lemma toUInt32_ne_minusOne (v : UInt16) : v.toUInt32 ≠ minusOne := by
  intro h
  have hlt := v.toNat_lt
  have heq := congrArg UInt32.toNat h
  simp [minusOne] at heq
  omega

/-- A system call is carried out by its handler. -/
lemma step_call (cfg : Config) {call : SysCall} (hcur : s.procs.current = some p)
    (hcall : e.call = some call) :
    ∃ context args, e = .syscall context args ∧ SysCall.ofNum context.eax = call
      ∧ step cfg s e = sysHandler cfg p args (s.isrSave context) call := by
  cases e with
  | syscall context args =>
      obtain rfl := Option.some.inj hcall
      exact ⟨context, args, rfl, rfl, step_syscall hcur⟩
  | clock context => exact absurd hcall (by simp [Event.call])
  | sio context polls => exact absurd hcall (by simp [Event.call])
  | store address byte => exact absurd hcall (by simp [Event.call])
  | record address segment => exact absurd hcall (by simp [Event.call])

lemma isrSave_sio : (s.isrSave context).sio = s.sio := (isrSave_frame s context).2

lemma isrSave_shm : (s.isrSave context).shm = s.shm := by
  rw [KState.isrSave]
  cases s.procs.current <;> rfl

lemma isrSave_mem : (s.isrSave context).mem = s.mem := by
  rw [KState.isrSave]
  cases s.procs.current <;> rfl

lemma isrSave_items {q : QueueName} :
    (s.isrSave context).procs.queues.items q = s.procs.queues.items q := by
  rw [KState.isrSave]
  cases s.procs.current <;> rfl

/-- The last part of `_isr_clock` returns if a node is free or some process is ready. -/
lemma expireQuantum_ok {ps : Procs} (hc : Core (ps.table (some p))) (hcur : ps.current = some p)
    (h : (ps.table (some p)).avail ≠ 0 ∨ ∃ x, InReady (ps.table (some p)) x) :
    ∃ ps', ps.expireQuantum = .ok ps' := by
  by_cases hq : (ps.pcbs p).quantum = 0
  · have heq : ps.expireQuantum = (ps.schedule p).2.dispatch := by simp [expireQuantum, hcur, hq]
    have hmove := schedule_requeue (s := ps) (p := p) (hc.running p rfl).2
    have hready : ∃ x, InReady ((ps.schedule p).2.table none) x := by
      rcases h with ha | ⟨x, hx⟩
      · exact ⟨p, Move.inReady_requeue_cur hmove ha⟩
      · exact ⟨x, hmove.inReady hc hx (by simp) (by simp)⟩
    obtain ⟨x, hx⟩ := hready
    obtain ⟨ps', q, hres, -⟩ := dispatch_of_inReady (hmove.core hc) hx
    exact ⟨ps', heq.trans hres⟩
  · exact ⟨ps.setPcb p fun x => { x with quantum := x.quantum - 1 }, by
      simp [expireQuantum, hcur, hq]⟩

/-- **A clock interrupt** first takes every sleeper to its ready queue whose wakeup time has
come and leaves the others, and then counts the quantum down. -/
theorem step_clock (cfg : Config) (context : Context) (hs : Sound s)
    (hcur : s.procs.current = some p) :
    ∃ t, Moves OfWake s.table t
      ∧ t.queue .sleeping = later s.clock.tick.systemTime (s.table.queue .sleeping)
      ∧ (∀ x ∈ due s.clock.tick.systemTime (s.table.queue .sleeping), InReady t x.2)
      ∧ (t.avail ≠ 0 ∨ (∃ x, InReady t x) → ∃ s', step cfg s (.clock context) = .ok s')
      ∧ ∀ s', step cfg s (.clock context) = .ok s' → s'.clock = s.clock.tick ∧ s'.sio = s.sio
        ∧ Moves (fun l => l = .requeue .cur p ∨ OfDispatch l) t s'.table := by
  have hframe := isrSave_frame s context
  obtain ⟨hcur', htable, -, -⟩ := isrSave_running context hs.core hcur
  have hc : Core ((s.isrSave context).procs.table (some p)) := htable ▸ hs.core
  obtain ⟨ps, heq, -, hcur'', hms, hlater, hdue⟩ :=
    isrClock_spec cfg hc (htable ▸ hs.no_requests) hcur'
  rw [htable, hframe.1] at hlater hdue
  rw [htable] at hms
  refine ⟨ps.table (some p), hms, hlater, hdue, fun h => ?_, fun s' h => ?_⟩
  · obtain ⟨ps', hres⟩ := expireQuantum_ok (hms.core hs.core) hcur'' h
    exact ⟨_, heq.trans (liftProcs_eq hres)⟩
  · obtain ⟨ps', hres, rfl⟩ := liftProcs_ok (heq.symm.trans h)
    have hlast := expireQuantum_moved (hms.core hs.core) hcur''
    change ps.expireQuantum = .ok ps' at hres
    rw [hres] at hlast
    exact ⟨congrArg Clock.tick hframe.1, hframe.2, hlast.1⟩

/-- What a system call makes of the variables of the serial module. -/
def SysCall.onSio (args : Args) (sio : Sio) : SysCall → Sio
  | read => sio.sioRead.2
  | write => sio.sioWrite (args 0)
  | _ => sio

/-- A `shmwrite` that returns changes memory and the caller's EAX only. -/
lemma sysShmwrite_ok (h : sysShmwrite p args s = .ok s') :
    ∃ mem v, s' = ({ s with mem := mem } : KState).setEax p v := by
  rw [sysShmwrite] at h
  split_ifs at h
  · exact ⟨s.mem, _, (Except.ok.inj h).symm⟩
  · split at h
    · cases h
    · exact ⟨_, _, (Except.ok.inj h).symm⟩

/-- So does a `shmread`. -/
lemma sysShmread_ok (h : sysShmread p args s = .ok s') :
    ∃ mem v, s' = ({ s with mem := mem } : KState).setEax p v := by
  rw [sysShmread] at h
  split_ifs at h
  · exact ⟨s.mem, _, (Except.ok.inj h).symm⟩
  · split at h
    · cases h
    · exact ⟨_, _, (Except.ok.inj h).symm⟩

/-- No system call changes the time, and only two touch the serial module. -/
lemma sysHandler_frame {call : SysCall} (h : sysHandler cfg p args s call = .ok s') :
    s'.clock = s.clock ∧ s'.sio = call.onSio args s.sio := by
  have hlift : ∀ {f : Procs → Res Procs} {s₀ : KState}, s₀.liftProcs f = .ok s' →
      s'.clock = s₀.clock ∧ s'.sio = s₀.sio := by
    intro f s₀ h
    obtain ⟨procs, -, rfl⟩ := liftProcs_ok h
    exact ⟨rfl, rfl⟩
  cases call with
  | spawn => exact hlift h
  | spawnl => exact hlift h
  | sleep => exact hlift h
  | exit => exact hlift h
  | kill => exact hlift h
  | read =>
      have hsio : SysCall.read.onSio args s.sio = s.sio.sioRead.2 := rfl
      rw [sysHandler, sysRead] at h
      rw [hsio]
      cases hread : s.sio.sioRead with
      | mk ch sio =>
          rw [hread] at h
          cases ch with
          | none => exact hlift h
          | some ch =>
              obtain rfl := Except.ok.inj h
              exact ⟨rfl, rfl⟩
  | shmget =>
      obtain ⟨t, v, heq, -, hclock, hsio⟩ :=
        sysShmget_ok cfg args s p
      obtain rfl : t = s' := Except.ok.inj (heq.symm.trans h)
      exact ⟨hclock, hsio⟩
  | shmat =>
      rw [sysHandler, sysShmat] at h
      split_ifs at h <;> obtain rfl := Except.ok.inj h <;> exact ⟨rfl, rfl⟩
  | shmwrite =>
      obtain ⟨mem, v, rfl⟩ := sysShmwrite_ok h
      exact ⟨rfl, rfl⟩
  | shmread =>
      obtain ⟨mem, v, rfl⟩ := sysShmread_ok h
      exact ⟨rfl, rfl⟩
  | shmdt =>
      rw [sysHandler, sysShmdt] at h
      split_ifs at h <;> obtain rfl := Except.ok.inj h <;> exact ⟨rfl, rfl⟩
  | shmrm =>
      rcases sysShmrm_cases args s p with ⟨halt, heq, -⟩ |
        ⟨-, t, v, heq, hclock, hsio, -⟩
      · exact absurd (heq.symm.trans h) (by simp)
      · obtain rfl : t = s' := Except.ok.inj (heq.symm.trans h)
        exact ⟨hclock, hsio⟩
  | _ =>
      obtain rfl := Except.ok.inj h
      exact ⟨rfl, rfl⟩

lemma rxInterrupt_clock {ch : UInt8} (h : rxInterrupt ch s = .ok s') : s'.clock = s.clock := by
  unfold rxInterrupt at h
  simp only at h
  split at h
  · cases hres : (s.procs.qRemove (.pcbs .reading)).1 with
    | none =>
        rw [hres] at h
        cases h
    | some q =>
        rw [hres] at h
        simp only at h
        split at h
        · cases h
        · obtain rfl := Except.ok.inj h
          rfl
  · split at h <;> obtain rfl := Except.ok.inj h <;> rfl

lemma isrSio_clock : ∀ (polls : List (UInt8 × UInt8)) (s : KState),
    isrSio polls s = .ok s' → s'.clock = s.clock
  | [], s, h => by
      obtain rfl := Except.ok.inj h
      rfl
  | (eir, rxd) :: polls, s, h => by
      rw [isrSio] at h
      split_ifs at h
      · exact isrSio_clock polls { s with sio := s.sio.txInterrupt } h
      · cases hres : rxInterrupt rxd s with
        | ok t =>
            rw [hres] at h
            exact (isrSio_clock polls t h).trans (rxInterrupt_clock hres)
        | error _ =>
            rw [hres] at h
            cases h
      · obtain rfl := Except.ok.inj h
        rfl

/-- The event is a clock interrupt. -/
def Event.isClock : Event → Bool
  | .clock _ => true
  | _ => false

/-- **The time advances with the clock interrupts** and with nothing else. -/
lemma step_clock_eq (hs : Sound s) (h : step cfg s e = .ok s') :
    s'.clock = if e.isClock then s.clock.tick else s.clock := by
  obtain ⟨p, hcur⟩ := hs.exists_cur
  cases e with
  | syscall context args =>
      rw [step_syscall hcur] at h
      exact (sysHandler_frame h).1.trans (isrSave_frame s context).1
  | clock context =>
      obtain ⟨t, -, -, -, -, hok⟩ := step_clock cfg context hs hcur
      exact (hok s' h).1
  | sio context polls => exact (isrSio_clock polls _ h).trans (isrSave_frame s context).1
  | store address byte =>
      obtain rfl := Except.ok.inj h
      rfl
  | record address segment =>
      obtain rfl := Except.ok.inj h
      change (s.storeRecord cfg address segment).clock = s.clock
      rw [KState.storeRecord]
      split_ifs <;> rfl

end Clock

end Sp2
