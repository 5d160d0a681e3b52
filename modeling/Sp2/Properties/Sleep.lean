import Sp2.Properties.Kill
import Sp2.Table.Phases

/-!
How long a sleep lasts.

* `SleepsExactly`: in every later run without a kill of the process, it stays in `_sleeping`
  until the completing clock interrupt, which takes it to its ready queue.
* `Asleep`, `run_asleep`: a sleeper stays asleep while the time is before its wakeup time,
  whatever the other processes do.
* `step_sleep_ok_iff`: a process can go to sleep if a queue node is free and another process is
  ready.
* `sleeps_exactly_iff`: **exactly when a sleep lasts as long as it is to**. The wakeup time
  is a sum modulo `2 ^ 32` and is compared with the time as it is, so the sum must not wrap
  around before the time does.
* `sleep_cut_short`: a sleep that begins just before the time wraps around and is ended by
  the next clock interrupt.
-/

namespace Sp2

open ProcTable Procs Keyed

/-! ### The statement -/

/-- The number of clock interrupts among the events. -/
def ticks (es : List Event) : ℕ := es.countP Event.isClock

/-- The process is in `_sleeping`, with the status for it. -/
def Sleeps (s : KState) (x : PcbId) : Prop :=
  x ∈ s.procs.members .sleeping ∧ (s.procs.pcbs x).status = .sleeping

/-- The process has left `_sleeping` for its ready queue, and is still there or has been
dispatched from there. -/
def Woken (s : KState) (x : PcbId) : Prop :=
  x ∉ s.procs.members .sleeping ∧ (s.procs.current = some x ∨ (s.procs.pcbs x).status = .ready
    ∧ ∃ level : Fin mlqLevels, (s.procs.pcbs x).level.toNat = level
      ∧ x ∈ s.procs.members (.ready level))

/-- In every run in which the process is not killed it sleeps until the `k`-th clock
interrupt, which wakes it up. -/
def SleepsExactly (cfg : Config) (x : PcbId) (k : ℕ) (s : KState) : Prop :=
  ∀ es s', Run cfg (fun s e => ¬ Kills s x e) s es s' →
    (ticks es < k → Sleeps s' x) ∧ ∀ context s'', ticks es + 1 = k →
      step cfg s' (.clock context) = .ok s'' → Woken s'' x

/-- A queue node is free, and a process other than the running one is ready. -/
def CanSleep (s : KState) : Prop :=
  s.procs.queues.avail ≠ 0 ∧ ∃ y, (s.procs.pcbs y).status = .ready
    ∧ ∃ level : Fin mlqLevels, y ∈ s.procs.members (.ready level)

/-! ### One step -/

section Steps

variable {cfg : Config} {s s' : KState} {e : Event} {es : List Event} {p x : PcbId}
  {w : UInt32} {t t' : ProcTable} {P : Label → Prop} {context : Context} {args : Args}

/-- A sleeper with its wakeup time, which is not killed. -/
structure Asleep (s : KState) (x : PcbId) (w : UInt32) : Prop extends Sound s where
  entry : (w, x) ∈ s.table.queue .sleeping
  not_zombie : (s.table.proc x).status ≠ .zombie

lemma Asleep.sleeps (h : Asleep s x w) : Sleeps s x := by
  refine ⟨mem_ids h.entry, ?_⟩
  have ha := h.core.allows _ _ h.entry
  exact ha.1.resolve_right h.not_zombie

/-- Moves that neither wake the sleeper up nor kill it leave it asleep. -/
lemma Moves.asleep (hms : Moves P t t') (hc : Core t) (hx : (w, x) ∈ t.queue .sleeping)
    (hz : (t.proc x).status ≠ .zombie)
    (hP : ∀ l, P l → l ≠ .requeue (.queue .sleeping) x ∧ l ≠ .kill x) :
    (w, x) ∈ t'.queue .sleeping ∧ (t'.proc x).status ≠ .zombie := by
  refine hms.invariant hc (I := fun t => (w, x) ∈ t.queue .sleeping
    ∧ (t.proc x).status ≠ .zombie) ⟨hx, hz⟩ ?_
  rintro l u u' hl hc' hm ⟨hx', hz'⟩
  exact ⟨hm.sleeping hc' hx' (hP l hl).1, hm.not_zombie (hP l hl).2 hz'⟩

lemma ofDispatch_ne {l : Label} (h : OfDispatch l) :
    l ≠ .requeue (.queue .sleeping) x ∧ l ≠ .kill x := by
  constructor <;> rintro rfl <;> exact h

lemma tick_systemTime (c : Clock) : c.tick.systemTime = c.systemTime + 1 := by
  rw [Clock.tick]
  dsimp only
  split_ifs <;> rfl

/-- The time after an event. -/
lemma step_systemTime (hs : Sound s) (h : step cfg s e = .ok s') : s'.clock.systemTime
    = s.clock.systemTime + if e.isClock then 1 else 0 := by
  rw [step_clock_eq hs h]
  by_cases he : e.isClock
  · rw [if_pos he, if_pos he, tick_systemTime]
  · rw [if_neg he, if_neg he, UInt32.add_zero]

/-- **One step** leaves a sleeper asleep, unless it is killed or its time has come. -/
lemma step_asleep (h : Asleep s x w) (hstep : step cfg s e = .ok s') (hk : ¬ Kills s x e)
    (hlt : e.isClock → s.clock.systemTime + 1 < w) : Asleep s' x w := by
  obtain ⟨p, hcur⟩ := h.exists_cur
  suffices (w, x) ∈ s'.table.queue .sleeping ∧ (s'.table.proc x).status ≠ .zombie from
    ⟨step_sound h.toSound hstep, this.1, this.2⟩
  cases he : e.isClock with
  | false =>
      refine Moves.asleep (step_moves_notKills h.toSound hcur hstep hk) h.core h.entry
        h.not_zombie fun l hl => ⟨?_, hl.2⟩
      rintro rfl
      rcases hl.1.cause with ⟨-, context, rfl⟩ | ⟨h, -⟩
      · exact absurd he (by simp [Event.isClock])
      · exact absurd h (by simp)
  | true =>
      cases e with
      | clock context =>
          obtain ⟨t, hwake, hlater, -, -, hok⟩ := step_clock cfg context h.toSound hcur
          obtain ⟨-, -, hlast⟩ := hok s' hstep
          rw [tick_systemTime] at hlater
          have hentry : (w, x) ∈ t.queue .sleeping := by
            rw [hlater]
            exact (mem_later_iff s.procs.queues.sorted_sleeping).mpr
              ⟨h.entry, Std.not_le.mpr (hlt he)⟩
          have hz : (t.proc x).status ≠ .zombie :=
            hwake.invariant h.core (I := fun t => (t.proc x).status ≠ .zombie) h.not_zombie
              fun l u u' hl _ hm hz => hm.not_zombie (by rintro rfl; exact hl) hz
          refine Moves.asleep hlast (hwake.core h.core) hentry hz fun l hl => ?_
          rcases hl with rfl | hl
          · simp
          · exact ofDispatch_ne hl
      | _ => exact absurd he (by simp [Event.isClock])

/-- A process that is ready or running has been woken up. -/
lemma woken_of_alive (hc : Core s.table) (h : Alive s.table x) : Woken s x := by
  rcases h with ⟨hstatus, level, hmem⟩ | hcur
  · obtain ⟨key, -, hlevel⟩ := hc.allows_of_mem hmem
    refine ⟨fun hsleep => ?_, Or.inr ⟨hstatus, level, hlevel, hmem⟩⟩
    exact absurd (queue_unique (hc.occ_le x) hmem hsleep) (by simp)
  · exact ⟨notMem_of_cur (hc.occ_le x) hcur, Or.inl hcur⟩

/-- **The clock wakes a sleeper up** whose time has come. -/
lemma step_woken (h : Asleep s x w) (hle : w ≤ s.clock.systemTime + 1)
    (hstep : step cfg s (.clock context) = .ok s') : Woken s' x := by
  obtain ⟨p, hcur⟩ := h.exists_cur
  have hne : p ≠ x := by
    rintro rfl
    exact notMem_of_cur (h.core.occ_le p) hcur (mem_ids h.entry)
  obtain ⟨t, hwake, -, hdue, -, hok⟩ := step_clock cfg context h.toSound hcur
  obtain ⟨-, -, hlast⟩ := hok s' hstep
  rw [tick_systemTime] at hdue
  have hready : InReady t x := hdue (w, x)
    ((mem_due_iff s.procs.queues.sorted_sleeping).mpr ⟨h.entry, hle⟩)
  have halive : Alive s'.table x := by
    refine hlast.invariant (hwake.core h.core) (I := fun t => Alive t x) (Or.inl hready) ?_
    intro l u u' hl hc hm hx
    have hcause : l ≠ .requeue .cur x ∧ l ≠ .kill x ∧ (∀ wakeup, l ≠ .park x wakeup)
        ∧ l ≠ .block x ∧ l ≠ .reap .cur x := by
      rcases hl with rfl | hl
      · simpa using hne
      · refine ⟨?_, ?_, fun wakeup => ?_, ?_, ?_⟩ <;> rintro rfl <;> exact hl
    obtain ⟨hrequeue, hkill, hpark, hblock, hreap⟩ := hcause
    exact hm.alive hc hx (fun h => absurd h hrequeue) hkill hpark hblock hreap
  exact woken_of_alive (step_sound h.toSound hstep).core halive

/-- A process that is parked is asleep. -/
lemma asleep_park (hm : Move (.park x w) t t') :
    (w, x) ∈ t'.queue .sleeping ∧ (t'.proc x).status ≠ .zombie := by
  cases hm with
  | park is_cur has_node =>
      refine ⟨mem_push_iff.mpr (Or.inr ⟨has_node, rfl, rfl, ?_⟩), by simp⟩
      simp [PcbQueue.key]

/-- A call of `sleep` is `_sys_sleep` with its wakeup time. -/
lemma step_sleep_eq (cfg : Config) (hcur : s.procs.current = some x)
    (hnum : SysCall.ofNum context.eax = .sleep) : step cfg s (.syscall context args)
      = (s.isrSave context).liftProcs (·.sleep x (args 0).toUInt16
        (s.clock.systemTime + (args 0).toUInt16.toUInt32 * cfg.ticksPerSecond)) := by
  rw [step_syscall hcur, hnum, ← (isrSave_frame s context).1]
  rfl

/-- A process that calls `sleep` is asleep when the call is over. -/
lemma step_sleep (hs : Sound s) (hcur : s.procs.current = some x)
    (hnum : SysCall.ofNum context.eax = .sleep) (hn : (args 0).toUInt16 ≠ 0)
    (hstep : step cfg s (.syscall context args) = .ok s') :
    Asleep s' x (s.clock.systemTime + (args 0).toUInt16.toUInt32 * cfg.ticksPerSecond)
      ∧ s'.clock = s.clock := by
  obtain ⟨hcur', htable, -, -⟩ := isrSave_running context hs.core hcur
  refine ⟨?_, step_clock_eq hs hstep⟩
  set w := s.clock.systemTime + (args 0).toUInt16.toUInt32 * cfg.ticksPerSecond with hw
  suffices h : (w, x) ∈ s'.table.queue .sleeping ∧ (s'.table.proc x).status ≠ .zombie from
    ⟨step_sound hs hstep, h.1, h.2⟩
  obtain ⟨ps', hres, rfl⟩ := liftProcs_ok ((step_sleep_eq cfg hcur hnum).symm.trans hstep)
  rw [← hw] at hres
  by_cases hfree : (s.isrSave context).procs.queues.avail = 0
  · obtain ⟨ps, hpanic⟩ := sleep_panic x w hn hfree
    exact absurd (hpanic.symm.trans hres) (by simp)
  · obtain ⟨ps, heq, -, hmove⟩ := sleep_park x w hn hfree
    rw [htable] at hmove
    obtain ⟨hentry, hz⟩ := asleep_park hmove
    rcases dispatch_spec (hmove.core hs.core) with
      ⟨ps'', q, hdispatch, hcur'', -, hms⟩ | ⟨ps'', hdispatch, -⟩
    · obtain rfl : ps'' = ps' := Except.ok.inj (hdispatch.symm.trans (heq.symm.trans hres))
      have htable' : ({ s.isrSave context with procs := ps'' } : KState).table
          = ps''.table (some q) := by rw [KState.table, hcur'']
      rw [htable']
      exact Moves.asleep hms (hmove.core hs.core) hentry hz fun l hl => ofDispatch_ne hl
    · exact absurd (hdispatch.symm.trans (heq.symm.trans hres)) (by simp)

/-- Who is ready after a process has gone to sleep was ready before. -/
lemma inReady_park {y : PcbId} (hm : Move (.park x w) t t') (hy : InReady t' y) :
    InReady t y := by
  cases hm with
  | park is_cur has_node =>
      obtain ⟨hstatus, level, hmem⟩ := hy
      have hne : y ≠ x := by
        rintro rfl
        simp at hstatus
      rw [push_proc, setProc_proc, Function.update_of_ne hne] at hstatus
      rw [ProcTable.ids, push_queue_of_ne (by simp)] at hmem
      exact ⟨hstatus, level, hmem⟩

/-- **When a call of `sleep` returns** to the kernel: with a node for the process, and another
process to dispatch. -/
lemma step_sleep_ok_iff (cfg : Config) (hs : Sound s) (hcur : s.procs.current = some x)
    (hnum : SysCall.ofNum context.eax = .sleep) (hn : (args 0).toUInt16 ≠ 0) :
    (∃ s', step cfg s (.syscall context args) = .ok s') ↔ CanSleep s := by
  obtain ⟨-, htable, -, -⟩ := isrSave_running context hs.core hcur
  have havail : (s.isrSave context).procs.queues.avail = s.procs.queues.avail :=
    congrArg ProcTable.avail htable
  rw [step_sleep_eq cfg hcur hnum, CanSleep, ← havail]
  set w := s.clock.systemTime + (args 0).toUInt16.toUInt32 * cfg.ticksPerSecond
  by_cases hfree : (s.isrSave context).procs.queues.avail = 0
  · -- without a node the kernel stops
    obtain ⟨ps, hpanic⟩ := sleep_panic x w hn hfree
    refine iff_of_false (fun ⟨s', hstep⟩ => ?_) fun h => h.1 hfree
    obtain ⟨ps', hres, -⟩ := liftProcs_ok hstep
    exact absurd (hpanic.symm.trans hres) (by simp)
  obtain ⟨ps, heq, -, hmove⟩ := sleep_park x w hn hfree
  rw [htable] at hmove
  constructor
  · rintro ⟨s', hstep⟩
    obtain ⟨ps', hres, -⟩ := liftProcs_ok hstep
    obtain ⟨q, l, front, -, -, hout⟩ :=
      dispatch_order (hmove.core hs.core) (heq.symm.trans hres)
    have hq : InReady (ps.table none) q := ⟨hout.ready, l, by rw [hout.taken]; simp⟩
    obtain ⟨hstatus, level, hmem⟩ := inReady_park hmove hq
    exact ⟨hfree, q, hstatus, level, hmem⟩
  · rintro ⟨-, y, hstatus, level, hmem⟩
    have hy : InReady s.table y := ⟨hstatus, level, hmem⟩
    obtain ⟨ps', q, hdispatch, -⟩ := dispatch_of_inReady (hmove.core hs.core)
      (hmove.inReady hs.core hy (by simp) (by simp))
    exact ⟨_, liftProcs_eq (heq.trans hdispatch)⟩

end Steps

/-! ### Runs -/

section Runs

variable {cfg : Config} {s s' : KState} {e : Event} {es : List Event} {x : PcbId} {w : UInt32}

lemma ticks_cons (e : Event) (es : List Event) :
    ticks (e :: es) = ticks es + if e.isClock then 1 else 0 := List.countP_cons

/-- **A run leaves a sleeper asleep** if the time is before its wakeup time at each of the
clock interrupts, by induction on the run. -/
lemma run_asleep (hrun : Run cfg (fun s e => ¬ Kills s x e) s es s') (h : Asleep s x w)
    (hlt : ∀ j, 1 ≤ j → j ≤ ticks es → s.clock.systemTime + UInt32.ofNat j < w) :
    Asleep s' x w ∧ s'.clock.systemTime = s.clock.systemTime + UInt32.ofNat (ticks es) := by
  induction hrun with
  | nil s => exact ⟨h, by simp [ticks]⟩
  | @cons s s₁ s' e es hk hstep _ ih =>
      have htime := step_systemTime h.toSound hstep
      rw [ticks_cons] at hlt ⊢
      by_cases he : e.isClock
      · rw [if_pos he] at hlt htime ⊢
        have h₁ := step_asleep h hstep hk fun _ => hlt 1 le_rfl (by omega)
        have hsum : ∀ j, s₁.clock.systemTime + UInt32.ofNat j
            = s.clock.systemTime + UInt32.ofNat (j + 1) := by
          intro j
          rw [htime, UInt32.ofNat_add, UInt32.add_assoc, UInt32.add_comm 1]
          rfl
        obtain ⟨h', htime'⟩ := ih h₁ fun j hj hj' => by
          rw [hsum]
          exact hlt (j + 1) (by omega) (by omega)
        exact ⟨h', htime'.trans (hsum _)⟩
      · rw [if_neg he, Nat.add_zero] at hlt ⊢
        rw [if_neg he, UInt32.add_zero] at htime
        have h₁ := step_asleep h hstep hk fun hclock => absurd hclock he
        obtain ⟨h', htime'⟩ := ih h₁ fun j hj hj' => by
          rw [htime]
          exact hlt j hj hj'
        exact ⟨h', htime'.trans (by rw [htime])⟩

/-! ### The wakeup time -/

lemma toNat_add_ofNat (t : UInt32) (j : ℕ) :
    (t + UInt32.ofNat j).toNat = (t.toNat + j) % 2 ^ 32 := by
  rw [UInt32.toNat_add, UInt32.toNat_ofNat', Nat.add_mod_mod]

/-- Within the bound on the clock rate the product does not wrap. -/
lemma sleep_product {n : UInt16} {T : UInt32} (hbound : 65535 * T.toNat < 2 ^ 32) :
    n.toNat * T.toNat < 2 ^ 32 ∧ n.toUInt32 * T = UInt32.ofNat (n.toNat * T.toNat) := by
  have hn : n.toNat ≤ 65535 := by
    have := n.toNat_lt
    omega
  have hlt : n.toNat * T.toNat < 2 ^ 32 :=
    lt_of_le_of_lt (Nat.mul_le_mul_right _ hn) hbound
  refine ⟨hlt, UInt32.toNat_inj.mp ?_⟩
  rw [UInt32.toNat_mul, UInt32.toNat_ofNat', UInt16.toNat_toUInt32]

/-- The condition on the time at the call and the length of the sleep in ticks. -/
def WrapsTogether (t : UInt32) (k : ℕ) : Prop := t.toNat + k < 2 ^ 32 ∨ t.toNat = 2 ^ 32 - 1

/-- Under the condition the time is before the wakeup time until the last tick. -/
lemma lt_wakeup {t : UInt32} {j k : ℕ} (hk : k < 2 ^ 32) (h : WrapsTogether t k) (hj : 1 ≤ j)
    (hjk : j < k) : t + UInt32.ofNat j < t + UInt32.ofNat k := by
  rw [UInt32.lt_iff_toNat_lt, toNat_add_ofNat, toNat_add_ofNat]
  rcases h with h | h <;> omega

/-- Otherwise the first tick is past the wakeup time already, and it is not the last. -/
lemma wakeup_le {t : UInt32} {k : ℕ} (hk : k < 2 ^ 32) (h : ¬ WrapsTogether t k) :
    1 < k ∧ t + UInt32.ofNat k ≤ t + 1 := by
  have ht := t.toNat_lt
  rw [WrapsTogether, not_or] at h
  refine ⟨by omega, ?_⟩
  have hone : t + 1 = t + UInt32.ofNat 1 := rfl
  rw [hone, UInt32.le_iff_toNat_le, toNat_add_ofNat, toNat_add_ofNat]
  omega

/-- A process that has just gone to sleep for `k` ticks sleeps exactly so long if and only
if its wakeup time does not wrap around before the time does. -/
lemma asleep_exactly_iff (cfg : Config) {k : ℕ}
    (h : Asleep s x (s.clock.systemTime + UInt32.ofNat k)) (hk : k < 2 ^ 32) :
    SleepsExactly cfg x k s ↔ WrapsTogether s.clock.systemTime k := by
  constructor
  · intro hexact
    by_contra hwrap
    obtain ⟨hone, hle⟩ := wakeup_le hk hwrap
    obtain ⟨p, hcur⟩ := h.exists_cur
    -- the next clock interrupt returns, for the sleeper itself is ready then
    obtain ⟨t, -, -, hdue, hok, -⟩ := step_clock cfg Context.zero h.toSound hcur
    rw [tick_systemTime] at hdue
    obtain ⟨s', hstep⟩ := hok (Or.inr ⟨x, hdue _
      ((mem_due_iff s.procs.queues.sorted_sleeping).mpr ⟨h.entry, hle⟩)⟩)
    have hwoken := step_woken h hle hstep
    have hsleeps := (hexact [tick] s' (.cons (fun hkill => hkill) hstep (.nil s'))).1 hone
    exact hwoken.1 hsleeps.1
  · intro hwrap es s' hrun
    have hasleep : ticks es < k → Asleep s' x (s.clock.systemTime + UInt32.ofNat k)
        ∧ s'.clock.systemTime = s.clock.systemTime + UInt32.ofNat (ticks es) := fun hlt =>
      run_asleep hrun h fun j hj hjt => lt_wakeup hk hwrap hj (by omega)
    refine ⟨fun hlt => (hasleep hlt).1.sleeps, fun context s'' hlast hstep => ?_⟩
    obtain ⟨h', htime⟩ := hasleep (by omega)
    have hw : s.clock.systemTime + UInt32.ofNat k = s'.clock.systemTime + 1 := by
      rw [htime, ← hlast, UInt32.ofNat_add, UInt32.add_assoc]
      rfl
    exact step_woken h' (hw ▸ UInt32.le_refl _) hstep

/-- **When a sleep lasts as long as it is to**, in every reachable state, with every clock
rate in the bound and every number of seconds but 0: if and only if the process can go to sleep at
all, and the time in ticks at which it ends does not pass the end of the 32-bit range, or the time
is at that end. -/
theorem sleeps_exactly_iff {context : Context} {args : Args}
    (h : Reachable cfg (fun _ _ => True) s) (hcur : s.procs.current = some x)
    (hbound : 65535 * cfg.ticksPerSecond.toNat < 2 ^ 32)
    (hnum : SysCall.ofNum context.eax = .sleep) (hn : (args 0).toUInt16 ≠ 0) :
    (∃ s', step cfg s (.syscall context args) = .ok s'
      ∧ SleepsExactly cfg x ((args 0).toUInt16.toNat * cfg.ticksPerSecond.toNat) s') ↔
      CanSleep s ∧ (s.clock.systemTime.toNat
          + (args 0).toUInt16.toNat * cfg.ticksPerSecond.toNat < 2 ^ 32
        ∨ s.clock.systemTime.toNat = 2 ^ 32 - 1) := by
  have hs := reachable_sound h
  have hexactly : ∀ s', step cfg s (.syscall context args) = .ok s' →
      (SleepsExactly cfg x ((args 0).toUInt16.toNat * cfg.ticksPerSecond.toNat) s' ↔
        WrapsTogether s.clock.systemTime
          ((args 0).toUInt16.toNat * cfg.ticksPerSecond.toNat)) := by
    intro s' hstep
    obtain ⟨hasleep, hclock⟩ := step_sleep hs hcur hnum hn hstep
    obtain ⟨hk, hproduct⟩ := sleep_product (n := (args 0).toUInt16) hbound
    rw [hproduct, ← hclock] at hasleep
    rw [← hclock]
    exact asleep_exactly_iff cfg hasleep hk
  rw [← step_sleep_ok_iff cfg hs hcur hnum hn]
  constructor
  · rintro ⟨s', hstep, hexact⟩
    exact ⟨⟨s', hstep⟩, (hexactly s' hstep).mp hexact⟩
  · rintro ⟨⟨s', hstep⟩, hwrap⟩
    exact ⟨s', hstep, (hexactly s' hstep).mpr hwrap⟩

/-- The first process sleeps for two seconds of one tick. -/
theorem sleeps_exactly_iff_demo :
    ∃ s', step demoConfig bootState (call 2 [2]) = .ok s' ∧ SleepsExactly demoConfig 1 (2 * 1) s' :=
  (sleeps_exactly_iff (.of_init initial_bootState) bootState_current (by decide) rfl
    (by decide)).mpr ⟨⟨by decide +kernel, 2, by decide +kernel, 1, by decide +kernel⟩,
    by decide +kernel⟩

end Runs

/-! ### The end of the range -/

section LongRun

variable {cfg : Config} {s : KState} {x y : PcbId} {t t' : ProcTable} {P : Label → Prop}

/-- While there is room a process stays ready or running that is not killed and does not
sleep, wait or exit. -/
lemma Moves.alive (hms : Moves P t t') (hc : Core t) (ho : t.other ≤ spare)
    (hP : ∀ l, P l → l ≠ .other ∧ l ≠ .kill x ∧ (∀ wakeup, l ≠ .park x wakeup)
      ∧ l ≠ .block x ∧ l ≠ .reap .cur x) (hx : Alive t x) : Alive t' x := by
  have hboth : t'.other = t.other ∧ Alive t' x := by
    refine hms.invariant hc (I := fun u => u.other = t.other ∧ Alive u x) ⟨rfl, hx⟩ ?_
    rintro l u u' hl hc' hm ⟨hother, halive⟩
    obtain ⟨hne, hkill, hpark, hblock, hreap⟩ := hP l hl
    have hused := hc'.used_of_alive halive
    have havail := hc'.avail_pos (by omega) hused
    refine ⟨?_, hm.alive hc' halive (fun _ => by omega) hkill hpark hblock hreap⟩
    rw [← hother, ProcTable.other, ProcTable.other, hm.shms_eq hne, hm.requests_eq]
  exact hboth.2

lemma shmrmHasRoom_tick (s : KState) : ShmrmHasRoom s tick := trivial

/-- With a process ready or running a clock interrupt returns, and leaves all such
processes so. -/
lemma step_tick (cfg : Config) (hs : Roomy s) (hx : Alive s.table x) : ∃ s',
    step cfg s tick = .ok s' ∧ Roomy s' ∧ s'.clock.systemTime = s.clock.systemTime + 1
      ∧ ∀ y, Alive s.table y → Alive s'.table y := by
  obtain ⟨p, hcur⟩ := hs.exists_cur
  obtain ⟨t, hwake, -, -, hok, hlast⟩ := step_clock cfg Context.zero hs.toSound hcur
  have hother : t.other = s.table.other :=
    (Moves.room hwake hs.core hs.room (by rintro l hl rfl; exact hl)).1
  have hwoken : ∀ y, Alive s.table y → Alive t y := fun y hy =>
    Moves.alive hwake hs.core hs.room (by
      intro l hl
      refine ⟨?_, ?_, fun wakeup => ?_, ?_, ?_⟩ <;> rintro rfl <;> exact hl) hy
  have hroom := hs.room
  have havail := (hwake.core hs.core).avail_pos (by omega)
    ((hwake.core hs.core).used_of_alive (hwoken x hx))
  obtain ⟨s', hstep⟩ := hok (Or.inl (by omega))
  obtain ⟨hclock, -, hms⟩ := hlast s' hstep
  refine ⟨s', hstep, step_roomy hs (shmrmHasRoom_tick s) hstep, ?_, fun y hy => ?_⟩
  · rw [hclock, tick_systemTime]
  · refine Moves.alive hms (hwake.core hs.core) (by omega) ?_ (hwoken y hy)
    rintro l (rfl | hl)
    · simp
    · refine ⟨?_, ?_, fun wakeup => ?_, ?_, ?_⟩ <;> rintro rfl <;> exact hl

/-- **A run of clock interrupts** of any length, by induction on the number. -/
lemma run_ticks (cfg : Config) (hs : Roomy s) (hx : Alive s.table x) (n : ℕ) :
    ∃ s', Run cfg (fun _ _ => True) s (List.replicate n tick) s' ∧ Roomy s'
      ∧ s'.clock.systemTime = s.clock.systemTime + UInt32.ofNat n
      ∧ ∀ y, Alive s.table y → Alive s'.table y := by
  induction n with
  | zero => exact ⟨s, .nil s, hs, by simp, fun _ hy => hy⟩
  | succ n ih =>
      obtain ⟨s₁, hrun, hs₁, htime, halive⟩ := ih
      obtain ⟨s₂, hstep, hs₂, htime₂, halive₂⟩ := step_tick cfg hs₁ (halive x hx)
      refine ⟨s₂, ?_, hs₂, ?_, fun y hy => halive₂ y (halive y hy)⟩
      · rw [List.replicate_succ']
        exact hrun.append (.cons trivial hstep (.nil s₂))
      · rw [htime₂, htime, UInt32.ofNat_add, UInt32.add_assoc]
        rfl

/-- A process can go to sleep while another one is ready. -/
lemma sleep_returns (cfg : Config) (hs : Roomy s) (hcur : s.procs.current = some x)
    (hy : InReady s.table y) : ∃ s', step cfg s (call 2 [3]) = .ok s' := by
  obtain ⟨context, args, he, hnum, hn⟩ : ∃ context args, call 2 [3] = .syscall context args
      ∧ SysCall.ofNum context.eax = .sleep ∧ (args 0).toUInt16 ≠ 0 :=
    ⟨_, _, rfl, rfl, by decide⟩
  have hroom := hs.core.avail_of_cur hs.room hcur
  have hfree : s.procs.queues.avail ≠ 0 := by
    change s.table.avail ≠ 0
    omega
  rw [he]
  exact (step_sleep_ok_iff cfg hs.toSound hcur hnum hn).mpr ⟨hfree, y, hy⟩

/-- **A sleep is cut short**: after `2 ^ 32 - 2` clock interrupts a process sleeps for three
ticks and is woken up by the next one. -/
theorem sleep_cut_short : ∃ s s' x, Reachable demoConfig (fun _ _ => True) s
    ∧ s.procs.current = some x ∧ step demoConfig s (call 2 [3]) = .ok s'
    ∧ ¬ SleepsExactly demoConfig x (3 * demoConfig.ticksPerSecond.toNat) s' := by
  have hboot := initial_roomy initial_bootState
  have halive₀ : Alive bootState.table 0 ∧ Alive bootState.table 1 := by
    rw [bootState_table]
    exact ⟨Or.inl ⟨by decide +kernel, 2, by decide +kernel⟩, Or.inr rfl⟩
  have hclock : bootState.clock.systemTime = 0 := by
    obtain ⟨loaded, hinit⟩ := initial_bootState
    obtain ⟨s, heq, -, hclock, -⟩ := init_spec demoConfig loaded
    rw [← Except.ok.inj (heq.symm.trans hinit), hclock]
  obtain ⟨s, hrun, hs, htime, halive⟩ := run_ticks demoConfig hboot halive₀.1 (2 ^ 32 - 2)
  have hreach : Reachable demoConfig (fun _ _ => True) s :=
    Transition.Reachable.run (.of_init initial_bootState) hrun
  obtain ⟨x, hcur⟩ := hs.exists_cur
  -- of two processes that are ready or running one does not run
  obtain ⟨y, hy⟩ : ∃ y, InReady s.table y := by
    rcases halive 0 halive₀.1 with h | h
    · exact ⟨0, h⟩
    · rcases halive 1 halive₀.2 with h' | h'
      · exact ⟨1, h'⟩
      · exact absurd (h.symm.trans h') (by decide)
  obtain ⟨s', hstep⟩ := sleep_returns demoConfig hs hcur hy
  obtain ⟨hasleep, hsame⟩ := step_sleep hs.toSound hcur rfl (by decide) hstep
  have hexact := (asleep_exactly_iff (k := 3) demoConfig
    (by rw [hsame]; exact hasleep) (by decide)).not
  refine ⟨s, s', x, hreach, hcur, hstep, hexact.mpr ?_⟩
  rw [WrapsTogether, hsame, htime, hclock, UInt32.zero_add, UInt32.toNat_ofNat']
  decide

end LongRun

end Sp2
