import Sp2.Properties.RequestPlaces
import Sp2.Properties.Sleep

/-!
The wake-up loop of the clock interrupt.

* `SleptAt`: the step of a run in which a process went to sleep.
* `SleepersInOrder`: `_sleeping` holds each process once, under its own wakeup time, in the order
  of these times, and among equal ones in the order in which the processes went to sleep.
* `WokenUp`: the processes whose time has come are behind the others in the ready queues of their
  levels, and the rest sleeps on.
* `requestStep_sleeping`: what a step does to `_sleeping`.
* `sleepers_woken`: **in every state of a run in which no read finds a node** for its entry in
  `_blocked_requests` the sleepers are in order, and the next clock interrupt wakes up those that
  are due.
* `sleeper_runs`: a process that is woken up by its read while it sleeps overwrites its wakeup time.
-/

namespace Sp2

open ProcTable Procs Keyed Transition

/-! ### The statement -/

/-- The process sleeps, and has done so since the `n`-th step of the run. -/
structure SleptAt (l : List (Taken RdKernel RdEvent)) (s : RdKernel) (x : PcbId) (n : ℕ) :
    Prop where
  asleep : x ∈ s.procs.members .sleeping
  fell : ∃ t, l[n]? = some t ∧ x ∉ t.before.procs.members .sleeping
  since : ∀ k > n, ∀ t, l[k]? = some t → x ∈ t.before.procs.members .sleeping

/-- The order of `_sleeping` at the end of the run. -/
structure SleepersInOrder (l : List (Taken RdKernel RdEvent)) (s : RdKernel) : Prop where
  /-- the key of an entry is the wakeup time of its process -/
  key : ∀ e ∈ s.procs.queues.items (.pcbs .sleeping), e.1 = (s.procs.pcbs e.2).wakeup
  once : (s.procs.members .sleeping).Nodup
  slept : ∀ x ∈ s.procs.members .sleeping, ∃ n, SleptAt l s x n
  order : (s.procs.members .sleeping).Pairwise fun x y => ∀ m n, SleptAt l s x m → SleptAt l s y n →
    (s.procs.pcbs x).wakeup < (s.procs.pcbs y).wakeup
      ∨ (s.procs.pcbs x).wakeup = (s.procs.pcbs y).wakeup ∧ m < n

/-- The sleepers whose wakeup time has come go to the ready queues of their levels, in their order
and once each, and the others sleep on. -/
structure WokenUp (time : UInt32) (s s' : Procs) : Prop where
  sleeping : s'.queues.items (.pcbs .sleeping)
    = (s.queues.items (.pcbs .sleeping)).filter fun e => time < (s.pcbs e.2).wakeup
  ready : ∀ level : Fin mlqLevels, s'.members (.ready level) = s.members (.ready level)
    ++ (s.members .sleeping).filter fun x =>
      (s.pcbs x).wakeup ≤ time ∧ (s.pcbs x).level.toNat = level
  others : s'.members .freePcbs = s.members .freePcbs ∧ s'.members .reading = s.members .reading

/-- What is to hold at the end of a run: the sleepers are in order, and the loop of the next clock
interrupt ends and wakes them up. -/
structure WakesUp (l : List (Taken RdKernel RdEvent)) (s : RdKernel) : Prop
    extends SleepersInOrder l s where
  wakes : ∀ context, ∃ ps,
    wakeLoop wakeFuel s.clock.tick.systemTime (s.isrSave context).procs = .ok ps
      ∧ WokenUp s.clock.tick.systemTime s.procs ps

/-! ### One step -/

section Steps

variable {cfg : Config} {s s' : RdKernel} {p x : PcbId} {t t' : ProcTable}
  {P : Label → Prop}
  {l : List (Taken RdKernel RdEvent)} {e : RdEvent}

/-- Moves that neither wake a sleeper up nor send a process to sleep keep `_sleeping`. -/
lemma Moves.queue_sleeping (hms : Moves P t t') (hc : Core t)
    (hP : ∀ l, P l → (∀ p w, l ≠ .park p w) ∧ ∀ p, l ≠ .requeue (.queue .sleeping) p) :
    t'.queue .sleeping = t.queue .sleeping :=
  hms.invariant hc (I := fun u => u.queue .sleeping = t.queue .sleeping) rfl
    fun l _ _ hl _ hm hu =>
      (hm.queue_waiting (Or.inl rfl) (fun _ => (hP l hl).1) (by simp) (hP l hl).2).trans hu

/-- The labels of a requeueing of the running process and of a dispatch are such. -/
lemma requeue_or_dispatch {l : Label} (h : l = .requeue .cur p ∨ OfDispatch l) :
    (∀ p w, l ≠ .park p w) ∧ ∀ p, l ≠ .requeue (.queue .sleeping) p := by
  rcases h with rfl | h
  · exact ⟨by simp, by simp⟩
  · constructor <;> intros <;> rintro rfl <;> exact h

/-- A process that goes to sleep is put behind those that wake up no later. -/
lemma queue_park {w : UInt32} (hm : Move (.park p w) t t') :
    t'.queue .sleeping = stableInsert w p (t.queue .sleeping) := by
  cases hm with
  | park is_cur has_node =>
      have hnode : ((t.take .cur).setProc p
          { t.proc p with status := .sleeping, wakeup := w }).avail ≠ 0 := has_node
      rw [push, if_neg hnode]
      simp [PcbQueue.insertItem, take]

/-- A call of `sleep` leaves `_sleeping` as it is or puts the running process into it. -/
lemma sleep_queue {s s' : KState} {e : Event} (hc : Core s.table) (hcur : s.procs.current = some p)
    (hcall : e.call = some .sleep) (hstep : step cfg s e = .ok s') :
    s'.table.queue .sleeping = s.table.queue .sleeping
      ∨ ∃ w, s'.table.queue .sleeping = stableInsert w p (s.table.queue .sleeping) := by
  cases e with
  | syscall context args =>
      obtain ⟨hcur', htable, -, -⟩ := isrSave_running context hc hcur
      rw [step_sleep_eq cfg hcur (Option.some.inj hcall)] at hstep
      set w := s.clock.systemTime + (args 0).toUInt16.toUInt32 * cfg.ticksPerSecond
      obtain ⟨ps', hres, rfl⟩ := liftProcs_ok hstep
      by_cases hnum : (args 0).toUInt16 = 0
      · -- the process only yields
        left
        rw [hnum, sleep_zero] at hres
        have hmove : Move (.requeue .cur p) ((s.isrSave context).procs.table (some p))
            (((s.isrSave context).procs.schedule p).2.table none) :=
          schedule_requeue (htable ▸ hc.running p (s.table_cur.trans hcur)).2
        have hmoved := moved_of_move (P := fun l => l = .requeue .cur p ∨ OfDispatch l)
          (htable ▸ hc) hmove (Or.inl rfl) fun _ => Or.inr
        rw [hres, htable] at hmoved
        exact Moves.queue_sleeping hmoved.1 hc fun _ => requeue_or_dispatch
      · by_cases hfree : (s.isrSave context).procs.queues.avail = 0
        · obtain ⟨ps, hpanic⟩ := sleep_panic p w hnum hfree
          exact absurd (hpanic.symm.trans hres) (by simp)
        · right
          obtain ⟨ps, heq, -, hmove⟩ := sleep_park p w hnum hfree
          rw [htable] at hmove
          have hmoved := dispatch_moved (P := OfDispatch) (hmove.core hc) (Moves.refl _)
            fun _ => id
          rw [← heq, hres] at hmoved
          refine ⟨w, ?_⟩
          rw [← queue_park hmove]
          exact Moves.queue_sleeping hmoved.1 (hmove.core hc) fun _ h =>
            requeue_or_dispatch (p := p) (Or.inr h)
  | _ => exact absurd hcall (by simp [Event.call])

/-- What an event of the kernel does to `_sleeping`. -/
lemma step_sleeping {s s' : KState} {e : Event} (hs : RdSound s) (hcur : s.procs.current = some p)
    (hstep : step cfg s e = .ok s') :
    s'.table.queue .sleeping = s.table.queue .sleeping
      ∨ (∃ time, s'.table.queue .sleeping = later time (s.table.queue .sleeping))
      ∨ ∃ w, s'.table.queue .sleeping = stableInsert w p (s.table.queue .sleeping) := by
  by_cases he : ∃ context, e = .clock context
  · obtain ⟨context, rfl⟩ := he
    right
    left
    obtain ⟨hc, hblocked, hcur'⟩ := hs.save context hcur
    obtain ⟨-, htable, -⟩ := isrSave_running context hs.core hcur
    obtain ⟨ps, s₁, hwake, hms, hserved, hcur₁, -, heq⟩ := isrClock_phases cfg hc hblocked hcur'
    have hcarried := hserved.carried (some p)
    obtain ⟨ps', hwake', -, -, -, hlater, -⟩ := wakeLoop_spec
      (s.isrSave context).clock.tick.systemTime wakeFuel (s.isrSave context).procs hc
      hc.sleeping_lt
    obtain rfl : ps' = ps := Except.ok.inj (hwake'.symm.trans hwake)
    obtain ⟨ps₂, hres, rfl⟩ := liftProcs_ok (heq.symm.trans hstep)
    have hlast := expireQuantum_moved (hcarried.core (hms.core hc)) hcur₁
    change s₁.procs.expireQuantum = .ok ps₂ at hres
    rw [hres] at hlast
    refine ⟨(s.isrSave context).clock.tick.systemTime, ?_⟩
    rw [← htable, ← hlater]
    exact (Moves.queue_sleeping hlast.1 (hcarried.core (hms.core hc))
      fun _ => requeue_or_dispatch).trans (congrFun hcarried.queue _)
  · by_cases hcall : e.call = some .sleep
    · exact (sleep_queue hs.core hcur hcall hstep).imp_right Or.inr
    · left
      have hmoved := event_moved cfg hs.core hcur fun context h => he ⟨context, h⟩
      rw [hstep] at hmoved
      refine Moves.queue_sleeping hmoved.1 hs.core fun l hl => ⟨fun x w h => ?_, fun x h => ?_⟩
      · rw [h] at hl
        exact hcall hl.cause.2
      · rw [h] at hl
        rcases hl.cause with ⟨-, hclock⟩ | ⟨h, -⟩
        · exact he hclock
        · exact absurd h (by simp)

/-- **What a step does to `_sleeping`**: nothing, or it takes the sleepers out that are due, or it
puts the running process in. -/
lemma requestStep_sleeping (hs : RdSound s.toKState) (hcur : s.procs.current = some p)
    (hsafe : ¬ e.Blocks s) (hstep : requestStep cfg s e = .ok s') :
    s'.table.queue .sleeping = s.table.queue .sleeping
      ∨ (∃ time, s'.table.queue .sleeping = later time (s.table.queue .sleeping))
      ∨ ∃ w, s'.table.queue .sleeping = stableInsert w p (s.table.queue .sleeping) := by
  by_cases hevent : ∀ event, e ≠ .kernel event
  · obtain ⟨t, heq, -, -, hcarried⟩ := requestStep_carried cfg hcur hevent hsafe
    obtain rfl : t = s' := Except.ok.inj (heq.symm.trans hstep)
    exact Or.inl (congrFun hcarried.queue _)
  · obtain ⟨event, rfl⟩ := not_forall_not.mp hevent
    exact step_sleeping hs hcur (step_of_kernel hstep)

/-! ### When a process went to sleep -/

/-- A process that sleeps before and after a step went to sleep at the same step of the run. -/
lemma sleptAt_append {n : ℕ} (h : x ∈ s.procs.members .sleeping)
    (h' : x ∈ s'.procs.members .sleeping) :
    SleptAt (l ++ [⟨s, e, s'⟩]) s' x n ↔ SleptAt l s x n := by
  constructor
  · rintro ⟨-, ⟨t, ht, hfell⟩, hsince⟩
    have hlt : n < l.length := by
      by_contra hge
      have hlen := (List.getElem?_eq_some_iff.mp ht).1
      obtain rfl : n = l.length := by
        rw [List.length_append, List.length_singleton] at hlen
        omega
      rw [List.getElem?_concat_length, Option.some.injEq] at ht
      rw [← ht] at hfell
      exact hfell h
    rw [List.getElem?_append_left hlt] at ht
    refine ⟨h, ⟨t, ht, hfell⟩, fun k hk u hu => hsince k hk u ?_⟩
    rw [List.getElem?_append_left (List.getElem?_eq_some_iff.mp hu).1, hu]
  · rintro ⟨-, ⟨t, ht, hfell⟩, hsince⟩
    have hlt := (List.getElem?_eq_some_iff.mp ht).1
    refine ⟨h', ⟨t, by rw [List.getElem?_append_left hlt, ht], hfell⟩, fun k hk u hu => ?_⟩
    by_cases hkl : k < l.length
    · rw [List.getElem?_append_left hkl] at hu
      exact hsince k hk u hu
    · have hlen := (List.getElem?_eq_some_iff.mp hu).1
      obtain rfl : k = l.length := by
        rw [List.length_append, List.length_singleton] at hlen
        omega
      rw [List.getElem?_concat_length, Option.some.injEq] at hu
      rwa [← hu]

/-- A process that sleeps after a step and not before went to sleep at this step. -/
lemma sleptAt_last {n : ℕ} (h : x ∉ s.procs.members .sleeping)
    (h' : x ∈ s'.procs.members .sleeping) :
    SleptAt (l ++ [⟨s, e, s'⟩]) s' x n ↔ n = l.length := by
  constructor
  · rintro ⟨-, ⟨t, ht, -⟩, hsince⟩
    have hlen := (List.getElem?_eq_some_iff.mp ht).1
    rw [List.length_append, List.length_singleton] at hlen
    by_contra hne
    exact h (hsince l.length (by omega) _ List.getElem?_concat_length)
  · rintro rfl
    refine ⟨h', ⟨_, List.getElem?_concat_length, h⟩, fun k hk u hu => ?_⟩
    have hlen := (List.getElem?_eq_some_iff.mp hu).1
    rw [List.length_append, List.length_singleton] at hlen
    omega

lemma SleptAt.lt {n : ℕ} (h : SleptAt l s x n) : n < l.length := by
  obtain ⟨t, ht, -⟩ := h.fell
  exact (List.getElem?_eq_some_iff.mp ht).1

/-! ### The invariant -/

/-- The order of the entries: by their keys, and by the steps at which the processes went to
sleep. -/
def Ordered (l : List (Taken RdKernel RdEvent)) (s : RdKernel) (a b : UInt32 × PcbId) : Prop :=
  ∀ m n, SleptAt l s a.2 m → SleptAt l s b.2 n → a.1 < b.1 ∨ a.1 = b.1 ∧ m < n

/-- The state at the end of a run is sound, and its sleepers are in the order of the run. -/
structure Slept (l : List (Taken RdKernel RdEvent)) (s : RdKernel) : Prop where
  sound : RdSound s.toKState
  slept : ∀ x ∈ s.procs.members .sleeping, ∃ n, SleptAt l s x n
  order : (s.table.queue .sleeping).Pairwise (Ordered l s)

/-- Entries that stay keep their order. -/
lemma Slept.stay (h : Slept l s)
    (hsub : List.Sublist (s'.table.queue .sleeping) (s.table.queue .sleeping))
    (hs' : RdSound s'.toKState) :
    Slept (l ++ [⟨s, e, s'⟩]) s' := by
  have hmem : ∀ {x}, x ∈ s'.procs.members .sleeping → x ∈ s.procs.members .sleeping := fun hx =>
    (hsub.map Prod.snd).subset hx
  refine ⟨hs', fun x hx => ?_, ?_⟩
  · obtain ⟨n, hn⟩ := h.slept x (hmem hx)
    exact ⟨n, (sleptAt_append (hmem hx) hx).mpr hn⟩
  · refine (h.order.sublist hsub).imp_of_mem fun {a b} ha hb hab m n hm hn => ?_
    have ha' := mem_ids ha
    have hb' := mem_ids hb
    exact hab m n ((sleptAt_append (hmem ha') ha').mp hm) ((sleptAt_append (hmem hb') hb').mp hn)

/-- **A process that goes to sleep** goes behind those with the same wakeup time. -/
lemma Slept.park {w : UInt32} (h : Slept l s) (hcur : s.procs.current = some p)
    (hqueue : s'.table.queue .sleeping = stableInsert w p (s.table.queue .sleeping))
    (hs' : RdSound s'.toKState) : Slept (l ++ [⟨s, e, s'⟩]) s' := by
  have hnew : p ∉ s.procs.members .sleeping := notMem_of_cur (h.sound.core.occ_le p) hcur
  have hmem : ∀ {x}, x ∈ s'.procs.members .sleeping ↔ x = p ∨ x ∈ s.procs.members .sleeping := by
    intro x
    have hcount := count_map_stableInsert (k := w) (d := p) (l := s.table.queue .sleeping) x
    rw [← hqueue] at hcount
    rw [← List.count_pos_iff, ← List.count_pos_iff]
    change 0 < ((s'.table.queue .sleeping).map Prod.snd).count x ↔ _ ∨
      0 < ((s.table.queue .sleeping).map Prod.snd).count x
    rw [hcount]
    by_cases hx : p = x
    · simp [hx]
    · simp [hx, Ne.symm hx]
  have hp : p ∈ s'.procs.members .sleeping := hmem.mpr (Or.inl rfl)
  have hold : ∀ {x}, x ∈ s.procs.members .sleeping → x ∈ s'.procs.members .sleeping := fun hx =>
    hmem.mpr (Or.inr hx)
  refine ⟨hs', fun x hx => ?_, ?_⟩
  · rcases hmem.mp hx with rfl | hx'
    · exact ⟨l.length, (sleptAt_last hnew hp).mpr rfl⟩
    · obtain ⟨n, hn⟩ := h.slept x hx'
      exact ⟨n, (sleptAt_append hx' hx).mpr hn⟩
  · rw [hqueue]
    refine pairwise_stableInsert s.procs.queues.sorted_sleeping ?_ (fun x hx hle m n hm hn => ?_)
      fun x hx hlt m n _ _ => Or.inl hlt
    · refine h.order.imp_of_mem fun {a b} ha hb hab m n hm hn => ?_
      have ha' := mem_ids ha
      have hb' := mem_ids hb
      exact hab m n ((sleptAt_append ha' (hold ha')).mp hm)
        ((sleptAt_append hb' (hold hb')).mp hn)
    · -- the new sleeper is the last one of the run
      have hx' := mem_ids hx
      obtain rfl := (sleptAt_last hnew hp).mp hn
      rcases UInt32.lt_or_eq_of_le hle with hlt | heq
      · exact Or.inl hlt
      · exact Or.inr ⟨heq, ((sleptAt_append hx' (hold hx')).mp hm).lt⟩

/-- **One step** keeps the order of the sleepers. -/
lemma Slept.step (h : Slept l s) (hsafe : ¬ e.Blocks s) (hstep : requestStep cfg s e = .ok s') :
    Slept (l ++ [⟨s, e, s'⟩]) s' := by
  obtain ⟨p, hcur⟩ := h.sound.exists_cur
  have hs' := requestStep_sound h.sound hsafe hstep
  rcases requestStep_sleeping h.sound hcur hsafe hstep with hsame | ⟨time, hlater⟩ | ⟨w, hpark⟩
  · exact h.stay (hsame ▸ List.Sublist.refl _) hs'
  · exact h.stay (hlater ▸ List.dropWhile_sublist _) hs'
  · exact h.park hcur hpark hs'

end Steps

/-! ### The theorem -/

section Theorem

variable {cfg : Config} {k : KState} {s s₀ : RdKernel} {l : List (Taken RdKernel RdEvent)}
  {es : List RdEvent}

/-- The key of an entry of `_sleeping` is the wakeup time of its process. -/
lemma key_eq_wakeup (hc : Core k.table) :
    ∀ e ∈ k.procs.queues.items (.pcbs .sleeping), e.1 = (k.procs.pcbs e.2).wakeup :=
  fun e he => (hc.allows .sleeping e he).2.2

lemma Slept.sleepersInOrder (h : Slept l s) : SleepersInOrder l s := by
  have hkey := key_eq_wakeup h.sound.core
  refine ⟨hkey, nodup_ids h.sound.core.occ_le .sleeping, h.slept, ?_⟩
  refine List.pairwise_map.mpr (h.order.imp_of_mem fun {a b} ha hb hab m n hm hn => ?_)
  rw [← hkey a ha, ← hkey b hb]
  exact hab m n hm hn

/-- What the wake-up loop does to the queues of a sound state. -/
lemma RdSound.wokenUp {s : KState} (hs : RdSound s) (time : UInt32) (context : Context) :
    ∃ ps, wakeLoop wakeFuel time (s.isrSave context).procs = .ok ps
      ∧ WokenUp time s.procs ps := by
  obtain ⟨p, hcur⟩ := hs.exists_cur
  obtain ⟨-, htable, -⟩ := isrSave_running context hs.core hcur
  have hc : Core ((s.isrSave context).procs.table (some p)) := htable ▸ hs.core
  obtain ⟨ps, hwake, -, -, -, hlater, -, hothers⟩ :=
    wakeLoop_spec time wakeFuel (s.isrSave context).procs hc hc.sleeping_lt
  have hsorted : Sorted (s.table.queue .sleeping) := s.procs.queues.sorted_sleeping
  have hkey := key_eq_wakeup hs.core
  have hlevel : ∀ x, ((s.isrSave context).procs.pcbs x).level = (s.procs.pcbs x).level := fun x =>
    congrArg (fun t => (t.proc x).level) htable
  rw [htable] at hlater hothers
  refine ⟨ps, hwake, ?_, fun level => ?_, ?_, ?_⟩
  · refine hlater.trans ((later_eq_filter hsorted).trans (List.filter_congr fun e he => ?_))
    rw [hkey e he]
  · have hready := congrArg (List.map Prod.snd) (hothers (.ready level) (by simp))
    refine hready.trans ?_
    rw [List.map_append, List.map_map, due_eq_filter hsorted, List.filter_filter]
    change s.procs.members (.ready level) ++ _ = _
    refine congrArg _ ?_
    rw [Procs.members, List.filter_map]
    refine congrArg (List.map Prod.snd) (List.filter_congr fun e he => ?_)
    simp only [PcbQueue.isReady, hlevel, hkey e he, Function.comp_apply, Bool.decide_and]
    exact Bool.and_comm _ _
  · refine (congrArg (List.map Prod.snd) (hothers .freePcbs (by simp))).trans ?_
    simp [PcbQueue.isReady, Procs.members, KState.table, table]
  · refine (congrArg (List.map Prod.snd) (hothers .reading (by simp))).trans ?_
    simp [PcbQueue.isReady, Procs.members, KState.table, table]

end Theorem

/-- The first process sleeps for five seconds, and the second one writes. -/
def sleepAndWrite : List RdEvent :=
  [.kernel (call 2 [5]), .fill 0x1000 demoWrite] ++ rdCall 0x1000

/-- The first process reads and sleeps. The fourth clock interrupt serves the read and schedules
the sleeper, which runs from the sixth on and sleeps again. -/
def sleepAfterRead : List RdEvent :=
  .fill 0x1000 demoRead :: rdCall 0x1000 ++ .kernel (call 2 [1000])
    :: List.replicate 6 (.kernel tick) ++ [.kernel (call 2 [1])]

end Sp2
