import Sp2.Shared.Calls
import Sp2.Properties.NodePool

/-!
The pool of segments.

* `Removes`: a call removed the segment at an address.
* `RemovesInUse`: what `shmrm` removes is an element of `_shms` that is not in the pool.
  Nothing in `_sys_shmrm` checks this: it compares the identifier in the record passed with
  that of the current segment.
* `segments_pooled`: in every run whose removals are such, each element of `_shms` is in
  the pool exactly once or in use, and no segment in use is given away.
* `shmrm_pools_twice`: a segment that is removed twice is in the pool twice.
-/

namespace Sp2

open ProcTable Transition

/-- The step is a `shmrm` that removed the segment at an address. -/
def Removes (a : UInt32) (t : Taken KState Event) : Prop :=
  t.event.call = some .shmrm ∧ t.event.args 0 = a ∧ t.before.answer t.after = some 1

/-- If the event is a `shmrm` that reaches `_shm_dealloc`, the record passed is an element of
`_shms` and not in the pool. -/
def RemovesInUse (cfg : Config) (s : KState) (e : Event) : Prop :=
  e.call = some .shmrm → s.shm.currentShms ≠ 0 →
    (s.shm.segments (e.args 0)).id = s.shm.current.id →
    (∃ i, cfg.shm i = e.args 0) ∧ e.args 0 ∉ s.pool

instance (cfg : Config) (s : KState) (e : Event) : Decidable (RemovesInUse cfg s e) :=
  inferInstanceAs (Decidable (e.call = some .shmrm → s.shm.currentShms ≠ 0 →
    (s.shm.segments (e.args 0)).id = s.shm.current.id →
    (∃ i, cfg.shm i = e.args 0) ∧ e.args 0 ∉ s.pool))

/-- After the steps taken, the segment at an address is in use. -/
abbrev InUse (a : UInt32) (l : List (Taken KState Event)) : Prop := Since (Gets a) (Removes a) l

/-- The segment at an address is in the pool exactly once. -/
structure Pooled (a : UInt32) (l : List (Taken KState Event)) (s : KState) : Prop where
  count : s.pool.count a = 1
  status : (s.shm.segments a).status = 0
  not_used : ¬ InUse a l

/-- The segment at an address is in use and not in the pool. -/
structure Used (a : UInt32) (l : List (Taken KState Event)) (s : KState) : Prop where
  count : s.pool.count a = 0
  status : (s.shm.segments a).status = 1
  used : InUse a l

/-- What the runs keep. -/
structure PoolKept (cfg : Config) (l : List (Taken KState Event)) (s : KState) : Prop
    extends Roomy s where
  elements : ∀ a ∈ s.pool, ∃ i, cfg.shm i = a
  places : ∀ i, Pooled (cfg.shm i) l s ∨ Used (cfg.shm i) l s

section Steps

variable {cfg : Config} {l : List (Taken KState Event)} {s s' : KState} {e : Event} {p : PcbId}
  {a : UInt32}

lemma not_removes (he : e.call ≠ some .shmrm) : ¬ Removes a ⟨s, e, s'⟩ := fun h => he h.1

/-- A segment stays where it is in a step that neither gets nor removes it. -/
lemma Pooled.keep (h : Pooled a l s) (hcount : s'.pool.count a = s.pool.count a)
    (hstatus : (s'.shm.segments a).status = (s.shm.segments a).status)
    (hget : ¬ Gets a ⟨s, e, s'⟩) (hremove : ¬ Removes a ⟨s, e, s'⟩) :
    Pooled a (l ++ [⟨s, e, s'⟩]) s' :=
  ⟨hcount.trans h.count, hstatus.trans h.status,
    fun hu => h.not_used ((since_concat_other hget hremove).mp hu)⟩

lemma Used.keep (h : Used a l s) (hcount : s'.pool.count a = s.pool.count a)
    (hstatus : (s'.shm.segments a).status = (s.shm.segments a).status)
    (hget : ¬ Gets a ⟨s, e, s'⟩) (hremove : ¬ Removes a ⟨s, e, s'⟩) :
    Used a (l ++ [⟨s, e, s'⟩]) s' :=
  ⟨hcount.trans h.count, hstatus.trans h.status, (since_concat_other hget hremove).mpr h.used⟩

lemma keep_place (h : Pooled a l s ∨ Used a l s) (hcount : s'.pool.count a = s.pool.count a)
    (hstatus : (s'.shm.segments a).status = (s.shm.segments a).status)
    (hget : ¬ Gets a ⟨s, e, s'⟩) (hremove : ¬ Removes a ⟨s, e, s'⟩) :
    Pooled a (l ++ [⟨s, e, s'⟩]) s' ∨ Used a (l ++ [⟨s, e, s'⟩]) s' :=
  h.imp (·.keep hcount hstatus hget hremove) (·.keep hcount hstatus hget hremove)

/-- The pool has no duplicates. -/
lemma PoolKept.nodup (h : PoolKept cfg l s) : s.pool.Nodup := by
  rw [List.nodup_iff_count_le_one]
  intro a
  by_cases ha : a ∈ s.pool
  · obtain ⟨i, rfl⟩ := h.elements a ha
    rcases h.places i with hi | hi
    · exact hi.count.le
    · exact hi.count.le.trans zero_le_one
  · exact (List.count_eq_zero.mpr ha).le.trans zero_le_one

/-- There are no more segments in the pool than elements of `_shms`. -/
lemma PoolKept.length_le (h : PoolKept cfg l s) : s.pool.length ≤ maxShms := by
  have hsubset : s.pool ⊆ (List.finRange maxShms).map cfg.shm := fun a ha => by
    obtain ⟨i, rfl⟩ := h.elements a ha
    exact List.mem_map_of_mem (List.mem_finRange i)
  have hlen := (h.nodup.subperm hsubset).length_le
  rwa [List.length_map, List.length_finRange] at hlen

/-- The removals find room in the pool of nodes. -/
lemma PoolKept.hasRoom (h : PoolKept cfg l s) : ShmrmHasRoom s e := by
  have hlen := h.length_le
  rw [KState.pool, List.length_map] at hlen
  cases e with
  | syscall context args =>
      intro _ _ _
      exact lt_of_le_of_lt hlen (by decide)
  | _ => trivial

/-- The first segment of the pool is in use from now on. -/
lemma PoolKept.get (h : PoolKept cfg l s) (hcall : e.call = some .shmget)
    (hpool : s.pool = a :: s'.pool) (ha : a ≠ 0) {size mode : UInt32}
    (hshm : s'.shm = s.shm.created cfg.memory a size mode) (hroomy : Roomy s') :
    PoolKept cfg (l ++ [⟨s, e, s'⟩]) s' := by
  have hgets : ∀ b, Gets b ⟨s, e, s'⟩ ↔ b = a := by
    intro b
    rw [Gets, hshm]
    constructor
    · rintro ⟨-, rfl, -⟩
      rfl
    · rintro rfl
      exact ⟨hcall, rfl, ha⟩
  have hremove : ∀ b, ¬ Removes b ⟨s, e, s'⟩ := fun b => not_removes (by simp [hcall])
  refine ⟨hroomy, fun b hb => h.elements b (by rw [hpool]; exact List.mem_cons_of_mem a hb),
    fun i => ?_⟩
  by_cases hi : cfg.shm i = a
  · refine Or.inr ⟨?_, ?_, since_concat.mpr (Or.inl ((hgets _).mpr hi))⟩
    · have hnodup := h.nodup
      rw [hpool] at hnodup
      rw [hi]
      exact List.count_eq_zero.mpr (List.nodup_cons.mp hnodup).1
    · rw [hshm, hi, created_self]
  · refine keep_place (h.places i) ?_ ?_ (mt (hgets _).mp hi) (hremove _)
    · rw [hpool, List.count_cons_of_ne (Ne.symm hi)]
    · rw [hshm, created_of_ne hi]

/-- A segment that is removed goes into the pool. -/
lemma PoolKept.remove (h : PoolKept cfg l s) (hcall : e.call = some .shmrm)
    (helement : ∃ i, cfg.shm i = e.args 0) (hout : e.args 0 ∉ s.pool)
    (hshm : s'.shm = s.shm.setSegment (e.args 0) ({ · with status := 0 }))
    (hpool : s'.pool = s.pool ++ [e.args 0]) (hanswer : s.answer s' = some 1)
    (hroomy : Roomy s') : PoolKept cfg (l ++ [⟨s, e, s'⟩]) s' := by
  have hget : ∀ b, ¬ Gets b ⟨s, e, s'⟩ := fun b => not_gets (by simp [hcall])
  refine ⟨hroomy, fun b hb => ?_, fun i => ?_⟩
  · rw [hpool] at hb
    rcases List.mem_append.mp hb with hb | hb
    · exact h.elements b hb
    · rwa [List.mem_singleton.mp hb]
  by_cases hi : cfg.shm i = e.args 0
  · refine Or.inl ⟨?_, ?_, fun hu => ?_⟩
    · rw [hpool, hi, List.count_append, List.count_eq_zero.mpr hout, List.count_singleton_self]
    · rw [hshm, hi, setSegment_self]
    · rcases since_concat.mp hu with hu | ⟨-, hu⟩
      · exact hget _ hu
      · exact hu ⟨hcall, hi.symm, hanswer⟩
  · refine keep_place (h.places i) ?_ ?_ (hget _) fun hr => hi hr.2.1.symm
    · rw [hpool, List.count_append, List.count_singleton, if_neg (by simpa using Ne.symm hi),
        add_zero]
    · rw [hshm, setSegment_of_ne hi]

/-- A step that moves no segment. -/
lemma PoolKept.other (h : PoolKept cfg l s)
    (hcall : e.call ≠ some .shmget ∧ e.call ≠ some .shmrm) (hpool : s'.pool = s.pool)
    (hstatus : ∀ i, (s'.shm.segments (cfg.shm i)).status = (s.shm.segments (cfg.shm i)).status)
    (hroomy : Roomy s') : PoolKept cfg (l ++ [⟨s, e, s'⟩]) s' := by
  refine ⟨hroomy, by rw [hpool]; exact h.elements, fun i => ?_⟩
  exact keep_place (h.places i) (by rw [hpool]) (hstatus i) (not_gets hcall.1)
    (not_removes hcall.2)

/-- **One step**: a segment changes its place only when it is made or removed. -/
lemma PoolKept.step (hl : cfg.Linked) (h : PoolKept cfg l s) (hok : RemovesInUse cfg s e)
    (hstep : step cfg s e = .ok s') : PoolKept cfg (l ++ [⟨s, e, s'⟩]) s' := by
  obtain ⟨p, hcur⟩ := h.exists_cur
  have hroomy := step_roomy h.toRoomy h.hasRoom hstep
  have hanswer : s.answer s' = s'.eax p := answer_eq hcur
  cases step_shared h.toSound hcur hstep with
  | other no_call shared =>
      exact h.other ⟨call_ne_of_not_moves no_call rfl, call_ne_of_not_moves no_call rfl⟩
        shared.pool (fun i => by rw [shared.shm]) hroomy
  | record own shm pool =>
      refine h.other (by simp [Event.call]) pool (fun i => ?_) hroomy
      rw [shm, setSegment_of_ne (own i)]
  | getNone is_call no_segment shm pool eax =>
      -- the pool holds no null pointer, so that it is empty
      have hnil : s.pool = [] := by
        cases hpool : s.pool with
        | nil => rfl
        | cons b bs =>
            obtain ⟨i, hi⟩ := h.elements b (by simp [hpool])
            rw [hpool, List.headD_cons, ← hi] at no_segment
            exact absurd no_segment (hl.shm_ne i)
      rw [hnil, List.tail_nil] at pool
      refine ⟨hroomy, by simp [pool], fun i => ?_⟩
      exact keep_place (h.places i) (by rw [pool, hnil]) (by rw [shm]) (not_gets_null (by rw [shm]))
        (not_removes (by simp [call_syscall _ is_call]))
  | get is_call is_first not_null shm eax =>
      exact h.get (call_syscall _ is_call) is_first not_null shm hroomy
  | attach is_call is_current is_id is_slot shm pool eax
  | detach is_call is_member is_current is_id has_members is_place shm pool eax =>
      refine h.other (by simp [call_syscall _ is_call]) pool (fun i => ?_) hroomy
      rw [shm]
      exact setSegment_field (·.status) rfl _
  | full is_call is_current is_id no_slot shared eax
  | stranger is_call no_member shared eax
  | empty is_call is_member is_current is_id no_members shared eax =>
      exact h.other (by simp [call_syscall _ is_call]) shared.pool (fun i => by rw [shared.shm])
        hroomy
  | remove is_call is_current is_id shm pool eax =>
      have havail : s.procs.queues.avail ≠ 0 := by
        have := h.core.avail_of_cur h.room hcur
        change 2 ≤ s.procs.queues.avail at this
        omega
      rw [if_neg havail] at pool eax
      obtain ⟨helement, hout⟩ := hok (call_syscall _ is_call) is_current is_id
      exact h.remove (call_syscall _ is_call) helement hout shm pool (hanswer.trans eax) hroomy

end Steps

section Runs

variable {cfg : Config} {s s' : KState} {es : List Event}

lemma initial_poolKept (h : Initial cfg s) : PoolKept cfg [] s := by
  have hfresh := initial_shared h
  refine ⟨initial_roomy h, fun a ha => ?_, fun i => Or.inl ⟨?_, ?_, not_since_nil⟩⟩
  · rw [hfresh.pool] at ha
    obtain ⟨i, -, rfl⟩ := List.mem_map.mp ha
    exact ⟨i, rfl⟩
  · rw [hfresh.pool]
    exact List.count_eq_one_of_mem ((List.nodup_finRange _).map cfg.shm_injective)
      (List.mem_map_of_mem (List.mem_finRange i))
  · rw [hfresh.segments]
    rfl

/-- **The pool of segments**, in every run whose removals are of segments in use: only
elements of `_shms` are in the pool, each of them is there once or in use, and a segment
that is in use is not given away. -/
theorem segments_pooled (hl : cfg.Linked) (h₀ : Initial cfg s)
    (h : Run cfg (RemovesInUse cfg) s es s') :
    (∀ a ∈ s'.pool, ∃ i, cfg.shm i = a)
      ∧ (∀ i, Pooled (cfg.shm i) (trace (step cfg) s es) s'
        ∨ Used (cfg.shm i) (trace (step cfg) s es) s')
      ∧ ∀ e t a, step cfg s' e = .ok t → Gets a ⟨s', e, t⟩ →
        ¬ InUse a (trace (step cfg) s es) := by
  have hkept := h.history (PoolKept cfg) (initial_poolKept h₀)
    fun l s e s' hJ hok hstep => hJ.step hl hok hstep
  refine ⟨hkept.elements, hkept.places, fun e t a hstep hgets hused => ?_⟩
  obtain ⟨hcall, hcurrent, ha⟩ := hgets
  have hok : RemovesInUse cfg s' e := fun hc => absurd (hcall.symm.trans hc) (by simp)
  obtain ⟨p, hcur⟩ := hkept.exists_cur
  -- what is given away was the first segment of the pool
  have hmem : a ∈ s'.pool := by
    rcases (step_shared hkept.toSound hcur hstep).shmget_cases hcall with
      ⟨-, hshm, -, -⟩ | ⟨b, -, hpool, hshm, -⟩
    · rw [hshm] at hcurrent
      exact absurd hcurrent.symm ha
    · rw [hshm] at hcurrent
      rw [hpool, ← hcurrent]
      exact List.mem_cons_self
  obtain ⟨i, rfl⟩ := hkept.elements a hmem
  rcases hkept.places i with hi | hi
  · exact hi.not_used hused
  · exact absurd hmem (List.count_eq_zero.mp hi.count)

end Runs

/-! ### A segment removed twice -/

/-- A segment is made and removed, and another one made. -/
def remake : List Event := [call 11 [8, 2], call 16 [demoConfig.shm 0], call 11 [16, 2]]

theorem segments_pooled_remake : ∃ s', Run demoConfig (RemovesInUse demoConfig) bootState remake s'
    ∧ (∀ a ∈ s'.pool, ∃ i, demoConfig.shm i = a)
    ∧ (∀ i, Pooled (demoConfig.shm i) (trace (step demoConfig) bootState remake) s'
      ∨ Used (demoConfig.shm i) (trace (step demoConfig) bootState remake) s')
    ∧ ∀ e t a, step demoConfig s' e = .ok t → Gets a ⟨s', e, t⟩ →
      ¬ InUse a (trace (step demoConfig) bootState remake) := by
  obtain ⟨s', hrun, -⟩ := exists_run (step demoConfig) (RemovesInUse demoConfig) bootState remake
    (f := fun _ => ()) (b := ()) (by decide +kernel)
  exact ⟨s', hrun, segments_pooled demoConfig_linked initial_bootState hrun⟩

/-- **A segment that is removed twice is in the pool twice**: `_sys_shmrm` does not look
whether it is in use. -/
theorem shmrm_pools_twice : Initial demoConfig bootState ∧
    ∃ s, Run demoConfig (fun _ _ => True) bootState
        [call 11 [8, 2], call 16 [demoConfig.shm 0], call 16 [demoConfig.shm 0]] s
      ∧ s.pool.count (demoConfig.shm 0) = 2 := by
  obtain ⟨s, hrun, hcount⟩ := exists_run (step demoConfig) (fun _ _ => True) bootState
    [call 11 [8, 2], call 16 [demoConfig.shm 0], call 16 [demoConfig.shm 0]]
    (f := fun s => s.pool.count (demoConfig.shm 0)) (b := 2) (by decide +kernel)
  exact ⟨initial_bootState, s, hrun, hcount⟩

end Sp2
