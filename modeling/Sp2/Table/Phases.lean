import Sp2.Table.Requests

/-!
The two phases of a step: what happens before the kernel dispatches, and the dispatch.

* `Procs.Phased`, `step_phased`: a step returns to the process that was running, or takes it off
  the processor by moves that put nothing out of a ready queue and then dispatches.
* `dispatch_order`: **what `_dispatch` takes out of the ready queues**: zombies, and the first
  process that is ready.
* `keeps_dispatch`: what a dispatch leaves alone.
-/

namespace Sp2

open ProcTable Keyed

namespace Procs

/-! ### The quantum -/

/-- No quantum changes. -/
def SameQuantum (s s' : Procs) : Prop := ∀ x, (s'.pcbs x).quantum = (s.pcbs x).quantum

section Quantum

variable {s s' s'' : Procs} {p c : PcbId} {v : UInt32}

lemma SameQuantum.trans (h : SameQuantum s s') (h' : SameQuantum s' s'') : SameQuantum s s'' :=
  fun x => (h' x).trans (h x)

lemma sameQuantum_setPcb {f : Pcb → Pcb} (hf : (f (s.pcbs p)).quantum = (s.pcbs p).quantum) :
    SameQuantum s (s.setPcb p f) := by
  intro x
  by_cases hx : x = p
  · subst hx
    simpa [setPcb] using hf
  · simp [setPcb, hx]

lemma sameQuantum_setEax : SameQuantum s (s.setEax p v) := sameQuantum_setPcb rfl

lemma sameQuantum_schedule : SameQuantum s (s.schedule p).2 := by
  rw [schedule]
  split_ifs
  · exact sameQuantum_setPcb (s := s) (f := ({ · with status := .ready })) rfl
  · exact fun _ => rfl

/-- The wake-up loop schedules processes only, by induction on its fuel. -/
lemma sameQuantum_wakeLoop (time : UInt32) : ∀ (fuel : ℕ) (s : Procs),
    wakeLoop fuel time s = .ok s' → SameQuantum s s'
  | 0, _, h => by cases h
  | fuel + 1, s, h => by
      rw [wakeLoop] at h
      cases hres : s.qRemoveIfLe (.pcbs .sleeping) time with
      | mk first s₁ =>
          have hpcbs : s₁.pcbs = s.pcbs := by
            have hsnd := congrArg (fun r => r.2.pcbs) hres
            exact hsnd.symm
          have hfirst : SameQuantum s s₁ := fun x => by rw [hpcbs]
          rw [hres] at h
          cases first with
          | none =>
              obtain rfl := Except.ok.inj h
              exact hfirst
          | some q =>
              exact hfirst.trans (sameQuantum_schedule.trans (sameQuantum_wakeLoop time fuel _ h))

end Quantum

/-! ### Phases -/

/-- The moves that take nothing out of a ready queue. -/
def NoDispatch : Label → Prop
  | .reap (.queue _) _ => False
  | .dispatch _ => False
  | _ => True

/-- The moves that go before a dispatch. -/
def BeforeDispatch : Label → Prop
  | .reap (.queue _) _ => False
  | .dispatch _ => False
  | .kill _ => False
  | _ => True

lemma BeforeDispatch.noDispatch (l : Label) (h : BeforeDispatch l) : NoDispatch l := by
  unfold BeforeDispatch at h
  split at h
  · exact h
  · exact h
  · exact h.elim
  · unfold NoDispatch
    split <;> simp_all

/-- What a kernel function makes of the process modules while `p` runs: it returns to `p`, whose
quantum is some ticks less, or it takes `p` off the processor and dispatches. -/
inductive Phased (ticks : ℕ) (p : PcbId) (s s' : Procs) : Prop
  | returns (runs : s'.current = some p)
      (moves : Moves NoDispatch (s.table (some p)) (s'.table (some p)))
      (quantum : (s'.pcbs p).quantum.toNat + ticks = (s.pcbs p).quantum.toNat)
  | switches (ps : Procs) (moves : Moves BeforeDispatch (s.table (some p)) (ps.table none))
      (dispatched : ps.dispatch = .ok s')

section Phases

variable {s s' s'' : Procs} {p c : PcbId} {num pid : UInt16} {wakeup fcn v : UInt32}
  {level : UInt8}

/-- Setting EAX afterwards changes no phase of a function that returns. -/
lemma phased_setEax (hcur : s.current = some p) : Phased 0 p s (s.setEax p v) := by
  refine .returns hcur ?_ (congrArg UInt8.toNat (sameQuantum_setEax p))
  rw [table_setEax]
  exact Moves.refl _

lemma beforeDispatch_makeLabel : BeforeDispatch (makeLabel level c) := by
  rw [makeLabel]
  split_ifs <;> trivial

lemma sameQuantum_pcbDealloc : SameQuantum s (s.pcbDealloc p).2 :=
  sameQuantum_setPcb (s := s) (f := ({ · with status := .free })) rfl

/-- `_spawn` returns to its caller when one of the pools is empty, having stored a status and EAX
only. -/
lemma spawn_phased (hc : Core (s.table (some p))) (hcur : s.current = some p)
    (h : s.spawn p fcn level = .ok s') : Phased 0 p s s' := by
  cases hids : ((s.table none).ids .freePcbs).head? with
  | none =>
      have hfst : (s.qRemove (.pcbs .freePcbs)).1 = none := (qRemove_fst none).trans hids
      have halloc : s.pcbAlloc = (none, (s.qRemove (.pcbs .freePcbs)).2) := by
        rw [pcbAlloc, ← Prod.mk.eta (p := s.qRemove (.pcbs .freePcbs)), hfst]
      obtain ⟨s₁, halloc', -, hcur', htable⟩ := pcbAlloc_none (List.head?_eq_none_iff.mp hids)
      obtain rfl : s₁ = (s.qRemove (.pcbs .freePcbs)).2 :=
        congrArg Prod.snd (halloc'.symm.trans halloc)
      rw [spawn, halloc] at h
      obtain rfl := Except.ok.inj h
      refine .returns (hcur'.trans hcur) ?_ (congrArg UInt8.toNat (sameQuantum_setEax p))
      rw [table_setEax, htable]
      exact Moves.refl _
  | some c =>
      have hfst : (s.qRemove (.pcbs .freePcbs)).1 = some c := (qRemove_fst none).trans hids
      cases hstack : (s.table none).stackIds.head? with
      | none =>
          obtain ⟨s₁, heq, -, hcur', hmove⟩ :=
            spawn_noStack p fcn level hids (List.head?_eq_none_iff.mp hstack)
          obtain rfl := Except.ok.inj (heq.symm.trans h)
          refine .returns (hcur'.trans hcur) ?_ ?_
          · rw [table_setEax]
            exact Moves.single (hmove (some p)) trivial
          · set s₂ := (s.qRemove (.pcbs .freePcbs)).2.setPcb c ({ · with status := .new }) with hs₂
            have halloc : s.pcbAlloc = (some c, s₂) := by
              rw [pcbAlloc, ← Prod.mk.eta (p := s.qRemove (.pcbs .freePcbs)), hfst]
            have hnone : s₂.stackAlloc = (none, s₂.stackAlloc.2) := by
              refine Prod.ext ?_ rfl
              rw [stackAlloc_fst none, hs₂, table_setPcb, table_qRemove]
              exact hstack
            have hsame : SameQuantum s (s₂.stackAlloc.2.pcbDealloc c).2 :=
              (sameQuantum_setPcb (s := (s.qRemove (.pcbs .freePcbs)).2)
                (f := ({ · with status := .new })) rfl).trans sameQuantum_pcbDealloc
            rw [spawn, halloc] at h
            simp only at h
            rw [hnone] at h
            rw [← Except.ok.inj h]
            exact congrArg UInt8.toNat ((hsame.trans sameQuantum_setEax) p)
      | some k =>
          obtain ⟨s₁, t, heq, hmake, hrequeue, -⟩ := spawn_make fcn level hc hids hstack
          refine .switches s₁ (Moves.head hmake beforeDispatch_makeLabel ?_) (heq.symm.trans h)
          exact Moves.single hrequeue trivial

lemma sleep_phased (hc : Core (s.table (some p))) (h : s.sleep p num wakeup = .ok s') :
    Phased 0 p s s' := by
  by_cases hnum : num = 0
  · subst hnum
    rw [sleep_zero] at h
    exact .switches _ (Moves.single (schedule_requeue (hc.running p rfl).2) trivial) h
  · by_cases hfree : s.queues.avail = 0
    · obtain ⟨s₁, heq⟩ := sleep_panic p wakeup hnum hfree
      cases heq.symm.trans h
    · obtain ⟨s₁, heq, -, hmove⟩ := sleep_park p wakeup hnum hfree
      exact .switches s₁ (Moves.single hmove trivial) (heq.symm.trans h)

lemma blockReading_phased (h : s.blockReading p = .ok s') : Phased 0 p s s' := by
  by_cases hfree : s.queues.avail = 0
  · obtain ⟨s₁, heq⟩ := blockReading_panic (p := p) hfree
    cases heq.symm.trans h
  · obtain ⟨s₁, heq, -, hmove⟩ := blockReading_block (p := p) hfree
    exact .switches s₁ (Moves.single hmove trivial) (heq.symm.trans h)

lemma exit_phased (hc : Core (s.table (some p))) (h : s.exit p = .ok s') : Phased 0 p s s' :=
  .switches _ (Moves.single (cleanup_reap hc) trivial) h

lemma kill_phased (hc : Core (s.table (some p))) (hcur : s.current = some p)
    (h : s.kill p pid = .ok s') : Phased 0 p s s' := by
  by_cases hrefused : pid = 0 ∨ pid ≠ (s.pcbs p).pid ∧ s.findPid pid = none
  · obtain rfl := Except.ok.inj ((kill_refused hrefused).symm.trans h)
    exact phased_setEax hcur
  · obtain ⟨h0, hrest⟩ := not_or.mp hrefused
    by_cases hself : pid = (s.pcbs p).pid
    · rw [kill_self h0 hself] at h
      cases exit_phased (s := s.setEax p minusOne) (by rwa [table_setEax]) h with
      | returns runs moves quantum =>
          exact .returns runs (table_setEax (s := s) (some p) ▸ moves)
            (quantum.trans (congrArg UInt8.toNat (sameQuantum_setEax p)))
      | switches ps moves dispatched =>
          exact .switches ps (table_setEax (s := s) (some p) ▸ moves) dispatched
    · obtain ⟨x, hx⟩ := Option.ne_none_iff_exists'.mp fun h => hrest ⟨hself, h⟩
      obtain ⟨s₁, heq, hcur', hmove, -⟩ := kill_other h0 hself hx
      obtain rfl := Except.ok.inj (heq.symm.trans h)
      refine .returns (hcur'.trans hcur) (Moves.single hmove trivial) ?_
      have hkill : s.kill p pid = .ok (((s.setEax p minusOne).setEax p
          (s.pcbs x).status.code).setPcb x ({ · with status := .zombie })) := by
        simp [kill, h0, hself, hx]
      rw [← Except.ok.inj (hkill.symm.trans heq)]
      exact congrArg UInt8.toNat (((sameQuantum_setEax (s := s)).trans (sameQuantum_setEax.trans
        (sameQuantum_setPcb rfl))) p)

end Phases

/-! ### What a dispatch takes out of the ready queues -/

section Order

variable {s s' s₂ : Procs} {p q x : PcbId} {l : Fin mlqLevels}

/-- The loop of `_dispatch` only removes, cleans up and counts, by induction on its fuel. -/
lemma keeps_dispatchLoop {r : Option PcbId} : ∀ (fuel level : ℕ) (s : Procs),
    dispatchLoop fuel level s = .ok (r, s') → Keeps s s'
  | 0, _, _, h => by cases h
  | fuel + 1, level, s, h => by
      by_cases hlevel : level < mlqLevels
      · rw [dispatchLoop, dif_pos hlevel] at h
        split_ifs at h
        · exact keeps_dispatchLoop fuel (level + 1) s h
        · cases hres : s.qRemove (.pcbs (.ready ⟨level, hlevel⟩)) with
          | mk first s₁ =>
              obtain rfl : (s.qRemove (.pcbs (.ready ⟨level, hlevel⟩))).2 = s₁ :=
                congrArg Prod.snd hres
              have hkeeps : Keeps s (s.qRemove (.pcbs (.ready ⟨level, hlevel⟩))).2 := keeps_qRemove
              rw [hres] at h
              cases first with
              | none => cases h
              | some q =>
                  simp only at h
                  split at h
                  · obtain ⟨-, rfl⟩ := Prod.mk.inj (Except.ok.inj h)
                    exact hkeeps
                  · exact (hkeeps.trans keeps_cleanup).trans (keeps_dispatchLoop fuel level _ h)
                  · cases h
      · rw [dispatchLoop, dif_neg hlevel] at h
        obtain ⟨-, rfl⟩ := Prod.mk.inj (Except.ok.inj h)
        exact .refl s

lemma keeps_dispatch (h : s.dispatch = .ok s') : Keeps s s' := by
  rw [dispatch] at h
  cases hloop : dispatchLoop dispatchFuel 0 s with
  | error e => simp [hloop] at h
  | ok r =>
      obtain ⟨first, s₂⟩ := r
      have hkeeps := keeps_dispatchLoop _ _ s hloop
      cases first with
      | none => simp [hloop] at h
      | some p =>
          simp only [hloop, Except.ok.injEq] at h
          have hlast : Keeps s₂ (s₂.setPcb p
              ({ · with status := .running, quantum := quantumDefault })) :=
            keeps_setPcb rfl rfl rfl rfl
          rw [← h]
          exact hkeeps.trans ⟨hlast.context, hlast.level, hlast.pid, hlast.ppid, hlast.nextPid⟩

/-- What is taken out of the ready queues from a level on: the entries of the levels before `l` and
the first ones of `l`, all zombies, which are freed, and then the process `p`, which is ready. -/
structure TakenOut (level : ℕ) (s : Procs) (p : PcbId) (s' : Procs) (l : Fin mlqLevels)
    (front : List PcbId) : Prop where
  from_level : level ≤ l
  lower : ∀ j : Fin mlqLevels, level ≤ j → j < l → ∀ q ∈ (s.table none).ids (.ready j),
    (s.pcbs q).status = .zombie
  taken : (s.table none).ids (.ready l) = front ++ p :: (s'.table none).ids (.ready l)
  dead : ∀ q ∈ front, (s.pcbs q).status = .zombie
  ready : (s.pcbs p).status = .ready
  higher : ∀ j > l, (s'.table none).ids (.ready j) = (s.table none).ids (.ready j)
  free : ∀ q, (s.pcbs q).status = .free → (s'.pcbs q).status = .free
  front_free : ∀ q ∈ front, (s'.pcbs q).status = .free
  lower_free : ∀ j : Fin mlqLevels, level ≤ j → j < l → ∀ q ∈ (s.table none).ids (.ready j),
    (s'.pcbs q).status = .free

lemma ids_qRemove (q q' : PcbQueue) : ((s.qRemove (.pcbs q)).2.table none).ids q'
    = if q' = q then ((s.table none).ids q).tail else (s.table none).ids q' := by
  rw [table_qRemove, ProcTable.ids, ProcTable.ids, ProcTable.ids, pop]
  by_cases hq : q' = q
  · subst hq
    simp
  · simp [hq]

/-- `_cleanup` puts nothing into a ready queue. -/
lemma ids_cleanup (l : Fin mlqLevels) :
    ((s.cleanup (some p)).table none).ids (.ready l) = (s.table none).ids (.ready l) := by
  have hpush : ∀ t : ProcTable, (t.push .freePcbs p).ids (.ready l) = t.ids (.ready l) := by
    intro t
    rw [ProcTable.ids, ProcTable.ids, push_queue_of_ne (by simp)]
  rw [cleanup]
  cases (s.pcbs p).stack with
  | none =>
      simp only [table_pcbDealloc, hpush]
      rfl
  | some k =>
      simp only [table_pcbDealloc, hpush]
      rw [ProcTable.ids, setStatus_queue, table_stackDealloc, pushStack_queue]
      rfl

lemma status_cleanup : ((s.cleanup (some p)).pcbs x).status
    = if x = p then .free else (s.pcbs x).status := by
  have hdealloc : ∀ s : Procs, ((s.pcbDealloc p).2.pcbs x).status
      = if x = p then .free else (s.pcbs x).status := by
    intro s
    by_cases hx : x = p
    · subst hx
      simp [pcbDealloc, qInsert, setPcb]
    · simp [pcbDealloc, qInsert, setPcb, hx]
  rw [cleanup]
  cases (s.pcbs p).stack with
  | none => exact hdealloc s
  | some k => exact hdealloc _

/-- **The loop of `_dispatch`, in order**, by induction on its fuel: it takes zombies out until it
meets a process that is ready. -/
lemma dispatchLoop_order : ∀ (fuel level : ℕ) (s : Procs), Core (s.table none) →
    dispatchLoop fuel level s = .ok (some p, s₂) → ∃ l front, TakenOut level s p s₂ l front
  | 0, _, _, _, h => by cases h
  | fuel + 1, level, s, hc, h => by
      by_cases hlevel : level < mlqLevels
      · by_cases hempty : (s.table none).queue (.ready ⟨level, hlevel⟩) = []
        · rw [dispatchLoop_empty hlevel ((isEmpty_iff none).mpr hempty)] at h
          obtain ⟨l, front, hout⟩ := dispatchLoop_order fuel (level + 1) s hc h
          refine ⟨l, front, (Nat.le_succ level).trans hout.from_level, fun j hj hjl q hq => ?_,
            hout.taken, hout.dead, hout.ready, hout.higher, hout.free, hout.front_free,
            fun j hj hjl q hq => ?_⟩
          all_goals
            rcases Nat.lt_or_eq_of_le hj with hj | hj
          · exact hout.lower j hj hjl q hq
          · obtain rfl : j = ⟨level, hlevel⟩ := Fin.ext hj.symm
            rw [ProcTable.ids, hempty] at hq
            exact absurd hq List.not_mem_nil
          · exact hout.lower_free j hj hjl q hq
          · obtain rfl : j = ⟨level, hlevel⟩ := Fin.ext hj.symm
            rw [ProcTable.ids, hempty] at hq
            exact absurd hq List.not_mem_nil
        · obtain ⟨q, hq⟩ := exists_head hempty
          have hfst : (s.qRemove (.pcbs (.ready ⟨level, hlevel⟩))).1 = some q :=
            (qRemove_fst none).trans hq
          have hfull : ¬ s.queues.isEmpty (.pcbs (.ready ⟨level, hlevel⟩)) = true :=
            (isEmpty_iff none).not.mpr hempty
          have hids : (s.table none).ids (.ready ⟨level, hlevel⟩)
              = q :: ((s.table none).ids (.ready ⟨level, hlevel⟩)).tail :=
            List.eq_cons_of_mem_head? hq
          rcases ready_cases hc hq with hs | ⟨hs, k, hk⟩
          · -- ready: nothing else is taken out
            rw [dispatchLoop_ready hlevel hfull hfst hs] at h
            obtain ⟨hqp, rfl⟩ := Prod.mk.inj (Except.ok.inj h)
            obtain rfl := Option.some.inj hqp
            refine ⟨⟨level, hlevel⟩, [], le_rfl, fun j hj hjl => absurd hjl (not_lt.mpr hj), ?_,
              by simp, hs, fun j hj => ?_, fun _ hq => hq, by simp,
              fun j hj hjl => absurd hjl (not_lt.mpr hj)⟩
            · rw [ids_qRemove, if_pos rfl]
              exact hids
            · rw [ids_qRemove, if_neg]
              rintro ⟨⟩
              exact lt_irrefl _ hj
          · -- a zombie: it is taken out, and then what the rest of the loop takes
            rw [dispatchLoop_zombie hlevel hfull hfst hs] at h
            set s₁ := (s.qRemove (.pcbs (.ready ⟨level, hlevel⟩))).2.cleanup (some q) with hs₁
            have hstatus : ∀ x, (s₁.pcbs x).status
                = if x = q then .free else (s.pcbs x).status := fun x => status_cleanup
            have hids₁ : ∀ j, (s₁.table none).ids (.ready j)
                = if j = ⟨level, hlevel⟩ then ((s.table none).ids (.ready j)).tail
                  else (s.table none).ids (.ready j) := fun j => by
              rw [hs₁, ids_cleanup, ids_qRemove]
              by_cases hj : j = ⟨level, hlevel⟩
              · subst hj
                simp
              · simp [hj]
            have hzombie : ∀ x, (s₁.pcbs x).status = .zombie → (s.pcbs x).status = .zombie := by
              intro x hx
              rw [hstatus] at hx
              split_ifs at hx
              exact hx
            have hmove : Core (s₁.table none) := by
              have hk' : ((s.qRemove (.pcbs (.ready ⟨level, hlevel⟩))).2.pcbs q).stack
                  = some k := hk
              rw [hs₁, table_cleanup hk', table_qRemove]
              exact (Move.reap (t := s.table none) _ hq (Or.inr ⟨_, rfl, hs⟩) hk).core hc
            obtain ⟨l, front, hout⟩ := dispatchLoop_order fuel level s₁ hmove h
            have hready : (s.pcbs p).status = .ready := by
              have := hout.ready
              rw [hstatus] at this
              split_ifs at this
              exact this
            have hlow : ∀ j : Fin mlqLevels, level ≤ j → j < l →
                ∀ x ∈ (s.table none).ids (.ready j), (s.pcbs x).status = .zombie := by
              intro j hj hjl x hx
              by_cases hjlevel : j = ⟨level, hlevel⟩
              · subst hjlevel
                rw [hids, List.mem_cons] at hx
                rcases hx with rfl | hx
                · exact hs
                · refine hzombie x (hout.lower _ hj hjl x ?_)
                  rwa [hids₁, if_pos rfl]
              · refine hzombie x (hout.lower j hj hjl x ?_)
                rwa [hids₁, if_neg hjlevel]
            have hfree : ∀ x, x = q ∨ (s.pcbs x).status = .free → (s₂.pcbs x).status = .free := by
              intro x hx
              refine hout.free x ?_
              rw [hstatus]
              split_ifs with hxq
              · rfl
              · exact hx.resolve_left hxq
            have hlow' : ∀ j : Fin mlqLevels, level ≤ j → j < l →
                ∀ x ∈ (s.table none).ids (.ready j), (s₂.pcbs x).status = .free := by
              intro j hj hjl x hx
              by_cases hjlevel : j = ⟨level, hlevel⟩
              · subst hjlevel
                rw [hids, List.mem_cons] at hx
                rcases hx with rfl | hx
                · exact hfree _ (Or.inl rfl)
                · refine hout.lower_free _ hj hjl x ?_
                  rwa [hids₁, if_pos rfl]
              · refine hout.lower_free j hj hjl x ?_
                rwa [hids₁, if_neg hjlevel]
            have hhigh : ∀ j > l,
                (s₂.table none).ids (.ready j) = (s.table none).ids (.ready j) := by
              intro j hj
              rw [hout.higher j hj, hids₁, if_neg]
              rintro rfl
              exact absurd hout.from_level (not_le.mpr hj)
            have htaken := hout.taken
            rw [hids₁] at htaken
            by_cases hl : l = ⟨level, hlevel⟩
            · subst hl
              rw [if_pos rfl] at htaken
              refine ⟨_, q :: front, hout.from_level, hlow, ?_, ?_, hready, hhigh,
                fun x hx => hfree x (Or.inr hx), ?_, hlow'⟩
              · rw [hids, htaken, List.cons_append]
              · rintro x (_ | ⟨_, hx⟩)
                · exact hs
                · exact hzombie x (hout.dead x hx)
              · rintro x (_ | ⟨_, hx⟩)
                · exact hfree _ (Or.inl rfl)
                · exact hout.front_free x hx
            · rw [if_neg hl] at htaken
              exact ⟨l, front, hout.from_level, hlow, htaken,
                fun x hx => hzombie x (hout.dead x hx), hready, hhigh,
                fun x hx => hfree x (Or.inr hx), hout.front_free, hlow'⟩
      · rw [dispatchLoop, dif_neg hlevel] at h
        cases h

/-- **What a dispatch takes out of the ready queues**, and which process it chooses. -/
theorem dispatch_order (hc : Core (s.table none)) (h : s.dispatch = .ok s') :
    ∃ p l front, s'.current = some p ∧ (s'.pcbs p).quantum = quantumDefault ∧
      TakenOut 0 s p s' l front := by
  rw [dispatch] at h
  cases hloop : dispatchLoop dispatchFuel 0 s with
  | error e => simp [hloop] at h
  | ok r =>
      obtain ⟨first, s₂⟩ := r
      cases first with
      | none => simp [hloop] at h
      | some p =>
          simp only [hloop, Except.ok.injEq] at h
          obtain ⟨l, front, hout⟩ := dispatchLoop_order _ _ s hc hloop
          refine ⟨p, l, front, by rw [← h], by simp [← h, setPcb], ?_⟩
          have hids : ∀ j, (s'.table none).ids (.ready j) = (s₂.table none).ids (.ready j) :=
            fun j => by rw [← h]; rfl
          have hpcbs : ∀ x, (s.pcbs x).status ≠ .ready →
              (s'.pcbs x).status = (s₂.pcbs x).status := by
            intro x hx
            have hne : x ≠ p := fun heq => hx (heq ▸ hout.ready)
            rw [← h]
            simp [setPcb, hne]
          exact ⟨hout.from_level, hout.lower, by rw [hids]; exact hout.taken, hout.dead, hout.ready,
            fun j hj => by rw [hids]; exact hout.higher j hj,
            fun x hx => (hpcbs x (by rw [hx]; decide)).trans (hout.free x hx),
            fun x hx => (hpcbs x (by rw [hout.dead x hx]; decide)).trans (hout.front_free x hx),
            fun j hj hjl x hx => (hpcbs x (by rw [hout.lower j hj hjl x hx]; decide)).trans
              (hout.lower_free j hj hjl x hx)⟩

end Order

end Procs

/-! ### Steps -/

section Steps

open Procs

variable {cfg : Config} {s s' : KState} {p : PcbId} {e : Event} {context : Context} {args : Args}
  {ticks : ℕ}

/-- The entry to the kernel stores a save area only. -/
lemma Phased.of_isrSave (context : Context) (hc : Core s.table) (hcur : s.procs.current = some p)
    {ps : Procs} (h : Phased ticks p (s.isrSave context).procs ps) : Phased ticks p s.procs ps := by
  obtain ⟨-, htable, -, -⟩ := isrSave_running context hc hcur
  have htable' : s.procs.table (some p) = s.table := by rw [KState.table, hcur]
  have hquantum : ((s.isrSave context).procs.pcbs p).quantum = (s.procs.pcbs p).quantum := by
    simp [KState.isrSave, hcur, setPcb]
  cases h with
  | returns runs moves quantum =>
      refine .returns runs ?_ (quantum.trans (congrArg UInt8.toNat hquantum))
      rwa [htable, ← htable'] at moves
  | switches ps' moves dispatched =>
      refine .switches ps' ?_ dispatched
      rwa [htable, ← htable'] at moves

/-- A handler that changes the save area of its caller at most. -/
lemma Plain.phased {r : Res KState} (h : Plain p s r) (hcur : s.procs.current = some p)
    (hr : r = .ok s') : Phased 0 p s.procs s'.procs := by
  subst hr
  obtain ⟨hprocs | ⟨v, hprocs⟩, -⟩ := h
  · rw [hprocs]
    exact .returns hcur (Moves.refl _) rfl
  · rw [hprocs]
    exact phased_setEax hcur

/-- A segment is taken from its pool or put back, and EAX set. -/
lemma phased_other {ps : Procs} {v : UInt32}
    (hm : ∀ cur, Move .other (s.procs.table cur) (ps.table cur)) (hcur' : ps.current = some p)
    (hquantum : SameQuantum s.procs ps) : Phased 0 p s.procs (ps.setEax p v) := by
  refine .returns hcur' ?_ (congrArg UInt8.toNat ((hquantum.trans sameQuantum_setEax) p))
  rw [table_setEax]
  exact Moves.single (hm _) trivial

lemma sysHandler_phased {call : SysCall} (hc : Core s.table) (hcur : s.procs.current = some p)
    (h : sysHandler cfg p args s call = .ok s') : Phased 0 p s.procs s'.procs := by
  have hc' : Core (s.procs.table (some p)) := by rwa [KState.table, hcur] at hc
  cases call with
  | spawn =>
      obtain ⟨ps, hres, rfl⟩ := liftProcs_ok h
      exact spawn_phased hc' hcur hres
  | spawnl =>
      obtain ⟨ps, hres, rfl⟩ := liftProcs_ok h
      exact spawn_phased hc' hcur hres
  | sleep =>
      obtain ⟨ps, hres, rfl⟩ := liftProcs_ok h
      exact sleep_phased hc' hres
  | exit =>
      obtain ⟨ps, hres, rfl⟩ := liftProcs_ok h
      exact exit_phased hc' hres
  | kill =>
      obtain ⟨ps, hres, rfl⟩ := liftProcs_ok h
      exact kill_phased hc' hcur hres
  | read =>
      rw [sysHandler, sysRead] at h
      cases hread : s.sio.sioRead with
      | mk ch sio =>
          rw [hread] at h
          cases ch with
          | none =>
              obtain ⟨ps, hres, rfl⟩ := liftProcs_ok h
              exact blockReading_phased hres
          | some ch =>
              obtain rfl := Except.ok.inj h
              exact phased_setEax hcur
  | shmget =>
      obtain ⟨t, v, heq, hprocs, -⟩ := sysShmget_ok cfg args s p
      obtain rfl : t = s' := Except.ok.inj (heq.symm.trans h)
      rw [hprocs]
      exact phased_other (fun cur => move_shmAlloc s.procs cur) hcur fun _ => rfl
  | shmrm =>
      rcases sysShmrm_cases args s p with ⟨halt, heq, -⟩ | ⟨-, t, v, heq, -, -, hprocs⟩
      · cases heq.symm.trans h
      · obtain rfl : t = s' := Except.ok.inj (heq.symm.trans h)
        rw [hprocs]
        exact phased_other (fun cur => move_shmDealloc s.procs (args 0) cur) hcur fun _ => rfl
  | shmat => exact plain_sysShmat.phased hcur h
  | shmwrite => exact plain_sysShmwrite.phased hcur h
  | shmread => exact plain_sysShmread.phased hcur h
  | shmdt => exact plain_sysShmdt.phased hcur h
  | write =>
      obtain rfl := Except.ok.inj h
      exact .returns hcur (Moves.refl _) rfl
  | _ =>
      obtain rfl := Except.ok.inj h
      exact phased_setEax hcur

lemma rxInterrupt_quantum {ch : UInt8} (h : rxInterrupt ch s = .ok s') :
    s'.procs.current = s.procs.current ∧ SameQuantum s.procs s'.procs := by
  unfold rxInterrupt at h
  simp only at h
  split at h
  · cases hres : (s.procs.qRemove (.pcbs .reading)).1 with
    | none =>
        rw [hres] at h
        cases h
    | some q =>
        rw [hres] at h
        simp only at h
        split at h
        · cases h
        · obtain rfl := Except.ok.inj h
          refine ⟨?_, (sameQuantum_setEax (s := (s.procs.qRemove (.pcbs .reading)).2)).trans
            sameQuantum_schedule⟩
          rw [schedule]
          split_ifs <;> rfl
  · split at h <;> obtain rfl := Except.ok.inj h <;> exact ⟨rfl, fun _ => rfl⟩

lemma isrSio_quantum : ∀ (polls : List (UInt8 × UInt8)) (s : KState),
    isrSio polls s = .ok s' →
      s'.procs.current = s.procs.current ∧ SameQuantum s.procs s'.procs
  | [], s, h => by
      obtain rfl := Except.ok.inj h
      exact ⟨rfl, fun _ => rfl⟩
  | (eir, rxd) :: polls, s, h => by
      rw [isrSio] at h
      split_ifs at h
      · exact isrSio_quantum polls { s with sio := s.sio.txInterrupt } h
      · cases hres : rxInterrupt rxd s with
        | ok t =>
            rw [hres] at h
            obtain ⟨hcur, hsame⟩ := rxInterrupt_quantum hres
            obtain ⟨hcur', hsame'⟩ := isrSio_quantum polls t h
            exact ⟨hcur'.trans hcur, hsame.trans hsame'⟩
        | error _ =>
            rw [hres] at h
            cases h
      · obtain rfl := Except.ok.inj h
        exact ⟨rfl, fun _ => rfl⟩

/-- Without pending requests nothing is carried along. -/
lemma ProcTable.Carried.eq_of_noRequests {t t' : ProcTable} (h : Carried t t')
    (hr : t.requests = noRequests) (havail : t'.avail = t.avail) : t' = t := by
  have hpool := h.pool
  have hlength : t'.requests.ramdisk.length ≤ t'.requests.length := by
    rw [Requests.length]
    omega
  have hnone : t.requests.length = 0 := by
    rw [hr]
    rfl
  have hramdisk : t'.requests.ramdisk = [] := List.length_eq_zero_iff.mp (by omega)
  rw [h.eq, havail, hramdisk]
  ext1
  case requests => rw [hr, noRequests]
  all_goals rfl

/-- A clock interrupt wakes sleepers up before it counts the quantum down. -/
lemma isrClock_phased (hc : Core (s.procs.table (some p)))
    (hr : (s.procs.table (some p)).requests = noRequests) (hcur : s.procs.current = some p)
    (h : isrClock cfg s = .ok s') : Phased 1 p s.procs s'.procs := by
  obtain ⟨ps, s₁, hwake, hms, hserved, hcur₁, -, heq⟩ :=
    isrClock_phases cfg hc (congrArg Requests.blocked hr) hcur
  obtain ⟨ps', hres, rfl⟩ := liftProcs_ok (heq.symm.trans h)
  have hr' : (ps.table (some p)).requests = noRequests :=
    hms.invariant hc (I := fun t => t.requests = noRequests) hr
      fun l t t' _ _ hm hI => hm.requests_eq.trans hI
  have hnone : ¬ KState.FreesNode { s with clock := s.clock.tick, procs := ps } := fun hfree =>
    hfree.2 (congrArg Requests.ramdisk hr')
  have havail := hserved.avail
  rw [if_neg hnone, Nat.add_zero] at havail
  have htable : s₁.procs.table (some p) = ps.table (some p) :=
    (hserved.carried (some p)).eq_of_noRequests hr' havail
  have hquantum : SameQuantum s.procs s₁.procs := fun x => by
    rw [hserved.pcbs]
    exact sameQuantum_wakeLoop _ _ _ hwake x
  have hwoken : Moves BeforeDispatch (s.procs.table (some p)) (s₁.procs.table (some p)) := by
    rw [htable]
    refine hms.mono fun l hl => ?_
    unfold OfWake at hl
    split at hl
    · trivial
    · exact hl.elim
  have hc₁ := hwoken.core hc
  by_cases hq : (s₁.procs.pcbs p).quantum = 0
  · have hexpire : s₁.procs.expireQuantum = (s₁.procs.schedule p).2.dispatch := by
      simp [expireQuantum, hcur₁, hq]
    exact .switches _ (hwoken.trans (Moves.single (schedule_requeue (hc₁.running p rfl).2) trivial))
      (hexpire.symm.trans hres)
  · have hexpire : s₁.procs.expireQuantum
        = .ok (s₁.procs.setPcb p fun x => { x with quantum := x.quantum - 1 }) := by
      simp [expireQuantum, hcur₁, hq]
    obtain rfl := Except.ok.inj (hexpire.symm.trans hres)
    refine .returns hcur₁ ?_ ?_
    · have hsame : (s₁.procs.setPcb p fun x => { x with quantum := x.quantum - 1 }).table (some p)
          = s₁.procs.table (some p) := table_setPcb_eq rfl
      rw [hsame]
      exact hwoken.mono BeforeDispatch.noDispatch
    · rw [← hquantum p]
      have hpos : (s₁.procs.pcbs p).quantum.toNat ≠ 0 := fun h0 => hq (UInt8.toNat_inj.mp h0)
      have hle : (1 : UInt8) ≤ (s₁.procs.pcbs p).quantum := by
        rw [UInt8.le_iff_toNat_le]
        change 1 ≤ _
        omega
      have hsub := UInt8.toNat_sub_of_le _ _ hle
      simp only [setPcb, Function.update_self, hsub]
      change _ - 1 + 1 = _
      omega

/-- **Every step has these phases.** -/
theorem step_phased (hs : Sound s) (hcur : s.procs.current = some p)
    (h : step cfg s e = .ok s') :
    Phased (if e.isClock then 1 else 0) p s.procs s'.procs := by
  cases e with
  | syscall context args =>
      obtain ⟨hcur', -⟩ := isrSave_running context hs.core hcur
      rw [step_syscall hcur] at h
      refine Phased.of_isrSave context hs.core hcur (sysHandler_phased ?_ hcur' h)
      rw [isrSave_table context hs.core]
      exact hs.core
  | clock context =>
      obtain ⟨hcur', htable, -⟩ := isrSave_running context hs.core hcur
      exact Phased.of_isrSave context hs.core hcur
        (isrClock_phased (htable ▸ hs.core) (htable ▸ hs.no_requests) hcur' h)
  | sio context polls =>
      obtain ⟨hcur', htable, -⟩ := isrSave_running context hs.core hcur
      have hmoves := step_moves hs hcur h
      obtain ⟨hcur'', hquantum⟩ := isrSio_quantum polls (s.isrSave context) h
      rw [KState.table, KState.table, hcur, hcur'', hcur'] at hmoves
      refine .returns (hcur''.trans hcur') (hmoves.mono ?_) (congrArg UInt8.toNat ?_)
      · rintro l ⟨x, rfl⟩
        trivial
      · rw [hquantum]
        simp [KState.isrSave, hcur, setPcb]
  | store address byte =>
      obtain rfl := Except.ok.inj h
      exact .returns hcur (Moves.refl _) rfl
  | record address segment =>
      obtain rfl := Except.ok.inj h
      have hprocs : (s.storeRecord cfg address segment).procs = s.procs := by
        rw [KState.storeRecord]
        split_ifs <;> rfl
      rw [hprocs]
      exact .returns hcur (Moves.refl _) rfl

end Steps

end Sp2
