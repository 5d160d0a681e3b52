import Sp2.Serial.Rounds

/-!
The pool of segments and the functions that leave it alone.

* `KState.pool`: the addresses in `_free_shms`, first to last.
* `SameItems`: a function of the process modules leaves a queue alone. All of them leave
  alone every queue that holds neither processes nor stacks.
* `isrClock_pool`, `isrSio_pool`, `initial_pool`: the interrupts move no segment, and
  `_init` leaves the pool full.
-/

namespace Sp2

open ProcTable Procs

/-- The addresses in `_free_shms`, first to last. -/
def KState.pool (s : KState) : List UInt32 := (s.procs.queues.items .freeShms).map Prod.snd

/-- A queue has the same entries in both states. -/
def SameItems (q : QueueName) (s s' : Procs) : Prop := s'.queues.items q = s.queues.items q

/-! ### Functions of the process modules -/

section Functions

variable {q : QueueName} {s s' s'' : Procs} {p x : PcbId} {r : Option PcbId}

lemma SameItems.refl (s : Procs) : SameItems q s s := rfl

lemma SameItems.trans (h : SameItems q s s') (h' : SameItems q s' s'') : SameItems q s s'' :=
  Eq.trans h' h

lemma sameItems_setPcb {f : Pcb → Pcb} : SameItems q s (s.setPcb p f) := rfl

lemma sameItems_setEax {v : UInt32} : SameItems q s (s.setEax p v) := rfl

lemma sameItems_makeProc {c : PcbId} {k : StackId} {fcn : UInt32} {level : UInt8} :
    SameItems q s (s.makeProc c k fcn level).2 := rfl

lemma sameItems_qInsert (q' : QueueName) (y : q'.Elem) (hq : q ≠ q') :
    SameItems q s (s.qInsert q' y).2 := by
  have hitems := s.queues.items_insert s.pcbs q' y
  change (s.queues.insert s.pcbs q' y).2.items q = s.queues.items q
  rw [hitems]
  split_ifs
  · rfl
  · exact Function.update_of_ne hq _ _

lemma sameItems_qRemove (q' : QueueName) (hq : q ≠ q') : SameItems q s (s.qRemove q').2 := by
  change (s.queues.remove q').2.items q = s.queues.items q
  rw [s.queues.items_remove q']
  exact Function.update_of_ne hq _ _

lemma sameItems_qRemoveIfLe (q' : QueueName) (key : UInt32) (hq : q ≠ q') :
    SameItems q s (s.qRemoveIfLe q' key).2 := by
  change (s.queues.removeIfLe q' key).2.items q = s.queues.items q
  rw [QSys.removeIfLe_eq]
  split_ifs
  · rw [s.queues.items_remove q']
    exact Function.update_of_ne hq _ _
  · rfl

/-- A queue of neither processes nor stacks is none of their queues. -/
lemma ne_of_isProcess {q' : QueueName} (hq : q.isProcess = false) (hq' : q'.isProcess = true) :
    q ≠ q' := by
  rintro rfl
  exact absurd (hq.symm.trans hq') (by simp)

variable (hq : q.isProcess = false)

include hq

lemma sameItems_pcbDealloc : SameItems q s (s.pcbDealloc p).2 :=
  sameItems_setPcb.trans (sameItems_qInsert (.pcbs .freePcbs) p (ne_of_isProcess hq rfl))

lemma sameItems_pcbAlloc : SameItems q s s.pcbAlloc.2 := by
  have hremove : SameItems q s (s.qRemove (.pcbs .freePcbs)).2 :=
    sameItems_qRemove _ (ne_of_isProcess hq rfl)
  rw [pcbAlloc]
  cases h : s.qRemove (.pcbs .freePcbs) with
  | mk r s' =>
      rw [h] at hremove
      cases r <;> exact hremove

lemma sameItems_stackAlloc : SameItems q s s.stackAlloc.2 :=
  sameItems_qRemove .freeStacks (ne_of_isProcess hq rfl)

lemma sameItems_stackDealloc (k : StackId) : SameItems q s (s.stackDealloc k).2 :=
  sameItems_qInsert .freeStacks k (ne_of_isProcess hq rfl)

lemma sameItems_cleanup : SameItems q s (s.cleanup r) := by
  cases r with
  | none => exact .refl s
  | some p =>
      unfold cleanup
      simp only
      cases (s.pcbs p).stack with
      | none => exact sameItems_pcbDealloc hq
      | some k => exact (sameItems_stackDealloc hq k).trans (sameItems_pcbDealloc hq)

lemma sameItems_schedule : SameItems q s (s.schedule p).2 := by
  rw [schedule]
  split_ifs
  · exact sameItems_setPcb.trans
      (sameItems_qInsert (.pcbs (.ready _)) p (ne_of_isProcess hq rfl))
  · exact .refl s

lemma sameItems_dispatchLoop : ∀ (fuel level : ℕ) (s : Procs),
    dispatchLoop fuel level s = .ok (r, s') → SameItems q s s'
  | 0, _, _, h => by cases h
  | fuel + 1, level, s, h => by
      rw [dispatchLoop] at h
      split_ifs at h with hlevel hempty
      · exact sameItems_dispatchLoop fuel (level + 1) s h
      · have hremove : SameItems q s (s.qRemove (.pcbs (.ready ⟨level, hlevel⟩))).2 :=
          sameItems_qRemove _ (ne_of_isProcess hq rfl)
        cases hres : s.qRemove (.pcbs (.ready ⟨level, hlevel⟩)) with
        | mk r' s₁ =>
            rw [hres] at h hremove
            cases r' with
            | none => cases h
            | some p =>
                simp only at h
                split at h
                · obtain ⟨-, rfl⟩ := Prod.mk.inj (Except.ok.inj h)
                  exact hremove
                · exact (hremove.trans (sameItems_cleanup hq)).trans
                    (sameItems_dispatchLoop fuel level _ h)
                · cases h
      · obtain ⟨-, rfl⟩ := Prod.mk.inj (Except.ok.inj h)
        exact .refl s

lemma sameItems_dispatch (h : s.dispatch = .ok s') : SameItems q s s' := by
  rw [dispatch] at h
  cases hloop : dispatchLoop dispatchFuel 0 s with
  | error e =>
      rw [hloop] at h
      cases h
  | ok res =>
      obtain ⟨r, s₁⟩ := res
      have hsame := sameItems_dispatchLoop hq dispatchFuel 0 s hloop
      rw [hloop] at h
      cases r with
      | none => cases h
      | some p =>
          obtain rfl := Except.ok.inj h
          exact hsame

lemma sameItems_spawn {fcn : UInt32} {level : UInt8} (h : s.spawn p fcn level = .ok s') :
    SameItems q s s' := by
  rw [spawn] at h
  have halloc := sameItems_pcbAlloc (s := s) hq
  cases hpcb : s.pcbAlloc with
  | mk c s₁ =>
      rw [hpcb] at h halloc
      cases c with
      | none =>
          obtain rfl := Except.ok.inj h
          exact halloc
      | some c =>
          have hstack := sameItems_stackAlloc (s := s₁) hq
          simp only at h
          cases hk : s₁.stackAlloc with
          | mk k s₂ =>
              rw [hk] at h hstack
              cases k with
              | none =>
                  obtain rfl := Except.ok.inj h
                  exact (SameItems.trans halloc hstack).trans
                    ((sameItems_pcbDealloc hq).trans sameItems_setEax)
              | some k =>
                  have hmade : SameItems q s (s₂.makeProc c k fcn level).2 :=
                    (SameItems.trans halloc hstack).trans sameItems_makeProc
                  have hdispatch := sameItems_dispatch hq h
                  refine (hmade.trans ?_).trans hdispatch
                  exact sameItems_setEax.trans (sameItems_setPcb.trans
                    ((sameItems_schedule hq).trans (sameItems_schedule hq)))

lemma sameItems_sleep {num : UInt16} {wakeup : UInt32} (h : s.sleep p num wakeup = .ok s') :
    SameItems q s s' := by
  unfold sleep at h
  simp only at h
  split_ifs at h
  · exact sameItems_setPcb.trans
      ((sameItems_qInsert (.pcbs .sleeping) p (ne_of_isProcess hq rfl)).trans
        (sameItems_dispatch hq h))
  · exact (sameItems_schedule hq).trans (sameItems_dispatch hq h)

lemma sameItems_blockReading (h : s.blockReading p = .ok s') : SameItems q s s' := by
  unfold blockReading at h
  simp only at h
  split_ifs at h
  exact sameItems_setPcb.trans
    ((sameItems_qInsert (.pcbs .reading) p (ne_of_isProcess hq rfl)).trans
      (sameItems_dispatch hq h))

lemma sameItems_exit (h : s.exit p = .ok s') : SameItems q s s' :=
  (sameItems_cleanup hq).trans (sameItems_dispatch hq h)

lemma sameItems_kill {pid : UInt16} (h : s.kill p pid = .ok s') : SameItems q s s' := by
  unfold kill at h
  simp only at h
  split_ifs at h
  · obtain rfl := Except.ok.inj h
    exact sameItems_setEax
  · exact sameItems_setEax.trans (sameItems_exit hq h)
  · split at h <;> obtain rfl := Except.ok.inj h
    · exact sameItems_setEax
    · exact sameItems_setEax.trans (sameItems_setEax.trans sameItems_setPcb)

lemma sameItems_wakeLoop {time : UInt32} : ∀ (fuel : ℕ) (s : Procs),
    wakeLoop fuel time s = .ok s' → SameItems q s s'
  | 0, _, h => by cases h
  | fuel + 1, s, h => by
      have hremove : SameItems q s (s.qRemoveIfLe (.pcbs .sleeping) time).2 :=
        sameItems_qRemoveIfLe _ time (ne_of_isProcess hq rfl)
      rw [wakeLoop] at h
      cases hres : s.qRemoveIfLe (.pcbs .sleeping) time with
      | mk r s₁ =>
          rw [hres] at h hremove
          cases r with
          | none =>
              obtain rfl := Except.ok.inj h
              exact hremove
          | some p =>
              exact (hremove.trans (sameItems_schedule hq)).trans
                (sameItems_wakeLoop fuel _ h)

lemma sameItems_expireQuantum (h : s.expireQuantum = .ok s') : SameItems q s s' := by
  rw [expireQuantum] at h
  split at h
  · cases h
  · split_ifs at h
    · exact (sameItems_schedule hq).trans (sameItems_dispatch hq h)
    · obtain rfl := Except.ok.inj h
      rfl

lemma sameItems_initProc {noPcb noStack : Panic} {fcn : UInt32} {level : UInt8}
    (h : s.initProc noPcb noStack fcn level = .ok s') : SameItems q s s' := by
  rw [initProc] at h
  have halloc := sameItems_pcbAlloc (s := s) hq
  cases hpcb : s.pcbAlloc with
  | mk c s₁ =>
      rw [hpcb] at h halloc
      cases c with
      | none => cases h
      | some c =>
          have hstack := sameItems_stackAlloc (s := s₁) hq
          simp only at h
          cases hk : s₁.stackAlloc with
          | mk k s₂ =>
              rw [hk] at h hstack
              cases k with
              | none => cases h
              | some k =>
                  obtain rfl := Except.ok.inj h
                  exact (SameItems.trans halloc hstack).trans (sameItems_schedule hq)

end Functions

/-! ### Interrupts -/

/-- Neither the variables of `shared_mem.c` nor the pool have changed. -/
structure SameShared (s s' : KState) : Prop where
  shm : s'.shm = s.shm
  pool : s'.pool = s.pool

section Interrupts

variable {cfg : Config} {s s' s'' : KState} {dr : UInt32} {context : Context} {ps : Procs}

lemma SameShared.refl (s : KState) : SameShared s s := ⟨rfl, rfl⟩

lemma SameShared.trans (h : SameShared s s') (h' : SameShared s' s'') : SameShared s s'' :=
  ⟨h'.shm.trans h.shm, h'.pool.trans h.pool⟩

lemma sameShared_procs (h : SameItems .freeShms s.procs ps) :
    SameShared s { s with procs := ps } :=
  ⟨rfl, congrArg (List.map Prod.snd) h⟩

lemma sameShared_setEax {p : PcbId} {v : UInt32} : SameShared s (s.setEax p v) := ⟨rfl, rfl⟩

lemma sameShared_isrSave : SameShared s (s.isrSave context) :=
  ⟨isrSave_shm, congrArg (List.map Prod.snd) isrSave_items⟩

lemma sameShared_liftProcs {f : Procs → Res Procs} (h : s.liftProcs f = .ok s')
    (hf : ∀ ps, f s.procs = .ok ps → SameItems .freeShms s.procs ps) : SameShared s s' := by
  obtain ⟨ps, hres, rfl⟩ := liftProcs_ok h
  exact sameShared_procs (hf ps hres)

lemma sameItems_blockedLoop {q : QueueName} (hq : q.isProcess = false)
    (hblocked : q ≠ .blockedRequests) {found : Bool} {ps' : Procs} : ∀ (fuel : ℕ) (ps : Procs),
    blockedLoop fuel dr ps = .ok (found, ps') → SameItems q ps ps'
  | 0, _, h => by cases h
  | fuel + 1, ps, h => by
      have hremove : SameItems q ps (ps.qRemove .blockedRequests).2 :=
        sameItems_qRemove _ hblocked
      rw [blockedLoop] at h
      cases hres : ps.qRemove .blockedRequests with
      | mk r ps₁ =>
          rw [hres] at h hremove
          cases r with
          | none =>
              obtain ⟨-, rfl⟩ := Prod.mk.inj (Except.ok.inj h)
              exact hremove
          | some p =>
              simp only at h
              split_ifs at h
              · obtain ⟨-, rfl⟩ := Prod.mk.inj (Except.ok.inj h)
                exact hremove.trans (sameItems_setPcb.trans (sameItems_schedule hq))
              · exact hremove.trans ((sameItems_qInsert .blockedRequests p hblocked).trans
                  (sameItems_blockedLoop hq hblocked fuel _ h))

lemma sameShared_serveRequest (h : s.serveRequest cfg dr = .ok s') : SameShared s s' := by
  rw [KState.serveRequest] at h
  simp only at h
  split_ifs at h with hread hwrite
  · split at h
    · cases h
    · rename_i found ps hloop
      have hsame : SameItems .freeShms s.procs ps := sameItems_blockedLoop rfl (by simp) _ _ hloop
      obtain rfl := Except.ok.inj h
      refine ⟨?_, ?_⟩
      · split_ifs <;> rfl
      · refine Eq.trans ?_ (congrArg (List.map Prod.snd) hsame)
        split_ifs <;> rfl
  · obtain rfl := Except.ok.inj h
    exact ⟨rfl, rfl⟩
  · obtain rfl := Except.ok.inj h
    exact ⟨rfl, rfl⟩

lemma sameShared_serveRamdisk (h : s.serveRamdisk cfg = .ok s') : SameShared s s' := by
  have hremove : SameItems .freeShms s.procs (s.procs.qRemove .ramdiskIoPending).2 :=
    sameItems_qRemove _ (by simp)
  rw [KState.serveRamdisk] at h
  split_ifs at h
  · simp only at h
    split at h
    · obtain rfl := Except.ok.inj h
      exact sameShared_procs hremove
    · exact (sameShared_procs hremove).trans (sameShared_serveRequest h)
  · obtain rfl := Except.ok.inj h
    exact .refl s

/-- A result of two steps is a result of each. -/
lemma bind_ok {η α β : Type} {x : Except η α} {f : α → Except η β} {b : β}
    (h : (x >>= f) = .ok b) : ∃ a, x = .ok a ∧ f a = .ok b := by
  cases x with
  | error e => cases h
  | ok a => exact ⟨a, rfl, h⟩

/-- **The clock moves no segment.** -/
lemma sameShared_isrClock (h : isrClock cfg s = .ok s') : SameShared s s' := by
  obtain ⟨s₁, hwake, h⟩ := bind_ok h
  obtain ⟨s₂, hserve, h⟩ := bind_ok h
  have hwake' := sameShared_liftProcs hwake fun ps => sameItems_wakeLoop rfl _ _
  have hlast := sameShared_liftProcs h fun ps => sameItems_expireQuantum rfl
  exact SameShared.trans ⟨hwake'.shm, hwake'.pool⟩ ((sameShared_serveRamdisk hserve).trans hlast)

lemma sameShared_rxInterrupt {ch : UInt8} (h : rxInterrupt ch s = .ok s') : SameShared s s' := by
  have hremove : SameItems .freeShms s.procs (s.procs.qRemove (.pcbs .reading)).2 :=
    sameItems_qRemove _ (by simp)
  unfold rxInterrupt at h
  simp only at h
  split at h
  · cases hres : (s.procs.qRemove (.pcbs .reading)).1 with
    | none =>
        rw [hres] at h
        cases h
    | some p =>
        rw [hres] at h
        simp only at h
        split at h
        · cases h
        · obtain rfl := Except.ok.inj h
          exact sameShared_procs (hremove.trans (sameItems_setEax.trans (sameItems_schedule rfl)))
  · split at h <;> obtain rfl := Except.ok.inj h
    · exact ⟨rfl, rfl⟩
    · exact .refl s

/-- **The serial interrupt moves no segment.** -/
lemma sameShared_isrSio {polls : List (UInt8 × UInt8)} (h : isrSio polls s = .ok s') :
    SameShared s s' := by
  refine (isrSio_ok_iff.mp h).invariant (I := SameShared s) (.refl s) ?_
  intro s₁ poll s₂ hsame _ h
  refine hsame.trans ?_
  rw [sioRound] at h
  split_ifs at h
  · obtain rfl := Except.ok.inj h
    exact ⟨rfl, rfl⟩
  · exact sameShared_rxInterrupt h

end Interrupts

/-! ### The end of `_init` -/

section Init

variable {cfg : Config} {s s' : KState}

/-- What has been cleared stays cleared while more is cleared. -/
lemma foldl_clear (cfg : Config) (a : UInt32) : ∀ (l : List (Fin maxShms))
    (f : UInt32 → SharedmemSegment), (f a = .zero ∨ ∃ i ∈ l, cfg.shm i = a) →
    l.foldl (fun f i => Function.update f (cfg.shm i) SharedmemSegment.zero) f a = .zero
  | [], f, h => h.resolve_right (by simp)
  | i :: l, f, h => by
      refine foldl_clear cfg a l (Function.update f (cfg.shm i) SharedmemSegment.zero) ?_
      by_cases ha : a = cfg.shm i
      · rw [ha]
        exact Or.inl (Function.update_self ..)
      · rw [Function.update_of_ne ha]
        rcases h with h | ⟨j, hj, rfl⟩
        · exact Or.inl h
        · rcases List.mem_cons.mp hj with rfl | hj
          · exact absurd rfl ha
          · exact Or.inr ⟨j, hj, rfl⟩

lemma items_qInsert_freeShms {ps : Procs} (address : UInt32) (hfree : ps.queues.avail ≠ 0) :
    (ps.qInsert .freeShms address).2.queues.items .freeShms
      = ps.queues.items .freeShms ++ [(0, address)] := by
  have hitems := ps.queues.items_insert ps.pcbs .freeShms address
  rw [if_neg hfree] at hitems
  change (ps.queues.insert ps.pcbs .freeShms address).2.items .freeShms = _
  rw [hitems, Function.update_self]
  simp [QSys.insertItem, QueueName.hashfcn]

/-- The loop of `_shm_init` that fills the pool. -/
lemma foldl_shmDealloc (cfg : Config) : ∀ (l : List (Fin maxShms)) (r : Stat × Shm × Procs),
    l.length ≤ r.2.2.queues.avail →
    (∀ i, r.2.1.segments (cfg.shm i) = .zero) →
    let r' := l.foldl (fun r i => r.2.1.shmDealloc (cfg.shm i) r.2.2) r
    r'.2.1.freePtr = r.2.1.freePtr ∧ (∀ i, r'.2.1.segments (cfg.shm i) = .zero)
      ∧ (r'.2.2.queues.items .freeShms).map Prod.snd
        = (r.2.2.queues.items .freeShms).map Prod.snd ++ l.map cfg.shm
  | [], r, _, hzero => ⟨rfl, hzero, by simp⟩
  | i :: l, r, hlen, hzero => by
      rw [List.length_cons] at hlen
      have havail : (r.2.2.qInsert .freeShms (cfg.shm i)).2.queues.avail
          = r.2.2.queues.avail - 1 := r.2.2.queues.avail_insert ..
      have hzero' : ∀ j, ((r.2.1.shmDealloc (cfg.shm i) r.2.2).2.1).segments (cfg.shm j)
          = .zero := by
        intro j
        simp only [Shm.shmDealloc, Shm.setSegment]
        by_cases hj : cfg.shm j = cfg.shm i
        · rw [hj, Function.update_self, hzero]
          rfl
        · rw [Function.update_of_ne hj, hzero]
      obtain ⟨hptr, hsegments, hpool⟩ := foldl_shmDealloc cfg l
        (r.2.1.shmDealloc (cfg.shm i) r.2.2) (by
          change l.length ≤ (r.2.2.qInsert .freeShms (cfg.shm i)).2.queues.avail
          omega) hzero'
      refine ⟨hptr, hsegments, hpool.trans ?_⟩
      change ((r.2.2.qInsert .freeShms (cfg.shm i)).2.queues.items .freeShms).map Prod.snd
        ++ l.map cfg.shm = _
      rw [items_qInsert_freeShms _ (by omega)]
      simp

/-- What `_init` leaves of the shared memory: no current segment, the arena free, every
segment cleared and in the pool. -/
structure FreshShared (cfg : Config) (s : KState) : Prop where
  current : s.shm.currentShms = 0
  next : s.shm.nextShm = 0
  freePtr : s.shm.freePtr = cfg.memory
  segments : ∀ i, s.shm.segments (cfg.shm i) = .zero
  pool : s.pool = (List.finRange maxShms).map cfg.shm

lemma FreshShared.of_same (h : FreshShared cfg s) (hsame : SameShared s s') :
    FreshShared cfg s' := by
  obtain ⟨hcurrent, hnext, hptr, hsegments, hpool⟩ := h
  rw [← hsame.shm] at hcurrent hnext hptr hsegments
  exact ⟨hcurrent, hnext, hptr, hsegments, hsame.pool.trans hpool⟩

/-- `_shm_init` after `_mem_init`, with nodes for the segments and their pool empty. -/
lemma shmInit_fresh (h : shmInit cfg (memInit cfg s) = .ok s')
    (havail : maxShms ≤ s.procs.queues.avail) (hnil : s.procs.queues.items .freeShms = []) :
    FreshShared cfg s' := by
  rw [shmInit] at h
  simp only at h
  split_ifs at h
  obtain rfl := Except.ok.inj h
  obtain ⟨hptr, hsegments, hpool⟩ := foldl_shmDealloc cfg (List.finRange maxShms)
    (Stat.success, { (memInit cfg s).shm with
      segments := (List.finRange maxShms).foldl
        (fun segments i => Function.update segments (cfg.shm i) SharedmemSegment.zero)
        (memInit cfg s).shm.segments }, (memInit cfg s).procs)
    (by rwa [List.length_finRange])
    (fun i => foldl_clear cfg _ _ _ (Or.inr ⟨i, List.mem_finRange i, rfl⟩))
  refine ⟨rfl, rfl, hptr, hsegments, hpool.trans ?_⟩
  change (s.procs.queues.items .freeShms).map Prod.snd ++ _ = _
  rw [hnil, List.map_nil, List.nil_append]

/-- **The shared memory at the end of `_init`.** -/
theorem initial_shared (h : Initial cfg s) : FreshShared cfg s := by
  obtain ⟨loaded, h⟩ := h
  obtain ⟨s₁, h₁, h⟩ := bind_ok h
  obtain ⟨s₂, h₂, h⟩ := bind_ok h
  obtain ⟨s₃, h₃, h⟩ := bind_ok h
  obtain ⟨s₄, h₄, h⟩ := bind_ok h
  obtain ⟨s₅, h₅, h⟩ := bind_ok h
  obtain ⟨s₆, h₆, h⟩ := bind_ok h
  obtain ⟨s₇, h₇, h⟩ := bind_ok h
  obtain rfl := Except.ok.inj h
  obtain ⟨p₁, hp₁, rfl⟩ := liftProcs_ok h₁
  obtain ⟨p₂, hp₂, rfl⟩ := liftProcs_ok h₂
  obtain ⟨p₁', hpcb, ht₁⟩ := pcbInit_ok
  obtain rfl : p₁' = p₁ := Except.ok.inj (hpcb.symm.trans hp₁)
  obtain ⟨p₂', hstack, ht₂⟩ := stackInit_ok (s := p₁') (by rw [ht₁]; decide +kernel)
  obtain rfl : p₂' = p₂ := Except.ok.inj (hstack.symm.trans hp₂)
  rw [ht₁] at ht₂
  have hnodes : (p₂'.table none).shms = 0 ∧ (p₂'.table none).avail = 9 := by
    rw [ht₂]
    decide +kernel
  have hfresh : FreshShared cfg s₃ := by
    refine shmInit_fresh h₃ ?_ (List.length_eq_zero_iff.mp hnodes.1)
    change maxShms ≤ (p₂'.table none).avail
    rw [hnodes.2]
    decide
  have h₄' := sameShared_liftProcs h₄ fun ps => sameItems_initProc rfl
  have h₅' := sameShared_liftProcs h₅ fun ps => sameItems_initProc rfl
  have h₆' := sameShared_liftProcs h₆ fun ps => sameItems_initProc rfl
  have h₇' := sameShared_liftProcs h₇ fun ps => sameItems_dispatch rfl
  have hlast := hfresh.of_same (((h₄'.trans h₅').trans h₆').trans h₇')
  exact ⟨hlast.current, hlast.next, hlast.freePtr, hlast.segments, hlast.pool⟩

end Init

end Sp2
