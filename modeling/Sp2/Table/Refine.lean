import Sp2.Kernel.Processes
import Sp2.Table.Places

/-!
The process modules move the process table.

* `Procs.table s cur`: the table of a state, `cur` being the process that holds the
  processor. Between the moment a kernel function gives the processor up and the end of
  `_dispatch` that is no process, whatever `_current` still points to.
* `table_setPcb`, `table_qInsert`, `table_qRemove`, ...: the elementary functions are the
  elementary changes of the table.
* `schedule_requeue`, `cleanup_reap`, `dispatch_spec`: the functions of `scheduler.c` and
  `system.c` are moves.
-/

namespace Sp2

open ProcTable

/-- What the process table records of a PCB. -/
def Pcb.proc (p : Pcb) : Proc :=
  ⟨p.status, p.level, p.stack, p.wakeup, p.pid, p.context.isSome⟩

/-- The queues of processes and stacks. -/
def QueueName.isProcess : QueueName → Bool
  | pcbs _ => true
  | freeStacks => true
  | _ => false

/-- An insertion of a process or a stack that found no node. -/
def isFailure (e : QueueName × Stat) : Bool := e.1.isProcess && decide (e.2 ≠ .success)

namespace Procs

/-- The process table of a state. -/
def table (s : Procs) (cur : Option PcbId) : ProcTable where
  queue q := s.queues.items (.pcbs q)
  freeStacks := s.queues.items .freeStacks
  proc p := (s.pcbs p).proc
  cur := cur
  avail := s.queues.avail
  shms := (s.queues.items .freeShms).length
  requests := ⟨s.queues.items .blockedRequests, s.queues.items .ramdiskIoPending,
    s.queues.items .ataIoPending⟩
  failed := s.inserts.countP isFailure
  nextPid := s.nextPid

variable {s : Procs} {p x : PcbId} {k : StackId} {q : PcbQueue} {cur cur' : Option PcbId}

@[simp] lemma table_proc : (s.table cur).proc p = (s.pcbs p).proc := rfl

@[simp] lemma table_cur : (s.table cur).cur = cur := rfl

@[simp] lemma table_avail : (s.table cur).avail = s.queues.avail := rfl

@[simp] lemma table_nextPid : (s.table cur).nextPid = s.nextPid := rfl

@[simp] lemma table_setCur : (s.table cur).setCur cur' = s.table cur' := rfl

/-! ### Elementary functions -/

section Update

variable {f : (q : QueueName) → List (UInt32 × q.Elem)} {l : List (UInt32 × PcbId)}

lemma update_pcbs : (fun q' => Function.update f (.pcbs q) l (.pcbs q'))
    = Function.update (fun q' => f (.pcbs q')) q l := by
  funext q'
  by_cases h : q' = q
  · subst h
    rw [Function.update_self, Function.update_self]
  · rw [Function.update_of_ne h, Function.update_of_ne (by simpa using h)]

end Update

lemma table_setPcb {f : Pcb → Pcb} :
    (s.setPcb p f).table cur = (s.table cur).setProc p (f (s.pcbs p)).proc := by
  ext1
  case proc =>
    funext x
    by_cases h : x = p
    · subst h
      simp [table, setPcb, setProc]
    · simp [table, setPcb, setProc, h]
  all_goals rfl

/-- Stores into the other fields of a PCB do not show in the table. -/
lemma table_setPcb_eq {f : Pcb → Pcb} (h : (f (s.pcbs p)).proc = (s.pcbs p).proc) :
    (s.setPcb p f).table cur = s.table cur := by
  rw [table_setPcb, h]
  ext1
  case proc => exact Function.update_eq_self p (s.table cur).proc
  all_goals rfl

@[simp] lemma table_setEax {v : UInt32} (cur : Option PcbId) :
    (s.setEax p v).table cur = s.table cur :=
  table_setPcb_eq (by simp [Pcb.proc])

lemma insertItem_eq (cur : Option PcbId) : QSys.insertItem s.pcbs (.pcbs q) p
    = q.insertItem ((s.table cur).proc p).wakeup p := by
  funext l
  cases q <;> rfl

lemma qInsert_fst {q : QueueName} {x : q.Elem} :
    (s.qInsert q x).1 = if s.queues.avail = 0 then .allocFail else .success :=
  s.queues.insert_fst s.pcbs q x

lemma table_qInsert : (s.qInsert (.pcbs q) p).2.table cur = (s.table cur).push q p := by
  have hitems := s.queues.items_insert s.pcbs (.pcbs q) p
  have havail := s.queues.avail_insert s.pcbs (.pcbs q) p
  have hfst := s.queues.insert_fst s.pcbs (.pcbs q) p
  rw [insertItem_eq cur] at hitems
  by_cases h : s.queues.avail = 0
  · rw [if_pos h] at hitems hfst
    rw [push, table_avail, if_pos h]
    simp only [table, qInsert, hitems, havail, hfst, h]
    simp [isFailure, QueueName.isProcess]
  · rw [if_neg h] at hitems hfst
    rw [push, table_avail, if_neg h]
    simp only [table, qInsert, hitems, havail, hfst]
    rw [update_pcbs]
    simp [isFailure]

lemma qRemove_fst (cur : Option PcbId) :
    (s.qRemove (.pcbs q)).1 = ((s.table cur).ids q).head? := by
  rw [ids, List.head?_map]
  exact s.queues.remove_fst (.pcbs q)

lemma table_qRemove : (s.qRemove (.pcbs q)).2.table cur = (s.table cur).pop q := by
  have hitems := s.queues.items_remove (.pcbs q)
  have havail := s.queues.avail_remove (.pcbs q)
  simp only [table, qRemove, hitems, havail, pop]
  rw [update_pcbs]
  simp
  congr

lemma stackAlloc_fst (cur : Option PcbId) : s.stackAlloc.1 = (s.table cur).stackIds.head? := by
  rw [stackIds, List.head?_map]
  exact s.queues.remove_fst .freeStacks

lemma table_stackAlloc : s.stackAlloc.2.table cur = (s.table cur).popStack := by
  have hitems := s.queues.items_remove .freeStacks
  have havail := s.queues.avail_remove .freeStacks
  simp only [table, stackAlloc, qRemove, hitems, havail, popStack]
  simp
  congr

lemma table_stackDealloc : (s.stackDealloc k).2.table cur = (s.table cur).pushStack k := by
  have hitems := s.queues.items_insert s.pcbs .freeStacks k
  have havail := s.queues.avail_insert s.pcbs .freeStacks k
  have hfst := s.queues.insert_fst s.pcbs .freeStacks k
  by_cases h : s.queues.avail = 0
  · rw [if_pos h] at hitems hfst
    rw [pushStack, table_avail, if_pos h]
    simp only [table, stackDealloc, qInsert, hitems, havail, hfst, h]
    simp [isFailure, QueueName.isProcess]
  · rw [if_neg h] at hitems hfst
    rw [pushStack, table_avail, if_neg h]
    simp only [table, stackDealloc, qInsert, hitems, havail, hfst]
    simp [isFailure, QSys.insertItem, QueueName.hashfcn]

lemma table_pcbDealloc :
    (s.pcbDealloc p).2.table cur = ((s.table cur).setStatus p .free).push .freePcbs p := by
  rw [pcbDealloc, table_qInsert, table_setPcb]
  rfl

/-! ### Scheduling and cleaning up -/

/-- A level that `_schedule` accepts. -/
lemma table_schedule (h : (s.pcbs p).level.toNat < mlqLevels) :
    (s.schedule p).2.table cur
      = ((s.table cur).setStatus p .ready).push (.ready ⟨(s.pcbs p).level.toNat, h⟩) p := by
  rw [schedule, dif_pos h, table_qInsert, table_setPcb]
  rfl

/-- `_schedule` refuses any other level and stores nothing. -/
lemma schedule_badLevel (h : mlqLevels ≤ (s.pcbs p).level.toNat) :
    s.schedule p = (.badLevel, s) := by
  rw [schedule, dif_neg (by omega)]

lemma table_cleanup (h : (s.pcbs p).stack = some k) :
    (s.cleanup (some p)).table cur
      = (((s.table cur).setStatus p .free).pushStack k).push .freePcbs p := by
  have hcomm : ((s.table cur).pushStack k).setStatus p .free
      = ((s.table cur).setStatus p .free).pushStack k := by
    by_cases ha : s.queues.avail = 0 <;> simp [setStatus, setProc, pushStack, ha]
  simp only [cleanup, h]
  rw [table_pcbDealloc, table_stackDealloc, hcomm]

/-! ### What stays -/

/-- What scheduling, cleaning up and dispatching leave alone: the save areas and levels of
processes, their PIDs and those of their parents. -/
structure Keeps (s s' : Procs) : Prop where
  context : ∀ x, (s'.pcbs x).context = (s.pcbs x).context
  level : ∀ x, (s'.pcbs x).level = (s.pcbs x).level
  pid : ∀ x, (s'.pcbs x).pid = (s.pcbs x).pid
  ppid : ∀ x, (s'.pcbs x).ppid = (s.pcbs x).ppid
  nextPid : s'.nextPid = s.nextPid

lemma Keeps.refl (s : Procs) : Keeps s s :=
  ⟨fun _ => rfl, fun _ => rfl, fun _ => rfl, fun _ => rfl, rfl⟩

lemma Keeps.trans {s s' s'' : Procs} (h : Keeps s s') (h' : Keeps s' s'') : Keeps s s'' :=
  ⟨fun x => (h'.context x).trans (h.context x), fun x => (h'.level x).trans (h.level x),
    fun x => (h'.pid x).trans (h.pid x), fun x => (h'.ppid x).trans (h.ppid x),
    h'.nextPid.trans h.nextPid⟩

lemma keeps_setPcb {f : Pcb → Pcb} (hc : (f (s.pcbs p)).context = (s.pcbs p).context)
    (hl : (f (s.pcbs p)).level = (s.pcbs p).level) (hp : (f (s.pcbs p)).pid = (s.pcbs p).pid)
    (hpp : (f (s.pcbs p)).ppid = (s.pcbs p).ppid) : Keeps s (s.setPcb p f) := by
  have hfield : ∀ {β : Type} (g : Pcb → β), g (f (s.pcbs p)) = g (s.pcbs p) →
      ∀ x, g ((s.setPcb p f).pcbs x) = g (s.pcbs x) := by
    intro β g hg x
    by_cases hx : x = p
    · subst hx
      simpa [setPcb] using hg
    · simp [setPcb, hx]
  exact ⟨hfield _ hc, hfield _ hl, hfield _ hp, hfield _ hpp, rfl⟩

lemma keeps_qInsert {q : QueueName} {x : q.Elem} : Keeps s (s.qInsert q x).2 :=
  ⟨fun _ => rfl, fun _ => rfl, fun _ => rfl, fun _ => rfl, rfl⟩

lemma keeps_qRemove {q : QueueName} : Keeps s (s.qRemove q).2 :=
  ⟨fun _ => rfl, fun _ => rfl, fun _ => rfl, fun _ => rfl, rfl⟩

lemma keeps_schedule : Keeps s (s.schedule p).2 := by
  rw [schedule]
  split_ifs
  · exact (keeps_setPcb rfl rfl rfl rfl).trans keeps_qInsert
  · exact Keeps.refl s

lemma keeps_cleanup : Keeps s (s.cleanup (some p)) := by
  have hdealloc : ∀ s : Procs, Keeps s (s.pcbDealloc p).2 := fun s =>
    (keeps_setPcb rfl rfl rfl rfl).trans keeps_qInsert
  rw [cleanup]
  cases (s.pcbs p).stack with
  | none => exact hdealloc s
  | some k => exact (keeps_qInsert (q := .freeStacks)).trans (hdealloc _)

/-! ### Dispatching -/

/-- The moves of `_dispatch`: zombies are taken apart, and one process is given the
processor. -/
def OfDispatch : Label → Prop
  | .reap (.queue _) _ => True
  | .dispatch _ => True
  | _ => False

/-- The moves of the loop of `_dispatch`. -/
def OfReap : Label → Prop
  | .reap (.queue _) _ => True
  | _ => False

lemma OfReap.ofDispatch (l : Label) (h : OfReap l) : OfDispatch l := by
  unfold OfReap at h
  split at h
  · trivial
  · exact h.elim

lemma isEmpty_iff (cur : Option PcbId) :
    s.queues.isEmpty (.pcbs q) = true ↔ (s.table cur).queue q = [] := by
  rw [QSys.isEmpty_eq, List.isEmpty_iff]
  rfl

/-- A queue that is not empty has a first process. -/
lemma exists_head (h : (s.table cur).queue q ≠ []) : ∃ p, (s.table cur).At p (.queue q) := by
  obtain ⟨e, r, hl⟩ := List.exists_cons_of_ne_nil h
  exact ⟨e.2, by simp [At, ids, hl]⟩

/-- A process of the first entry of a ready queue is ready or a zombie with a stack. -/
lemma ready_cases {t : ProcTable} (h : Core t)
    {level : Fin mlqLevels} (hp : t.At p (.queue (.ready level))) :
    (t.proc p).status = .ready ∨
      (t.proc p).status = .zombie ∧ ∃ k, (t.proc p).stack = some k := by
  obtain ⟨key, hs, -⟩ := h.allows_of_mem (At.mem hp)
  refine hs.imp_right fun hz => ⟨hz, ?_⟩
  obtain ⟨k, hk, -⟩ := h.stack_owned p (by rw [hz]; decide)
  exact ⟨k, hk⟩

/-- **The loop of `_dispatch`** takes zombies apart until it finds a process that is ready,
or until the ready queues are empty. -/
lemma dispatchLoop_spec : ∀ (fuel level : ℕ) (s : Procs), Core (s.table none) →
    readyLength (s.table none) + (mlqLevels - level) < fuel →
    (∀ l : Fin mlqLevels, l < level → (s.table none).queue (.ready l) = []) →
    ∃ s₁, Moves OfReap (s.table none) (s₁.table none) ∧ Keeps s s₁ ∧
      ((dispatchLoop fuel level s = .ok (none, s₁) ∧
          ∀ l, (s₁.table none).queue (.ready l) = []) ∨
        ∃ p l, dispatchLoop fuel level s = .ok (some p, (s₁.qRemove (.pcbs (.ready l))).2) ∧
          (s₁.table none).At p (.queue (.ready l)) ∧ (s₁.pcbs p).status = .ready)
  | 0, _, _, _, hfuel, _ => absurd hfuel (Nat.not_lt_zero _)
  | fuel + 1, level, s, hc, hfuel, hlow => by
      by_cases hlevel : level < mlqLevels
      · by_cases hempty : (s.table none).queue (.ready ⟨level, hlevel⟩) = []
        · -- nothing at this level
          rw [dispatchLoop_empty hlevel ((isEmpty_iff none).mpr hempty)]
          refine dispatchLoop_spec fuel (level + 1) s hc (by omega) fun l hl => ?_
          rcases Nat.lt_succ_iff_lt_or_eq.mp hl with hl | hl
          · exact hlow l hl
          · obtain rfl : l = ⟨level, hlevel⟩ := Fin.ext hl
            exact hempty
        · obtain ⟨p, hp⟩ := exists_head hempty
          have hfst : (s.qRemove (.pcbs (.ready ⟨level, hlevel⟩))).1 = some p :=
            (qRemove_fst none).trans hp
          have hfull : ¬ s.queues.isEmpty (.pcbs (.ready ⟨level, hlevel⟩)) = true :=
            (isEmpty_iff none).not.mpr hempty
          rcases ready_cases hc hp with hs | ⟨hs, k, hk⟩
          · -- ready: the loop ends
            exact ⟨s, Moves.refl _, Keeps.refl s, Or.inr ⟨p, ⟨level, hlevel⟩,
              dispatchLoop_ready hlevel hfull hfst hs, hp, hs⟩⟩
          · -- a zombie: one round more
            have heq : dispatchLoop (fuel + 1) level s = _ :=
              dispatchLoop_zombie hlevel hfull hfst hs
            set s' := (s.qRemove (.pcbs (.ready ⟨level, hlevel⟩))).2.cleanup (some p) with hs₀
            have htable : s'.table none
                = ((((s.table none).take (.queue (.ready ⟨level, hlevel⟩))).setStatus p
                  .free).pushStack k).push .freePcbs p := by
              have hk' : ((s.qRemove (.pcbs (.ready ⟨level, hlevel⟩))).2.pcbs p).stack
                  = some k := hk
              rw [hs₀, table_cleanup hk', table_qRemove]
              rfl
            have hmove : Move (.reap (.queue (.ready ⟨level, hlevel⟩)) p) (s.table none)
                (s'.table none) := by
              rw [htable]
              exact Move.reap _ hp (Or.inr ⟨_, rfl, hs⟩) hk
            have hlen := readyLength_reap (k := k) hp
            rw [← htable] at hlen
            obtain ⟨s₁, hms, hkeeps, hres⟩ := dispatchLoop_spec fuel level s'
              (hmove.core hc) (by omega) fun l hl => by
                have hne : PcbQueue.ready l ≠ .ready ⟨level, hlevel⟩ := fun h => by
                  rw [PcbQueue.ready.injEq] at h
                  rw [h] at hl
                  exact lt_irrefl _ hl
                refine List.eq_nil_iff_forall_not_mem.mpr fun e he => ?_
                rw [htable] at he
                rcases mem_push he with he | ⟨hq, -⟩
                · rw [pushStack_queue, setStatus_queue] at he
                  have := mem_pop he
                  rw [hlow l hl] at this
                  exact List.not_mem_nil this
                · exact absurd hq (by simp)
            refine ⟨s₁, Moves.head hmove trivial hms,
              (keeps_qRemove.trans keeps_cleanup).trans hkeeps, ?_⟩
            rw [heq]
            exact hres
      · have heq : dispatchLoop (fuel + 1) level s = .ok (none, s) := by
          rw [dispatchLoop, dif_neg hlevel]
        exact ⟨s, Moves.refl _, Keeps.refl s, Or.inl ⟨heq, fun l => hlow l (by omega)⟩⟩

/-- The last part of `_dispatch`, for a process that the loop has taken from a queue. -/
lemma dispatch_of_loop {s₁ : Procs} {l : Fin mlqLevels} (hkeeps : Keeps s s₁)
    (heq : dispatchLoop dispatchFuel 0 s = .ok (some p, (s₁.qRemove (.pcbs (.ready l))).2)) :
    ∃ s', s.dispatch = .ok s' ∧ s'.current = some p ∧ Keeps s s' ∧ s'.table (some p)
      = (((s₁.table none).take (.queue (.ready l))).setStatus p .running).setCur (some p) := by
  set s₂ := (s₁.qRemove (.pcbs (.ready l))).2.setPcb p
    ({ · with status := .running, quantum := quantumDefault }) with hs₂
  have heq' : s.dispatch = .ok { s₂ with current := some p } := by rw [dispatch, heq]
  have hkeeps₂ : Keeps s s₂ := (hkeeps.trans keeps_qRemove).trans (keeps_setPcb rfl rfl rfl rfl)
  refine ⟨_, heq', rfl, ⟨hkeeps₂.context, hkeeps₂.level, hkeeps₂.pid, hkeeps₂.ppid,
    hkeeps₂.nextPid⟩, ?_⟩
  have htable : ((s₁.table none).take (.queue (.ready l))).setStatus p .running
      = s₂.table none := by
    rw [hs₂, table_setPcb, table_qRemove]
    rfl
  rw [htable]
  rfl

/-- **`_dispatch`**: from a table in which no process holds the processor, either zombies
are taken apart and a process is given the processor, or the ready queues run empty and
the kernel panics. -/
theorem dispatch_spec (hc : Core (s.table none)) :
    (∃ s' p, s.dispatch = .ok s' ∧ s'.current = some p ∧ Keeps s s' ∧
      Moves OfDispatch (s.table none) (s'.table (some p))) ∨
    ∃ s', s.dispatch = .error (.panic .nullPcbInDispatch, s') ∧
      Moves OfReap (s.table none) (s'.table none) ∧
      ∀ l, (s'.table none).queue (.ready l) = [] := by
  obtain ⟨s₁, hms, hkeeps, hres⟩ := dispatchLoop_spec dispatchFuel 0 s hc
    (by have := hc.readyLength_le; rw [dispatchFuel]; omega) fun l hl => absurd hl (by omega)
  rcases hres with ⟨heq, hempty⟩ | ⟨p, l, heq, hp, hs⟩
  · exact Or.inr ⟨s₁, by rw [dispatch, heq], hms, hempty⟩
  · obtain ⟨s', heq', hcur, hkeeps', htable⟩ := dispatch_of_loop hkeeps heq
    refine Or.inl ⟨s', p, heq', hcur, hkeeps', (hms.mono OfReap.ofDispatch).trans ?_⟩
    rw [htable]
    exact Moves.single (Move.dispatch (t := s₁.table none) l rfl hp hs) trivial

/-- The loop of `_dispatch` passes empty levels and takes the first process of the next
one if it is ready. -/
lemma dispatchLoop_first {level : Fin mlqLevels}
    (hp : (s.table none).At p (.queue (.ready level))) (hs : (s.pcbs p).status = .ready)
    (hlow : ∀ l < level, (s.table none).queue (.ready l) = []) :
    ∀ fuel l : ℕ, l ≤ level → level - l < fuel →
      dispatchLoop fuel l s = .ok (some p, (s.qRemove (.pcbs (.ready level))).2)
  | 0, _, _, hfuel => absurd hfuel (Nat.not_lt_zero _)
  | fuel + 1, l, hl, hfuel => by
      have hlt : l < mlqLevels := lt_of_le_of_lt hl level.2
      rcases Nat.lt_or_eq_of_le hl with hl' | hl'
      · have hempty := hlow ⟨l, hlt⟩ hl'
        rw [dispatchLoop, dif_pos hlt, if_pos ((isEmpty_iff none).mpr hempty)]
        exact dispatchLoop_first hp hs hlow fuel (l + 1) hl' (by omega)
      · obtain rfl : level = ⟨l, hlt⟩ := Fin.ext hl'.symm
        have hne : ¬ s.queues.isEmpty (.pcbs (.ready ⟨l, hlt⟩)) = true := by
          rw [isEmpty_iff none]
          intro hnil
          simp [At, ids, hnil] at hp
        have hfst : (s.qRemove (.pcbs (.ready ⟨l, hlt⟩))).1 = some p := (qRemove_fst none).trans hp
        have hs' : ((s.qRemove (.pcbs (.ready ⟨l, hlt⟩))).2.pcbs p).status = .ready := hs
        rw [dispatchLoop, dif_pos hlt, if_neg hne,
          ← Prod.mk.eta (p := s.qRemove (.pcbs (.ready ⟨l, hlt⟩))), hfst]
        simp only [hs']

/-- **Which process `_dispatch` takes** when the first one in line is ready. -/
theorem dispatch_first (level : Fin mlqLevels)
    (hp : (s.table none).At p (.queue (.ready level))) (hs : (s.pcbs p).status = .ready)
    (hlow : ∀ l < level, (s.table none).queue (.ready l) = []) :
    ∃ s', s.dispatch = .ok s' ∧ s'.current = some p ∧ Keeps s s' ∧ s'.table (some p)
      = (((s.table none).take (.queue (.ready level))).setStatus p .running).setCur (some p) :=
  dispatch_of_loop (Keeps.refl s)
    (dispatchLoop_first hp hs hlow dispatchFuel 0 (by omega) (by rw [dispatchFuel]; omega))

end Procs

end Sp2
