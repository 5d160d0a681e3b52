import Sp2.Table.Moves

/-!
What the moves of the table mean for one process.

* `Label.subject`, `Label.From`: the process a move takes from its place, and the place.
  `Move.frame` says that a move of another process changes nothing for a process, and
  `Move.source` that a move of the process itself starts where it is.
* `InReady`: the process is ready in a ready queue. `Move.inReady` and `Move.alive` say
  how long it stays there.
* `Move.sleeping`, `Move.not_zombie`: what a sleeper keeps.
* `Dead`: the process is killed and its death cannot be undone (`Move.dead`).
-/

namespace Sp2

namespace ProcTable

/-- The process a move takes from its place. -/
def Label.subject : Label → Option PcbId
  | requeue _ p => some p
  | park p _ => some p
  | block p => some p
  | bounce p => some p
  | dispatch p => some p
  | reap _ p => some p
  | create p => some p
  | leak p => some p
  | kill _ => none
  | other => none

/-- The place a move takes its process from. -/
def Label.From (l : Label) (src : Source) : Prop :=
  match l with
  | requeue src' _ => src = src'
  | park _ _ => src = .cur
  | block _ => src = .cur
  | bounce _ => src = .queue .freePcbs
  | dispatch _ => ∃ level, src = .queue (.ready level)
  | reap src' _ => src = src'
  | create _ => src = .queue .freePcbs
  | leak _ => src = .queue .freePcbs
  | kill _ => False
  | other => False

variable {t t' : ProcTable} {l : Label} {p x : PcbId} {q q' : PcbQueue} {src src' : Source}
  {key : UInt32}

/-! ### Moves of other processes -/

lemma mem_pop_of_ne (h : (t.ids q).head? = some p) (hx : x ≠ p) :
    (key, x) ∈ (t.pop q).queue q' ↔ (key, x) ∈ t.queue q' := by
  refine ⟨mem_pop, fun hmem => ?_⟩
  simp only [pop]
  by_cases hq : q' = q
  · subst hq
    rw [Function.update_self]
    rw [ids] at h
    cases hl : t.queue q' with
    | nil => simp [hl] at h
    | cons e r =>
        rw [hl] at h hmem
        rcases List.mem_cons.mp hmem with rfl | hmem
        · exact absurd (by simpa using h) hx
        · exact hmem
  · rwa [Function.update_of_ne hq]

lemma mem_take_of_ne (h : t.At p src) (hx : x ≠ p) :
    (key, x) ∈ (t.take src).queue q' ↔ (key, x) ∈ t.queue q' := by
  cases src with
  | cur => exact Iff.rfl
  | queue q => exact mem_pop_of_ne h hx

lemma mem_push_iff : (key, x) ∈ (t.push q p).queue q' ↔ (key, x) ∈ t.queue q'
    ∨ (t.avail ≠ 0 ∧ q' = q ∧ x = p ∧ key = q.key (t.proc p).wakeup) := by
  by_cases ha : t.avail = 0
  · simp [push, ha]
  · simp only [push, ha, if_false]
    by_cases hq : q' = q
    · subst hq
      rw [Function.update_self, PcbQueue.mem_insertItem, Prod.mk.injEq]
      simp [ha, and_comm]
    · rw [Function.update_of_ne hq]
      simp [hq]

lemma mem_push_of_ne (hx : x ≠ p) :
    (key, x) ∈ (t.push q p).queue q' ↔ (key, x) ∈ t.queue q' := by
  simp [mem_push_iff, hx]

lemma cur_take_of_ne (src : Source) (h : t.At p src) (hx : x ≠ p) :
    (t.take src).cur = some x ↔ t.cur = some x := by
  cases src with
  | cur =>
      have hcur : t.cur = some p := h
      simp [take, hcur, Ne.symm hx]
  | queue q => exact Iff.rfl

/-- What a move changes for a process: nothing of this kind. -/
structure Unmoved (x : PcbId) (t t' : ProcTable) : Prop where
  mem : ∀ q key, (key, x) ∈ t'.queue q ↔ (key, x) ∈ t.queue q
  cur : t'.cur = some x ↔ t.cur = some x

/-- **A move of another process** leaves a process where it is. -/
theorem Move.frame (hm : Move l t t') (hx : l.subject ≠ some x) : Unmoved x t t' := by
  cases hm with
  | @requeue _ src p level is_next is_process is_level =>
      have hne : x ≠ p := fun h => hx (congrArg some h.symm)
      exact ⟨fun q key => (mem_push_of_ne hne).trans (mem_take_of_ne is_next hne), by
        rw [push_cur, setStatus_cur, cur_take_of_ne _ is_next hne]⟩
  | @park _ p wakeup is_cur has_node =>
      have hne : x ≠ p := fun h => hx (congrArg some h.symm)
      exact ⟨fun q key => mem_push_of_ne hne, by
        rw [push_cur, setProc_cur, cur_take_of_ne .cur is_cur hne]⟩
  | @block _ p is_cur has_node =>
      have hne : x ≠ p := fun h => hx (congrArg some h.symm)
      exact ⟨fun q key => mem_push_of_ne hne, by
        rw [push_cur, setStatus_cur, cur_take_of_ne .cur is_cur hne]⟩
  | @bounce _ p is_next =>
      have hne : x ≠ p := fun h => hx (congrArg some h.symm)
      exact ⟨fun q key => (mem_push_of_ne hne).trans (mem_take_of_ne is_next hne), by
        rw [push_cur, setStatus_cur, cur_take_of_ne _ is_next hne]⟩
  | @dispatch _ p level is_idle is_next is_ready =>
      have hne : x ≠ p := fun h => hx (congrArg some h.symm)
      exact ⟨fun q key => mem_take_of_ne is_next hne, by
        simp [is_idle, Ne.symm hne]⟩
  | @reap _ src p k is_next is_dead is_stack =>
      have hne : x ≠ p := fun h => hx (congrArg some h.symm)
      refine ⟨fun q key => (mem_push_of_ne hne).trans ?_, ?_⟩
      · rw [pushStack_queue, setStatus_queue]
        exact mem_take_of_ne is_next hne
      · rw [push_cur, pushStack_cur, setStatus_cur, cur_take_of_ne _ is_next hne]
  | @create _ p k level l is_next is_stack is_level =>
      have hne : x ≠ p := fun h => hx (congrArg some h.symm)
      exact ⟨fun q key => (mem_push_of_ne hne).trans (mem_pop_of_ne is_next hne), by
        rw [push_cur]
        exact Iff.rfl⟩
  | @leak _ p k level is_next is_stack is_level =>
      have hne : x ≠ p := fun h => hx (congrArg some h.symm)
      exact ⟨fun q key => mem_pop_of_ne is_next hne, Iff.rfl⟩
  | @kill _ p is_used not_cur not_idle => exact ⟨fun _ _ => Iff.rfl, Iff.rfl⟩
  | @other _ avail shms is_moved => exact ⟨fun _ _ => Iff.rfl, Iff.rfl⟩

/-- A move of another process, unless it kills the process, leaves it as it is. -/
lemma Move.proc_eq (hm : Move l t t') (hx : l.subject ≠ some x) (hk : l ≠ .kill x) :
    t'.proc x = t.proc x := by
  cases hm with
  | @kill _ p is_used not_cur not_idle =>
      have hne : x ≠ p := fun h => hk (congrArg _ h.symm)
      simp [hne]
  | @other _ avail shms is_moved => rfl
  | @requeue _ src p level is_next is_process is_level =>
      have hne : x ≠ p := fun h => hx (congrArg some h.symm)
      simp [hne]
  | @reap _ src p k is_next is_dead is_stack =>
      have hne : x ≠ p := fun h => hx (congrArg some h.symm)
      simp [hne]
  | @park _ p wakeup is_cur has_node =>
      have hne : x ≠ p := fun h => hx (congrArg some h.symm)
      simp [hne]
  | @block _ p is_cur has_node =>
      have hne : x ≠ p := fun h => hx (congrArg some h.symm)
      simp [hne]
  | @bounce _ p is_next =>
      have hne : x ≠ p := fun h => hx (congrArg some h.symm)
      simp [hne]
  | @dispatch _ p level is_idle is_next is_ready =>
      have hne : x ≠ p := fun h => hx (congrArg some h.symm)
      simp [hne]
  | @create _ p k level l is_next is_stack is_level =>
      have hne : x ≠ p := fun h => hx (congrArg some h.symm)
      simp [make, hne]
  | @leak _ p k level is_next is_stack is_level =>
      have hne : x ≠ p := fun h => hx (congrArg some h.symm)
      simp [make, hne]

/-! ### Moves of the process itself -/

/-- A move of a process starts where it is next to be taken from. -/
lemma Move.source (hm : Move l t t') (hx : l.subject = some x) :
    ∃ src, l.From src ∧ t.At x src := by
  cases hm with
  | @requeue _ src p level is_next is_process is_level =>
      obtain rfl : p = x := Option.some.inj hx
      exact ⟨src, rfl, is_next⟩
  | @park _ p wakeup is_cur has_node =>
      obtain rfl : p = x := Option.some.inj hx
      exact ⟨.cur, rfl, is_cur⟩
  | @block _ p is_cur has_node =>
      obtain rfl : p = x := Option.some.inj hx
      exact ⟨.cur, rfl, is_cur⟩
  | @bounce _ p is_next =>
      obtain rfl : p = x := Option.some.inj hx
      exact ⟨_, rfl, is_next⟩
  | @dispatch _ p level is_idle is_next is_ready =>
      obtain rfl : p = x := Option.some.inj hx
      exact ⟨_, ⟨level, rfl⟩, is_next⟩
  | @reap _ src p k is_next is_dead is_stack =>
      obtain rfl : p = x := Option.some.inj hx
      exact ⟨src, rfl, is_next⟩
  | @create _ p k level l is_next is_stack is_level =>
      obtain rfl : p = x := Option.some.inj hx
      exact ⟨_, rfl, is_next⟩
  | @leak _ p k level is_next is_stack is_level =>
      obtain rfl : p = x := Option.some.inj hx
      exact ⟨_, rfl, is_next⟩
  | kill => exact absurd hx (by simp [Label.subject])
  | other => exact absurd hx (by simp [Label.subject])

/-- A process in a queue can be taken from there only. -/
lemma Core.source_queue (h : Core t) (hx : x ∈ t.ids q) (hsrc : t.At x src) :
    src = .queue q := by
  cases src with
  | cur => exact absurd hx (notMem_of_cur (h.occ_le x) hsrc)
  | queue q' => rw [queue_unique (h.occ_le x) hx (At.mem hsrc)]

/-- The running process can be taken from the processor only. -/
lemma Core.source_cur (h : Core t) (hx : t.cur = some x) (hsrc : t.At x src) : src = .cur := by
  cases src with
  | cur => rfl
  | queue q => exact absurd (At.mem hsrc) (notMem_of_cur (h.occ_le x) hx)

lemma mem_ids_iff : x ∈ t.ids q ↔ ∃ key, (key, x) ∈ t.queue q := by
  refine ⟨exists_entry, fun ⟨key, h⟩ => mem_ids h⟩

lemma Unmoved.mem_ids (h : Unmoved x t t') : x ∈ t'.ids q ↔ x ∈ t.ids q := by
  simp only [mem_ids_iff, h.mem]

/-! ### Ready processes -/

/-- The process is ready and in a ready queue. -/
def InReady (t : ProcTable) (x : PcbId) : Prop :=
  (t.proc x).status = .ready ∧ ∃ level, x ∈ t.ids (.ready level)

/-- A ready process stays in its queue until it is dispatched or killed. -/
lemma Move.inReady (hm : Move l t t') (hc : Core t) (hx : InReady t x) (hd : l ≠ .dispatch x)
    (hk : l ≠ .kill x) : InReady t' x := by
  obtain ⟨hstatus, level, hmem⟩ := hx
  by_cases hsub : l.subject = some x
  · exfalso
    obtain ⟨src, hfrom, hat⟩ := hm.source hsub
    obtain rfl := hc.source_queue hmem hat
    cases hm with
    | @requeue _ src p level' is_next is_process is_level =>
        obtain rfl : .queue (.ready level) = src := hfrom
        simp at is_process
    | @dispatch _ p level' is_idle is_next is_ready =>
        exact hd (congrArg _ (Option.some.inj hsub))
    | @reap _ src p k is_next is_dead is_stack =>
        obtain rfl : .queue (.ready level) = src := hfrom
        obtain rfl : p = x := Option.some.inj hsub
        rcases is_dead with h | ⟨-, -, h⟩
        · exact absurd h (by simp)
        · rw [hstatus] at h
          exact absurd h (by decide)
    | park => exact absurd hfrom (by simp [Label.From])
    | block => exact absurd hfrom (by simp [Label.From])
    | bounce => exact absurd hfrom (by simp [Label.From])
    | create => exact absurd hfrom (by simp [Label.From])
    | leak => exact absurd hfrom (by simp [Label.From])
    | kill => exact hfrom
    | other => exact hfrom
  · exact ⟨by rw [hm.proc_eq hsub hk, hstatus], level, (hm.frame hsub).mem_ids.mpr hmem⟩

/-- A process that is put into a ready queue is ready there. -/
lemma inReady_push {level : Fin mlqLevels} (ha : t.avail ≠ 0)
    (hs : (t.proc x).status = .ready) : InReady (t.push (.ready level) x) x := by
  refine ⟨by rw [push_proc, hs], level, mem_ids_iff.mpr ⟨_, mem_push_iff.mpr (Or.inr ⟨ha, rfl, rfl,
    rfl⟩)⟩⟩

/-- A process taken from a queue and scheduled is ready: the node it leaves is free. -/
lemma Move.inReady_requeue (hm : Move (.requeue (.queue q) x) t t') : InReady t' x := by
  cases hm with
  | @requeue _ src p level is_next is_process is_level =>
      refine inReady_push ?_ (by simp)
      rw [setStatus_avail, take_avail is_next, if_neg (by simp)]
      omega

lemma Move.inReady_create (hm : Move (.create x) t t') : InReady t' x := by
  cases hm with
  | @create _ p k level q is_next is_stack is_level =>
      refine inReady_push ?_ (by simp [make, newProc])
      have havail := take_avail is_next
      rw [if_neg (by simp)] at havail
      change (t.take (.queue .freePcbs)).avail + _ ≠ 0
      omega

/-- The running process that is scheduled with a node free is ready. -/
lemma Move.inReady_requeue_cur (hm : Move (.requeue .cur x) t t') (ha : t.avail ≠ 0) :
    InReady t' x := by
  cases hm with
  | @requeue _ src p level is_next is_process is_level =>
      refine inReady_push ?_ (by simp)
      rw [setStatus_avail, take_avail is_next, if_pos rfl]
      exact ha

/-- The process is ready or running. -/
def Alive (t : ProcTable) (x : PcbId) : Prop := InReady t x ∨ t.cur = some x

lemma Core.used_of_alive (h : Core t) (hx : Alive t x) : (t.proc x).status ≠ .free := by
  rcases hx with hx | hx
  · rw [hx.1]
    decide
  · rw [(h.running x hx).1]
    decide

/-- A process stays ready or running unless it is killed, sleeps, waits or exits, or is
preempted while no node is free. -/
lemma Move.alive (hm : Move l t t') (hc : Core t) (hx : Alive t x)
    (ha : l = .requeue .cur x → t.avail ≠ 0) (hkill : l ≠ .kill x)
    (hpark : ∀ wakeup, l ≠ .park x wakeup) (hblock : l ≠ .block x) (hreap : l ≠ .reap .cur x) :
    Alive t' x := by
  rcases hx with hx | hx
  · by_cases hd : l = .dispatch x
    · subst hd
      cases hm with
      | dispatch level is_idle is_next is_ready => exact Or.inr rfl
    · exact Or.inl (hm.inReady hc hx hd hkill)
  · by_cases hsub : l.subject = some x
    · obtain ⟨src, hfrom, hat⟩ := hm.source hsub
      obtain rfl := hc.source_cur hx hat
      cases l with
      | requeue src p =>
          obtain rfl : .cur = src := hfrom
          obtain rfl : p = x := Option.some.inj hsub
          exact Or.inl (hm.inReady_requeue_cur (ha rfl))
      | park p wakeup =>
          obtain rfl : p = x := Option.some.inj hsub
          exact absurd rfl (hpark wakeup)
      | block p =>
          obtain rfl : p = x := Option.some.inj hsub
          exact absurd rfl hblock
      | reap src p =>
          obtain rfl : .cur = src := hfrom
          obtain rfl : p = x := Option.some.inj hsub
          exact absurd rfl hreap
      | dispatch p =>
          obtain ⟨level, h⟩ := hfrom
          exact absurd h (by simp)
      | bounce p => exact absurd hfrom (by simp [Label.From])
      | create p => exact absurd hfrom (by simp [Label.From])
      | leak p => exact absurd hfrom (by simp [Label.From])
      | kill p => exact hfrom.elim
      | other => exact hfrom.elim
    · exact Or.inr ((hm.frame hsub).cur.mpr hx)

/-- Where a live process is: once on the processor or in the ready queue of its level. -/
lemma Core.count_of_alive (h : Core t) (hx : Alive t x) : ∃ level : Fin mlqLevels,
    (t.proc x).level.toNat = level ∧ t.cur.toList.count x + (t.ids (.ready level)).count x = 1 := by
  rcases hx with ⟨-, level, hmem⟩ | hcur
  · obtain ⟨key, -, hlevel⟩ := h.allows_of_mem hmem
    have hne : t.cur ≠ some x := fun hcur => notMem_of_cur (h.occ_le x) hcur hmem
    have hzero : t.cur.toList.count x = 0 := by
      rw [List.count_eq_zero]
      simpa using hne
    refine ⟨level, hlevel, ?_⟩
    rw [hzero, List.count_eq_one_of_mem (nodup_ids h.occ_le _) hmem]
  · refine ⟨⟨_, (h.running x hcur).2⟩, rfl, ?_⟩
    rw [List.count_eq_zero_of_not_mem (notMem_of_cur (h.occ_le x) hcur), hcur]
    simp

/-! ### Sleepers -/

/-- An entry stays in `_sleeping` until its process is woken up. -/
lemma Move.sleeping (hm : Move l t t') (hc : Core t) (hx : (key, x) ∈ t.queue .sleeping)
    (hwake : l ≠ .requeue (.queue .sleeping) x) : (key, x) ∈ t'.queue .sleeping := by
  by_cases hsub : l.subject = some x
  · exfalso
    obtain ⟨src, hfrom, hat⟩ := hm.source hsub
    obtain rfl := hc.source_queue (mem_ids hx) hat
    cases hm with
    | @requeue _ src p level is_next is_process is_level =>
        obtain rfl : .queue .sleeping = src := hfrom
        exact hwake (congrArg _ (Option.some.inj hsub))
    | @reap _ src p k is_next is_dead is_stack =>
        obtain rfl : .queue .sleeping = src := hfrom
        simp at is_dead
    | dispatch => exact absurd hfrom (by simp [Label.From])
    | park => exact absurd hfrom (by simp [Label.From])
    | block => exact absurd hfrom (by simp [Label.From])
    | bounce => exact absurd hfrom (by simp [Label.From])
    | create => exact absurd hfrom (by simp [Label.From])
    | leak => exact absurd hfrom (by simp [Label.From])
    | kill => exact hfrom
    | other => exact hfrom
  · exact ((hm.frame hsub).mem _ _).mpr hx

/-- Only a kill makes a zombie. -/
lemma Move.not_zombie (hm : Move l t t') (hkill : l ≠ .kill x)
    (hx : (t.proc x).status ≠ .zombie) : (t'.proc x).status ≠ .zombie := by
  by_cases hsub : l.subject = some x
  · cases hm with
    | kill => exact absurd hsub (by simp [Label.subject])
    | other => exact absurd hsub (by simp [Label.subject])
    | @create _ p k level q is_next is_stack is_level =>
        obtain rfl : p = x := Option.some.inj hsub
        simp [make, newProc]
    | @leak _ p k level is_next is_stack is_level =>
        obtain rfl : p = x := Option.some.inj hsub
        simp [make, newProc]
    | _ =>
        obtain rfl := Option.some.inj hsub
        simp
  · rwa [hm.proc_eq hsub hkill]

/-! ### Making a process -/

/-- Only a free PCB is taken for a new process. -/
lemma Move.ne_make (hm : Move l t t') (hc : Core t) (hx : (t.proc x).status ≠ .free) :
    l ≠ .create x ∧ l ≠ .leak x ∧ l ≠ .bounce x := by
  have hnot : ¬ t.At x (.queue .freePcbs) := fun hat => hx ((hc.free_iff (At.mem hat)).mpr rfl)
  refine ⟨?_, ?_, ?_⟩ <;> rintro rfl <;> obtain ⟨src, rfl, hat⟩ := hm.source rfl <;>
    exact hnot hat

/-- Nothing else changes the PID, the level or the stack of a process. -/
lemma Move.identity (hm : Move l t t') (hcreate : l ≠ .create x) (hleak : l ≠ .leak x) :
    (t'.proc x).pid = (t.proc x).pid ∧ (t'.proc x).level = (t.proc x).level
      ∧ (t'.proc x).stack = (t.proc x).stack := by
  have hsame : ∀ {p : PcbId} {v : Proc}, v.pid = (t.proc p).pid → v.level = (t.proc p).level →
      v.stack = (t.proc p).stack → (Function.update t.proc p v x).pid = (t.proc x).pid
        ∧ (Function.update t.proc p v x).level = (t.proc x).level
        ∧ (Function.update t.proc p v x).stack = (t.proc x).stack := by
    intro p v hpid hlevel hstack
    by_cases hx : x = p
    · subst hx
      rw [Function.update_self]
      exact ⟨hpid, hlevel, hstack⟩
    · rw [Function.update_of_ne hx]
      exact ⟨rfl, rfl, rfl⟩
  cases hm with
  | @create _ p k level q is_next is_stack is_level =>
      have hne : x ≠ p := fun h => hcreate (congrArg _ h.symm)
      simp [make, hne]
  | @leak _ p k level is_next is_stack is_level =>
      have hne : x ≠ p := fun h => hleak (congrArg _ h.symm)
      simp [make, hne]
  | @other _ avail shms is_moved => exact ⟨rfl, rfl, rfl⟩
  | @kill _ p is_used not_cur not_idle => exact hsame rfl rfl rfl
  | @dispatch _ p level is_idle is_next is_ready => exact hsame rfl rfl rfl
  | @reap _ src p k is_next is_dead is_stack =>
      rw [push_proc, pushStack_proc, setStatus_proc, take_proc]
      exact hsame rfl rfl rfl
  | @requeue _ src p level is_next is_process is_level =>
      rw [push_proc, setStatus_proc, take_proc]
      exact hsame rfl rfl rfl
  | @park _ p wakeup is_cur has_node =>
      rw [push_proc]
      exact hsame rfl rfl rfl
  | @block _ p is_cur has_node =>
      rw [push_proc]
      exact hsame rfl rfl rfl
  | @bounce _ p is_next =>
      rw [push_proc]
      exact hsame rfl rfl rfl

/-- A free PCB stays free until it is taken for a new process. -/
lemma Move.free (hm : Move l t t') (hc : Core t) (hcreate : l ≠ .create x) (hleak : l ≠ .leak x)
    (hx : (t.proc x).status = .free) : (t'.proc x).status = .free := by
  by_cases hsub : l.subject = some x
  · obtain ⟨src, hfrom, hat⟩ := hm.source hsub
    have hsrc : src = .queue .freePcbs := by
      by_contra hne
      exact hc.used_of_at src hat hne hx
    subst hsrc
    cases hm with
    | @bounce _ p is_next =>
        obtain rfl : p = x := Option.some.inj hsub
        simp
    | @requeue _ src p level is_next is_process is_level =>
        obtain rfl : _ = src := hfrom
        simp at is_process
    | @reap _ src p k is_next is_dead is_stack =>
        obtain rfl : p = x := Option.some.inj hsub
        simp
    | @create _ p k level q is_next is_stack is_level =>
        exact absurd (congrArg _ (Option.some.inj hsub)) hcreate
    | @leak _ p k level is_next is_stack is_level =>
        exact absurd (congrArg _ (Option.some.inj hsub)) hleak
    | dispatch => exact absurd hfrom (by simp [Label.From])
    | park => exact absurd hfrom (by simp [Label.From])
    | block => exact absurd hfrom (by simp [Label.From])
    | kill => exact hfrom.elim
    | other => exact hfrom.elim
  · have hkill : l ≠ .kill x := by
      rintro rfl
      cases hm with
      | kill is_used not_cur not_idle => exact is_used hx
    rw [hm.proc_eq hsub hkill, hx]

/-- A process in use that was not made meanwhile was in use before, with the same PID and
the same stack. -/
lemma Moves.inherited {P : Label → Prop} (hms : Moves P t t') (hc : Core t)
    (hP : ∀ l, P l → l ≠ .create x ∧ l ≠ .leak x) (hx : (t'.proc x).status ≠ .free) :
    (t.proc x).status ≠ .free ∧ (t'.proc x).pid = (t.proc x).pid
      ∧ (t'.proc x).stack = (t.proc x).stack := by
  refine hms.invariant hc (I := fun u => (u.proc x).status ≠ .free →
    (t.proc x).status ≠ .free ∧ (u.proc x).pid = (t.proc x).pid
      ∧ (u.proc x).stack = (t.proc x).stack) (fun hx => ⟨hx, rfl, rfl⟩) ?_ hx
  intro l u u' hl hc' hm ih hx'
  obtain ⟨hcreate, hleak⟩ := hP l hl
  have hused : (u.proc x).status ≠ .free := fun hfree => hx' (hm.free hc' hcreate hleak hfree)
  obtain ⟨hused₀, hpid, hstack⟩ := ih hused
  obtain ⟨hpid', -, hstack'⟩ := hm.identity hcreate hleak
  exact ⟨hused₀, hpid'.trans hpid, hstack'.trans hstack⟩

/-- The PCB is in no place. -/
def Nowhere (t : ProcTable) (x : PcbId) : Prop := (∀ q, x ∉ t.ids q) ∧ t.cur ≠ some x

/-- A PCB that is in no place stays out of all. -/
lemma Move.nowhere (hm : Move l t t') (hx : Nowhere t x) : Nowhere t' x := by
  by_cases hsub : l.subject = some x
  · obtain ⟨src, -, hat⟩ := hm.source hsub
    cases src with
    | cur => exact absurd hat hx.2
    | queue q => exact absurd (At.mem hat) (hx.1 q)
  · have hframe := hm.frame hsub
    exact ⟨fun q h => hx.1 q (hframe.mem_ids.mp h), fun h => hx.2 (hframe.cur.mp h)⟩

lemma nowhere_of_occ (h : t.occ x = 0) : Nowhere t x :=
  ⟨fun _ => notMem_of_occ h, cur_ne_of_occ h⟩

/-- A process with a level that is refused is in no place. -/
lemma Move.nowhere_leak (hm : Move (.leak x) t t') (hc : Core t) : Nowhere t' x := by
  cases hm with
  | leak is_next is_stack is_level => exact nowhere_of_occ (hc.make is_next is_stack).2

/-! ### Dead processes -/

/-- The process is killed or its PCB out of use, it does not run, and no wake-up will find
it. -/
structure Dead (t : ProcTable) (x : PcbId) : Prop where
  status : (t.proc x).status = .zombie ∨ (t.proc x).status = .free
  not_cur : t.cur ≠ some x
  not_sleeping : x ∉ t.ids .sleeping
  not_reading : x ∉ t.ids .reading

lemma notMem_take (src : Source) (hx : x ∉ t.ids q) : x ∉ (t.take src).ids q := by
  intro h
  obtain ⟨key, hmem⟩ := mem_ids_iff.mp h
  refine hx (mem_ids_iff.mpr ⟨key, ?_⟩)
  cases src with
  | cur => exact hmem
  | queue q' => exact mem_pop hmem

lemma notMem_push (hx : x ∉ t.ids q) (hq : q ≠ q') : x ∉ (t.push q' p).ids q := by
  intro h
  obtain ⟨key, hmem⟩ := mem_ids_iff.mp h
  rcases mem_push hmem with hmem | ⟨h, -⟩
  · exact hx (mem_ids_iff.mpr ⟨key, hmem⟩)
  · exact hq h

/-- **Death is final**: a dead process stays dead until its PCB is taken for a new
process. -/
theorem Move.dead (hm : Move l t t') (hx : Dead t x) (hcreate : l ≠ .create x)
    (hleak : l ≠ .leak x) : Dead t' x := by
  by_cases hsub : l.subject = some x
  · obtain ⟨src, hfrom, hat⟩ := hm.source hsub
    have hnot : ∀ src', src' = .cur ∨ src' = .queue .sleeping ∨ src' = .queue .reading →
        ¬ t.At x src' := by
      rintro src' (rfl | rfl | rfl) hat'
      · exact hx.not_cur hat'
      · exact hx.not_sleeping (At.mem hat')
      · exact hx.not_reading (At.mem hat')
    cases hm with
    | @requeue _ src' p level' is_next is_process is_level =>
        obtain rfl : p = x := Option.some.inj hsub
        exact absurd is_next (hnot _ is_process)
    | @park _ p wakeup is_cur has_node =>
        obtain rfl : p = x := Option.some.inj hsub
        exact absurd is_cur hx.not_cur
    | @block _ p is_cur has_node =>
        obtain rfl : p = x := Option.some.inj hsub
        exact absurd is_cur hx.not_cur
    | @dispatch _ p level' is_idle is_next is_ready =>
        obtain rfl : p = x := Option.some.inj hsub
        rcases hx.status with h | h <;> rw [h] at is_ready <;> exact absurd is_ready (by decide)
    | @bounce _ p is_next =>
        obtain rfl : p = x := Option.some.inj hsub
        refine ⟨Or.inr (by simp), ?_, ?_, ?_⟩
        · rw [push_cur]
          exact hx.not_cur
        · exact notMem_push (notMem_take (.queue .freePcbs) hx.not_sleeping) (by simp)
        · exact notMem_push (notMem_take (.queue .freePcbs) hx.not_reading) (by simp)
    | @reap _ src' p k is_next is_dead is_stack =>
        obtain rfl : p = x := Option.some.inj hsub
        have hids : ∀ q, (((t.take src').setStatus p .free).pushStack k).ids q
            = (t.take src').ids q := fun q => by simp [ids]
        refine ⟨Or.inr (by simp), ?_, ?_, ?_⟩
        · rw [push_cur, pushStack_cur, setStatus_cur]
          rcases is_dead with rfl | ⟨level, rfl, -⟩
          · exact absurd is_next hx.not_cur
          · exact hx.not_cur
        · refine notMem_push ?_ (by simp)
          rw [hids]
          exact notMem_take _ hx.not_sleeping
        · refine notMem_push ?_ (by simp)
          rw [hids]
          exact notMem_take _ hx.not_reading
    | @create _ p k level l is_next is_stack is_level =>
        exact absurd (congrArg _ (Option.some.inj hsub)) hcreate
    | @leak _ p k level is_next is_stack is_level =>
        exact absurd (congrArg _ (Option.some.inj hsub)) hleak
    | kill => exact hfrom.elim
    | other => exact hfrom.elim
  · have hframe := hm.frame hsub
    refine ⟨?_, fun h => hx.not_cur (hframe.cur.mp h),
      fun h => hx.not_sleeping (hframe.mem_ids.mp h), fun h => hx.not_reading (hframe.mem_ids.mp h)⟩
    by_cases hk : l = .kill x
    · subst hk
      cases hm with
      | kill => exact Or.inl (by simp)
    · rw [hm.proc_eq hsub hk]
      exact hx.status

end ProcTable

end Sp2
