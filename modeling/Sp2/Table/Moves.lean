import Sp2.Table.Basic
import Mathlib.Logic.Relation

/-!
The moves of the process table.

* `Label`, `Move`: the ways a process changes its place. What a kernel function does in
  several stores is one move here, so that every table between two moves is a table of
  complete facts.
* `Core`: the invariant of all moves. A PCB is in at most one place, every place agrees
  with the status of the PCBs in it, no stack is owned twice or owned and free, and the
  queue nodes add up. `Move.core` is the preservation, assembled from one lemma for each
  elementary change.
* `Core.avail_pos`, `Move.failed_eq`: while few nodes are used for other purposes, no
  insertion fails.
* `Full`, `Move.full`: unless an insertion fails or a process is made with a bad level, no
  PCB and no stack is lost.
* `Moves`: sequences of moves.
-/

namespace Sp2

namespace ProcTable

/-! ### Moves -/

/-- Where a process that moves comes from. -/
inductive Source where
  | cur
  | queue (q : PcbQueue)
  deriving DecidableEq

/-- The process is next to be taken from there. -/
def At (t : ProcTable) (p : PcbId) : Source → Prop
  | .cur => t.cur = some p
  | .queue q => (t.ids q).head? = some p

instance (t : ProcTable) (p : PcbId) (src : Source) : Decidable (t.At p src) :=
  match src with
  | .cur => inferInstanceAs (Decidable (t.cur = some p))
  | .queue q => inferInstanceAs (Decidable ((t.ids q).head? = some p))

/-- Take the next process from there. -/
def take (t : ProcTable) : Source → ProcTable
  | .cur => t.setCur none
  | .queue q => t.pop q

/-- The names of the moves. -/
inductive Label where
  | requeue (src : Source) (p : PcbId)
  | park (p : PcbId) (wakeup : UInt32)
  | block (p : PcbId)
  | bounce (p : PcbId)
  | dispatch (p : PcbId)
  | reap (src : Source) (p : PcbId)
  | create (p : PcbId)
  | leak (p : PcbId)
  | kill (p : PcbId)
  | other

/-- A new process that owns the stack `k`. -/
def newProc (status : ProcStatus) (level : UInt8) (k : StackId) (pid : UInt16) : Proc :=
  ⟨status, level, some k, 0, pid, true⟩

/-- The PCB and the stack of a new process are taken from their pools and filled in. -/
def make (p : PcbId) (k : StackId) (status : ProcStatus) (level : UInt8) (t : ProcTable) :
    ProcTable :=
  { ((t.pop .freePcbs).popStack.setProc p (newProc status level k t.nextPid)) with
    nextPid := t.nextPid + 1 }

/-- The moves. -/
inductive Move : Label → ProcTable → ProcTable → Prop
  /-- The running process, a sleeper or a reader goes to the ready queue of its level. -/
  | requeue {t : ProcTable} (src : Source) {p : PcbId} (level : Fin mlqLevels)
      (is_next : t.At p src)
      (is_process : src = .cur ∨ src = .queue .sleeping ∨ src = .queue .reading)
      (is_level : (t.proc p).level.toNat = level) :
      Move (.requeue src p) t (((t.take src).setStatus p .ready).push (.ready level) p)
  /-- The running process goes to sleep. -/
  | park {t : ProcTable} {p : PcbId} {wakeup : UInt32} (is_cur : t.cur = some p)
      (has_node : t.avail ≠ 0) :
      Move (.park p wakeup) t
        (((t.take .cur).setProc p { t.proc p with status := .sleeping, wakeup := wakeup }).push
          .sleeping p)
  /-- The running process waits for a character. -/
  | block {t : ProcTable} {p : PcbId} (is_cur : t.cur = some p) (has_node : t.avail ≠ 0) :
      Move (.block p) t (((t.take .cur).setStatus p .blocked).push .reading p)
  /-- A PCB is taken from the pool and put back. -/
  | bounce {t : ProcTable} {p : PcbId} (is_next : t.At p (.queue .freePcbs)) :
      Move (.bounce p) t
        (((t.take (.queue .freePcbs)).setStatus p .free).push .freePcbs p)
  /-- The processor goes to a process that is ready. -/
  | dispatch {t : ProcTable} {p : PcbId} (level : Fin mlqLevels) (is_idle : t.cur = none)
      (is_next : t.At p (.queue (.ready level))) (is_ready : (t.proc p).status = .ready) :
      Move (.dispatch p) t
        (((t.take (.queue (.ready level))).setStatus p .running).setCur (some p))
  /-- The running process or a zombie is taken apart. -/
  | reap {t : ProcTable} (src : Source) {p : PcbId} {k : StackId} (is_next : t.At p src)
      (is_dead : src = .cur ∨
        ∃ level, src = .queue (.ready level) ∧ (t.proc p).status = .zombie)
      (is_stack : (t.proc p).stack = some k) :
      Move (.reap src p) t
        ((((t.take src).setStatus p .free).pushStack k).push .freePcbs p)
  /-- A process is made and scheduled. -/
  | create {t : ProcTable} {p : PcbId} {k : StackId} (level : UInt8) (l : Fin mlqLevels)
      (is_next : t.At p (.queue .freePcbs)) (is_stack : t.stackIds.head? = some k)
      (is_level : level.toNat = l) :
      Move (.create p) t ((t.make p k .ready level).push (.ready l) p)
  /-- A process is made with a level that `_schedule` refuses. -/
  | leak {t : ProcTable} {p : PcbId} {k : StackId} {level : UInt8}
      (is_next : t.At p (.queue .freePcbs)) (is_stack : t.stackIds.head? = some k)
      (is_level : mlqLevels ≤ level.toNat) :
      Move (.leak p) t (t.make p k .free level)
  /-- A process is killed where it is. -/
  | kill {t : ProcTable} {p : PcbId} (is_used : (t.proc p).status ≠ .free)
      (not_cur : t.cur ≠ some p) (not_idle : (t.proc p).pid ≠ 0) :
      Move (.kill p) t (t.setStatus p .zombie)
  /-- A segment is taken from its pool or put back. -/
  | other {t : ProcTable} (avail shms : ℕ) (is_moved : t.avail + t.shms = avail + shms) :
      Move .other t { t with avail := avail, shms := shms }

/-! ### The invariant -/

/-- **The invariant of all moves.** -/
structure Core (t : ProcTable) : Prop where
  occ_le : ∀ p, t.occ p ≤ 1
  allows : ∀ q, ∀ e ∈ t.queue q, q.Allows e.1 (t.proc e.2)
  running : ∀ p, t.cur = some p →
    (t.proc p).status = .running ∧ (t.proc p).level.toNat < mlqLevels
  stack_free : t.stackIds.Nodup
  stack_owned : ∀ p, (t.proc p).status ≠ .free → ∃ k, (t.proc p).stack = some k ∧ k ∉ t.stackIds
  stack_unique : ∀ p p' k, (t.proc p).status ≠ .free → (t.proc p').status ≠ .free →
    (t.proc p).stack = some k → (t.proc p').stack = some k → p = p'
  saved : ∀ p, (t.proc p).status ≠ .free → (t.proc p).saved = true
  pool : t.avail + t.queued + t.freeStacks.length + t.other = numQnodes

section Elementary

variable {t : ProcTable} {q : PcbQueue} {p : PcbId} {k : StackId} {v : Proc} {src : Source}

lemma queued_pop : (t.pop q).queued + (if t.queue q = [] then 0 else 1) = t.queued := by
  have hsum := sum_update t.queue q (t.queue q).tail fun _ => List.length
  have hlen : (t.queue q).tail.length + (if t.queue q = [] then 0 else 1)
      = (t.queue q).length := by
    cases t.queue q <;> simp
  simp only [queued, pop]
  omega

lemma queued_push : (t.push q p).queued = t.queued + if t.avail = 0 then 0 else 1 := by
  by_cases h : t.avail = 0
  · simp [push, h, queued]
  · have hsum := sum_update t.queue q (q.insertItem (t.proc p).wakeup p (t.queue q))
      fun _ => List.length
    have hlen := PcbQueue.length_insertItem (q := q) (w := (t.proc p).wakeup) (p := p)
      (l := t.queue q)
    simp only [push, h, if_false, queued]
    omega

lemma mem_pop {e : UInt32 × PcbId} {q' : PcbQueue} (h : e ∈ (t.pop q).queue q') :
    e ∈ t.queue q' := by
  simp only [pop] at h
  by_cases hq : q' = q
  · subst hq
    rw [Function.update_self] at h
    exact List.mem_of_mem_tail h
  · rwa [Function.update_of_ne hq] at h

lemma mem_push {e : UInt32 × PcbId} {q' : PcbQueue} (h : e ∈ (t.push q p).queue q') :
    e ∈ t.queue q' ∨ (q' = q ∧ e = (q.key (t.proc p).wakeup, p)) := by
  by_cases ha : t.avail = 0
  · left
    simpa [push, ha] using h
  · simp only [push, ha, if_false] at h
    by_cases hq : q' = q
    · subst hq
      rw [Function.update_self, PcbQueue.mem_insertItem] at h
      exact h.imp_right fun h => ⟨rfl, h⟩
    · rw [Function.update_of_ne hq] at h
      exact Or.inl h

lemma Core.pop (h : Core t) (hp : (t.ids q).head? = some p) :
    Core (t.pop q) ∧ (t.pop q).occ p = 0 := by
  have hne : t.queue q ≠ [] := by
    intro hnil
    simp [ids, hnil] at hp
  have hocc := fun x => occ_pop (x := x) hp
  refine ⟨⟨fun x => ?_, fun q' e he => h.allows q' e (mem_pop he), h.running, h.stack_free,
    h.stack_owned, h.stack_unique, h.saved, ?_⟩, ?_⟩
  · have := hocc x
    have := h.occ_le x
    omega
  · have hq := queued_pop (t := t) (q := q)
    have hpool := h.pool
    rw [if_neg hne] at hq
    have havail : (t.pop q).avail = t.avail + 1 := by simp [ProcTable.pop, hne]
    simp only [havail, pop_freeStacks, pop_other]
    omega
  · have h₁ := hocc p
    have h₂ := h.occ_le p
    rw [if_pos rfl] at h₁
    omega

lemma Core.setCur_none (h : Core t) (hp : t.cur = some p) :
    Core (t.setCur none) ∧ (t.setCur none).occ p = 0 := by
  have hocc : ∀ x, (t.setCur none).occ x + (t.cur.toList.count x) = t.occ x := fun x => by
    simpa using occ_setCur (t := t) (x := x) none
  refine ⟨⟨fun x => ?_, h.allows, fun x hx => absurd hx (by simp), h.stack_free,
    h.stack_owned, h.stack_unique, h.saved, h.pool⟩, ?_⟩
  · have := hocc x
    have := h.occ_le x
    omega
  · have := hocc p
    have := h.occ_le p
    rw [hp] at *
    simp at *
    omega

/-- A process that is taken from its place is in no place. -/
lemma Core.take (h : Core t) (hp : t.At p src) : Core (t.take src) ∧ (t.take src).occ p = 0 := by
  cases src with
  | cur => exact h.setCur_none hp
  | queue q => exact h.pop hp

lemma Core.setProc (h : Core t) (hp : t.occ p = 0)
    (hv : v.status ≠ .free → ∃ k, v.stack = some k ∧ k ∉ t.stackIds ∧
      ∀ p' ≠ p, (t.proc p').status ≠ .free → (t.proc p').stack ≠ some k)
    (hsaved : v.status ≠ .free → v.saved = true) : Core (t.setProc p v) := by
  refine ⟨h.occ_le, fun q e he => ?_, fun x hx => ?_, h.stack_free, fun x hx => ?_,
    fun x x' k hx hx' hk hk' => ?_, fun x hx => ?_, h.pool⟩
  · rw [setProc_proc, Function.update_of_ne]
    · exact h.allows q e he
    · rintro rfl
      exact notMem_of_occ hp (mem_ids he)
  · rw [setProc_proc, Function.update_of_ne]
    · exact h.running x hx
    · rintro rfl
      exact cur_ne_of_occ hp hx
  · by_cases hxp : x = p
    · subst hxp
      rw [setProc_proc, Function.update_self] at hx ⊢
      obtain ⟨k, hk, hfree, -⟩ := hv hx
      exact ⟨k, hk, hfree⟩
    · rw [setProc_proc, Function.update_of_ne hxp] at hx ⊢
      exact h.stack_owned x hx
  · by_cases hxp : x = p <;> by_cases hxp' : x' = p
    · rw [hxp, hxp']
    · subst hxp
      rw [setProc_proc, Function.update_self] at hx hk
      rw [setProc_proc, Function.update_of_ne hxp'] at hx' hk'
      obtain ⟨k', hk'', -, hother⟩ := hv hx
      obtain rfl : k = k' := by simpa [hk] using hk''
      exact absurd hk' (hother x' hxp' hx')
    · subst hxp'
      rw [setProc_proc, Function.update_self] at hx' hk'
      rw [setProc_proc, Function.update_of_ne hxp] at hx hk
      obtain ⟨k', hk'', -, hother⟩ := hv hx'
      obtain rfl : k = k' := by simpa [hk'] using hk''
      exact absurd hk (hother x hxp hx)
    · rw [setProc_proc, Function.update_of_ne hxp] at hx hk
      rw [setProc_proc, Function.update_of_ne hxp'] at hx' hk'
      exact h.stack_unique x x' k hx hx' hk hk'
  · by_cases hxp : x = p
    · subst hxp
      rw [setProc_proc, Function.update_self] at hx ⊢
      exact hsaved hx
    · rw [setProc_proc, Function.update_of_ne hxp] at hx ⊢
      exact h.saved x hx

/-- A process in use that keeps its stack may change otherwise. -/
lemma Core.own (h : Core t) (hp : (t.proc p).status ≠ .free)
    (hv : v.stack = (t.proc p).stack) :
    ∃ k, v.stack = some k ∧ k ∉ t.stackIds ∧
      ∀ p' ≠ p, (t.proc p').status ≠ .free → (t.proc p').stack ≠ some k := by
  obtain ⟨k, hk, hfree⟩ := h.stack_owned p hp
  refine ⟨k, hv.trans hk, hfree, fun p' hne hp' hk' => hne ?_⟩
  exact h.stack_unique p' p k hp' hp hk' hk

lemma Core.push (h : Core t) (hp : t.occ p = 0)
    (ha : q.Allows (q.key (t.proc p).wakeup) (t.proc p)) : Core (t.push q p) := by
  refine ⟨fun x => ?_, fun q' e he => ?_, fun x hx => ?_, ?_, ?_, ?_, ?_, ?_⟩
  · have hx := h.occ_le x
    rw [occ_push]
    split_ifs with hc
    · obtain ⟨rfl, -⟩ := hc
      omega
    · omega
  · rw [push_proc]
    rcases mem_push he with he | ⟨rfl, rfl⟩
    · exact h.allows q' e he
    · exact ha
  · rw [push_cur] at hx
    rw [push_proc]
    exact h.running x hx
  · simpa [stackIds] using h.stack_free
  · simpa [stackIds] using h.stack_owned
  · simpa using h.stack_unique
  · simpa using h.saved
  · have hpool := h.pool
    rw [push_avail, queued_push, push_freeStacks, push_other]
    split_ifs <;> omega

lemma Core.popStack (h : Core t) : Core t.popStack := by
  have hsub : t.popStack.stackIds = t.stackIds.tail := by simp [stackIds, ProcTable.popStack]
  refine ⟨h.occ_le, h.allows, h.running, ?_, fun x hx => ?_, h.stack_unique, h.saved, ?_⟩
  · rw [hsub]
    exact h.stack_free.sublist (List.tail_sublist _)
  · obtain ⟨k, hk, hfree⟩ := h.stack_owned x hx
    exact ⟨k, hk, fun hmem => hfree (List.mem_of_mem_tail (hsub ▸ hmem))⟩
  · have hpool := h.pool
    have hlen : t.freeStacks.tail.length + (if t.freeStacks = [] then 0 else 1)
        = t.freeStacks.length := by
      cases t.freeStacks <;> simp
    simp only [ProcTable.popStack, queued, ProcTable.other] at hpool ⊢
    omega

/-- The stack that was first in the pool is neither free nor owned any more. -/
lemma Core.popStack_head (h : Core t) (hk : t.stackIds.head? = some k) :
    k ∉ t.popStack.stackIds ∧ ∀ p, (t.proc p).status ≠ .free → (t.proc p).stack ≠ some k := by
  have hmem : k ∈ t.stackIds := List.mem_of_mem_head? hk
  have hsub : t.popStack.stackIds = t.stackIds.tail := by simp [stackIds, ProcTable.popStack]
  refine ⟨?_, fun p hp hs => ?_⟩
  · rw [hsub]
    have hnd := h.stack_free
    cases hl : t.stackIds with
    | nil => simp
    | cons k' r =>
        rw [hl] at hk hnd
        obtain rfl : k' = k := by simpa using hk
        exact (List.nodup_cons.mp hnd).1
  · obtain ⟨k', hs', hfree⟩ := h.stack_owned p hp
    obtain rfl : k = k' := by simpa [hs] using hs'
    exact hfree hmem

lemma Core.pushStack (h : Core t) (hk : k ∉ t.stackIds)
    (hown : ∀ p, (t.proc p).status ≠ .free → (t.proc p).stack ≠ some k) :
    Core (t.pushStack k) := by
  by_cases ha : t.avail = 0
  · have heq : t.pushStack k = { t with failed := t.failed + 1 } := by
      rw [ProcTable.pushStack, if_pos ha]
    rw [heq]
    exact ⟨h.occ_le, h.allows, h.running, h.stack_free, h.stack_owned, h.stack_unique, h.saved,
      h.pool⟩
  · have heq : t.pushStack k
        = { t with freeStacks := t.freeStacks ++ [(0, k)], avail := t.avail - 1 } := by
      rw [ProcTable.pushStack, if_neg ha]
    have hids : (t.pushStack k).stackIds = t.stackIds ++ [k] := by simp [heq, stackIds]
    refine ⟨fun x => ?_, ?_, ?_, ?_, fun x hx => ?_, ?_, ?_, ?_⟩
    · rw [occ_pushStack]
      exact h.occ_le x
    · rw [pushStack_queue, pushStack_proc]
      exact h.allows
    · rw [pushStack_cur, pushStack_proc]
      exact h.running
    · rw [hids]
      exact h.stack_free.append (List.nodup_singleton k) (by simpa using hk)
    · rw [pushStack_proc] at hx ⊢
      obtain ⟨k', hs, hfree⟩ := h.stack_owned x hx
      refine ⟨k', hs, ?_⟩
      rw [hids, List.mem_append, List.mem_singleton]
      rintro (hmem | rfl)
      · exact hfree hmem
      · exact hown x hx hs
    · rw [pushStack_proc]
      exact h.stack_unique
    · rw [pushStack_proc]
      exact h.saved
    · have hpool := h.pool
      rw [heq]
      simp only [queued, ProcTable.other, List.length_append, List.length_singleton] at hpool ⊢
      omega

lemma Core.setCur_some (h : Core t) (hcur : t.cur = none) (hp : t.occ p = 0)
    (hrun : (t.proc p).status = .running) (hlevel : (t.proc p).level.toNat < mlqLevels) :
    Core (t.setCur (some p)) := by
  refine ⟨fun x => ?_, h.allows, fun x hx => ?_, h.stack_free, h.stack_owned, h.stack_unique,
    h.saved, h.pool⟩
  · have hocc := occ_setCur (t := t) (x := x) (some p)
    have hx := h.occ_le x
    rw [hcur] at hocc
    by_cases hxp : p = x
    · subst hxp
      simp at hocc
      omega
    · simp [hxp] at hocc
      omega
  · obtain rfl : p = x := by simpa using hx
    exact ⟨hrun, hlevel⟩

end Elementary

/-! ### What the places say -/

section Places

variable {t : ProcTable} {q : PcbQueue} {p : PcbId} {src : Source}

/-- The entry of a process that is in a queue. -/
lemma exists_entry (h : p ∈ t.ids q) : ∃ key, (key, p) ∈ t.queue q := by
  obtain ⟨e, he, rfl⟩ := List.mem_map.mp h
  exact ⟨e.1, he⟩

lemma Core.allows_of_mem (h : Core t) (hp : p ∈ t.ids q) : ∃ key, q.Allows key (t.proc p) := by
  obtain ⟨key, he⟩ := exists_entry hp
  exact ⟨key, h.allows q _ he⟩

/-- The PCBs in the pool are the only ones in a queue that are free. -/
lemma Core.free_iff (h : Core t) (hp : p ∈ t.ids q) :
    (t.proc p).status = .free ↔ q = .freePcbs := by
  obtain ⟨key, ha⟩ := h.allows_of_mem hp
  cases q with
  | freePcbs => simpa [PcbQueue.Allows] using ha
  | ready _ => obtain ⟨hs | hs, -⟩ := ha <;> simp [hs]
  | sleeping => obtain ⟨hs | hs, -⟩ := ha <;> simp [hs]
  | reading => obtain ⟨hs | hs, -⟩ := ha <;> simp [hs]

lemma Core.level_lt (h : Core t) (hp : p ∈ t.ids q) (hq : q ≠ .freePcbs) :
    (t.proc p).level.toNat < mlqLevels := by
  obtain ⟨key, ha⟩ := h.allows_of_mem hp
  cases q with
  | freePcbs => exact absurd rfl hq
  | ready level => exact ha.2 ▸ level.2
  | sleeping => exact ha.2.1
  | reading => exact ha.2

lemma At.mem {q : PcbQueue} (h : t.At p (.queue q)) : p ∈ t.ids q := List.mem_of_mem_head? h

/-- A process that is taken from the processor or from a queue other than the pool is in
use. -/
lemma Core.used_of_at (h : Core t) (src : Source) (hp : t.At p src)
    (hsrc : src ≠ .queue .freePcbs) : (t.proc p).status ≠ .free := by
  cases src with
  | cur => rw [(h.running p hp).1]; decide
  | queue q =>
      rw [Ne, h.free_iff (At.mem hp)]
      rintro rfl
      exact hsrc rfl

@[simp] lemma take_proc (src : Source) : (t.take src).proc = t.proc := by cases src <;> rfl

@[simp] lemma take_freeStacks (src : Source) : (t.take src).freeStacks = t.freeStacks := by
  cases src <;> rfl

@[simp] lemma take_other (src : Source) : (t.take src).other = t.other := by cases src <;> rfl

@[simp] lemma take_shms (src : Source) : (t.take src).shms = t.shms := by cases src <;> rfl

@[simp] lemma take_requests (src : Source) : (t.take src).requests = t.requests := by
  cases src <;> rfl

@[simp] lemma take_failed (src : Source) : (t.take src).failed = t.failed := by cases src <;> rfl

@[simp] lemma take_nextPid (src : Source) : (t.take src).nextPid = t.nextPid := by
  cases src <;> rfl

/-- Taking a process from a queue frees a node. -/
lemma take_avail (h : t.At p src) :
    (t.take src).avail = t.avail + if src = .cur then 0 else 1 := by
  cases src with
  | cur => rfl
  | queue q =>
      have hne : t.queue q ≠ [] := by
        intro hnil
        simp [At, ids, hnil] at h
      simp [take, pop, hne]

end Places

/-! ### Every move keeps the invariant -/

section Preservation

variable {t t' : ProcTable} {l : Label} {p : PcbId} {src : Source} {q : PcbQueue} {v : Proc}

/-- A process in use moves to a queue, its stack and its level unchanged. -/
lemma Core.transfer (h : Core t) (src : Source) (hp : t.At p src) (hsrc : src ≠ .queue .freePcbs)
    (hstack : v.stack = (t.proc p).stack) (hsaved : v.saved = (t.proc p).saved)
    (ha : q.Allows (q.key v.wakeup) v) : Core (((t.take src).setProc p v).push q p) := by
  obtain ⟨h₁, hocc⟩ := h.take hp
  have hused := h.used_of_at src hp hsrc
  refine (h₁.setProc hocc (fun _ => ?_) fun _ => ?_).push hocc ?_
  · exact h₁.own (by simpa using hused) (by simpa using hstack)
  · rw [hsaved, h.saved p hused]
  · simpa using ha

lemma Core.make (h : Core t) {k : StackId} {status : ProcStatus} {level : UInt8}
    (hp : t.At p (.queue .freePcbs)) (hk : t.stackIds.head? = some k) :
    Core (t.make p k status level) ∧ (t.make p k status level).occ p = 0 := by
  obtain ⟨h₁, hocc⟩ := h.take hp
  obtain ⟨hfree, hown⟩ := h₁.popStack_head hk
  have h₂ : Core ((t.pop .freePcbs).popStack.setProc p (newProc status level k t.nextPid)) :=
    h₁.popStack.setProc hocc (fun _ => ⟨k, rfl, hfree, fun p' _ => hown p'⟩) fun _ => rfl
  exact ⟨⟨h₂.occ_le, h₂.allows, h₂.running, h₂.stack_free, h₂.stack_owned, h₂.stack_unique,
    h₂.saved, h₂.pool⟩, hocc⟩

/-- **Every move keeps the invariant.** -/
theorem Move.core (hm : Move l t t') (h : Core t) : Core t' := by
  cases hm with
  | @requeue _ src p level is_next is_process is_level =>
      refine h.transfer src is_next ?_ (by rw [take_proc]) (by rw [take_proc]) ?_
      · rcases is_process with rfl | rfl | rfl <;> simp
      · rw [take_proc]
        exact ⟨Or.inl rfl, is_level⟩
  | @park _ p wakeup is_cur has_node =>
      exact h.transfer .cur is_cur (by simp) rfl rfl
        ⟨Or.inl rfl, (h.running p is_cur).2, rfl⟩
  | @block _ p is_cur has_node =>
      exact h.transfer .cur is_cur (by simp) rfl rfl
        ⟨Or.inl rfl, (h.running p is_cur).2⟩
  | @bounce _ p is_next =>
      obtain ⟨h₁, hocc⟩ := h.take is_next
      refine (h₁.setProc hocc (absurd rfl) (absurd rfl)).push hocc ?_
      rw [setProc_proc, Function.update_self]
      exact rfl
  | @dispatch _ p level is_idle is_next is_ready =>
      obtain ⟨h₁, hocc⟩ := h.take is_next
      have hused := h.used_of_at _ is_next (by simp)
      have hlevel := h.level_lt (At.mem is_next) (by simp)
      have h₂ : Core ((t.take (.queue (.ready level))).setStatus p .running) :=
        h₁.setProc hocc (fun _ => h₁.own hused rfl) fun _ => h.saved p hused
      refine h₂.setCur_some is_idle hocc ?_ ?_
      · rw [setStatus_proc, Function.update_self]
      · rw [setStatus_proc, Function.update_self]
        exact hlevel
  | @reap _ src p k is_next is_dead is_stack =>
      obtain ⟨h₁, hocc⟩ := h.take is_next
      have hsrc : src ≠ .queue .freePcbs := by
        rcases is_dead with rfl | ⟨level, rfl, -⟩ <;> simp
      have hused := h.used_of_at src is_next hsrc
      obtain ⟨k', hs, hfree⟩ := h.stack_owned p hused
      obtain rfl : k = k' := by simpa [is_stack] using hs
      have h₂ : Core ((t.take src).setStatus p .free) :=
        h₁.setProc hocc (absurd rfl) (absurd rfl)
      refine (h₂.pushStack ?_ fun x hx hs' => ?_).push (by simpa using hocc) ?_
      · simpa [stackIds] using hfree
      · by_cases hxp : x = p
        · subst hxp
          exact hx (by simp)
        · simp only [setStatus_proc, Function.update_of_ne hxp, take_proc] at hx hs'
          exact hxp (h.stack_unique x p k hx hused hs' is_stack)
      · simp [PcbQueue.Allows]
  | @create _ p k level l is_next is_stack is_level =>
      obtain ⟨h₁, hocc⟩ := h.make is_next is_stack
      refine h₁.push hocc ?_
      rw [make]
      simp [newProc, PcbQueue.Allows, is_level]
  | @leak _ p k level is_next is_stack is_level => exact (h.make is_next is_stack).1
  | @kill _ p is_used not_cur not_idle =>
      have hnot : p ∉ t.ids .freePcbs := fun hmem => is_used ((h.free_iff hmem).mpr rfl)
      have hp : (t.setStatus p .zombie).proc
          = Function.update t.proc p { t.proc p with status := .zombie } := rfl
      refine ⟨h.occ_le, fun q e he => ?_, fun x hx => ?_, h.stack_free, fun x hx => ?_,
        fun x x' k hx hx' hk hk' => ?_, fun x hx => ?_, h.pool⟩
      · have ha := h.allows q e he
        by_cases hep : e.2 = p
        · rw [hp, hep, Function.update_self]
          rw [hep] at ha
          cases q with
          | freePcbs => exact absurd (hep ▸ mem_ids he) hnot
          | ready level => exact ⟨Or.inr rfl, ha.2⟩
          | sleeping => exact ⟨Or.inr rfl, ha.2⟩
          | reading => exact ⟨Or.inr rfl, ha.2⟩
        · rwa [hp, Function.update_of_ne hep]
      · rw [hp, Function.update_of_ne (by rintro rfl; exact not_cur hx)]
        exact h.running x hx
      · by_cases hxp : x = p
        · subst hxp
          rw [hp, Function.update_self]
          exact h.stack_owned x is_used
        · rw [hp, Function.update_of_ne hxp] at hx ⊢
          exact h.stack_owned x hx
      · have hused : ∀ y, ((t.setStatus p .zombie).proc y).status ≠ .free →
            (t.proc y).status ≠ .free := fun y hy => by
          by_cases hyp : y = p
          · rw [hyp]
            exact is_used
          · rwa [hp, Function.update_of_ne hyp] at hy
        have hstack : ∀ y, ((t.setStatus p .zombie).proc y).stack = (t.proc y).stack :=
          fun y => by
            by_cases hyp : y = p
            · subst hyp
              rw [hp, Function.update_self]
            · rw [hp, Function.update_of_ne hyp]
        rw [hstack] at hk hk'
        exact h.stack_unique x x' k (hused x hx) (hused x' hx') hk hk'
      · by_cases hxp : x = p
        · subst hxp
          rw [hp, Function.update_self]
          exact h.saved x is_used
        · rw [hp, Function.update_of_ne hxp] at hx ⊢
          exact h.saved x hx
  | @other _ avail shms is_moved =>
      refine ⟨h.occ_le, h.allows, h.running, h.stack_free, h.stack_owned, h.stack_unique, h.saved,
        ?_⟩
      have hpool := h.pool
      simp only [queued, ProcTable.other] at hpool ⊢
      omega

end Preservation

/-! ### Room in the pool -/

section Room

variable {t t' : ProcTable} {l : Label} {p : PcbId}

/-- A process in use has a stack that is not free. -/
lemma Core.length_stacks_lt (h : Core t) (hp : (t.proc p).status ≠ .free) :
    t.freeStacks.length < maxProcs := by
  obtain ⟨k, -, hk⟩ := h.stack_owned p hp
  have hnd : (k :: t.stackIds).Nodup := List.nodup_cons.mpr ⟨hk, h.stack_free⟩
  have hle := hnd.length_le_card
  simp only [List.length_cons, stackIds, List.length_map, Fintype.card_fin] at hle
  omega

/-- The number of nodes there are beyond one for each PCB and each stack. -/
abbrev spare : ℕ := maxShms + fudgeFactor

/-- **Room in the pool**: while the other modules use no more than their share, a node is
free as long as some process is in use, and a second one while it runs. -/
lemma Core.avail_pos (h : Core t) (ho : t.other ≤ spare) (hp : (t.proc p).status ≠ .free) :
    1 + t.cur.toList.length ≤ t.avail := by
  have hq := queued_le h.occ_le
  have hs := h.length_stacks_lt hp
  have hpool := h.pool
  simp only [spare, numQnodes, maxShms, fudgeFactor, maxProcs] at *
  omega

lemma Core.avail_of_cur (h : Core t) (ho : t.other ≤ spare) (hp : t.cur = some p) :
    2 ≤ t.avail := by
  have hused := h.used_of_at .cur hp (by simp)
  have hroom := h.avail_pos ho hused
  rw [hp] at hroom
  exact hroom

lemma push_failed {q : PcbQueue} (h : t.avail ≠ 0) : (t.push q p).failed = t.failed := by
  rw [push, if_neg h]

lemma pushStack_failed {k : StackId} (h : t.avail ≠ 0) :
    (t.pushStack k).failed = t.failed := by
  rw [pushStack, if_neg h]

/-- While there is room no insertion fails. -/
lemma Move.failed_eq (hm : Move l t t') (h : Core t) (ho : t.other ≤ spare) :
    t'.failed = t.failed := by
  cases hm with
  | @requeue _ src p level is_next is_process is_level =>
      have havail := take_avail is_next
      rw [push_failed (by
        cases src with
        | cur =>
            have := h.avail_of_cur ho is_next
            rw [setStatus_avail, havail, if_pos rfl]
            omega
        | queue q =>
            rw [setStatus_avail, havail, if_neg (by simp)]
            omega), setStatus_failed, take_failed]
  | @park _ p wakeup is_cur has_node => exact push_failed has_node
  | @block _ p is_cur has_node => exact push_failed has_node
  | @bounce _ p is_next =>
      rw [push_failed (by
        rw [setStatus_avail, take_avail is_next, if_neg (by simp)]
        omega), setStatus_failed, take_failed]
  | @dispatch _ p level is_idle is_next is_ready => exact take_failed _
  | @reap _ src p k is_next is_dead is_stack =>
      have havail : 2 ≤ (t.take src).avail := by
        rw [take_avail is_next]
        rcases is_dead with rfl | ⟨level, rfl, -⟩
        · rw [if_pos rfl]
          exact h.avail_of_cur ho is_next
        · have := h.avail_pos ho (h.used_of_at _ is_next (by simp))
          rw [if_neg (by simp)]
          omega
      have h₁ : ((t.take src).setStatus p .free).avail ≠ 0 := by
        rw [setStatus_avail]
        omega
      rw [push_failed (by rw [pushStack_avail, setStatus_avail]; omega), pushStack_failed h₁,
        setStatus_failed, take_failed]
  | @create _ p k level q is_next is_stack is_level =>
      refine push_failed ?_
      have havail := take_avail is_next
      rw [if_neg (by simp)] at havail
      change (t.take (.queue .freePcbs)).avail + _ ≠ 0
      omega
  | @leak _ p k level is_next is_stack is_level => rfl
  | @kill _ p is_used not_cur not_idle => rfl
  | @other _ avail shms is_moved => rfl

lemma Move.requests_eq (hm : Move l t t') : t'.requests = t.requests := by
  cases hm with
  | _ => simp [make]

lemma Move.shms_eq (hm : Move l t t') (hl : l ≠ .other) : t'.shms = t.shms := by
  cases hm with
  | other => exact absurd rfl hl
  | _ => simp [make]

end Room

/-! ### Who waits stays -/

section Waiting

variable {t t' : ProcTable} {l : Label} {p : PcbId} {q q' : PcbQueue}

lemma pop_queue_of_ne (h : q' ≠ q) : (t.pop q).queue q' = t.queue q' :=
  Function.update_of_ne h _ _

lemma push_queue_of_ne (h : q' ≠ q) : (t.push q p).queue q' = t.queue q' := by
  rw [push]
  split_ifs
  · rfl
  · exact Function.update_of_ne h _ _

lemma take_queue_of_ne {src : Source} (h : src ≠ .queue q) :
    (t.take src).queue q = t.queue q := by
  cases src with
  | cur => rfl
  | queue q' => exact pop_queue_of_ne (by rintro rfl; exact h rfl)

/-- `_sleeping` and `_reading` change only when a process goes there or is woken up. -/
lemma Move.queue_waiting (hm : Move l t t') (hq : q = .sleeping ∨ q = .reading)
    (hpark : q = .sleeping → ∀ p w, l ≠ .park p w) (hblock : q = .reading → ∀ p, l ≠ .block p)
    (hwake : ∀ p, l ≠ .requeue (.queue q) p) : t'.queue q = t.queue q := by
  have hfree : q ≠ .freePcbs := by rcases hq with rfl | rfl <;> simp
  have hready : ∀ level, q ≠ .ready level := by rcases hq with rfl | rfl <;> simp
  cases hm with
  | @requeue _ src p level is_next is_process is_level =>
      rw [push_queue_of_ne (hready level), setStatus_queue, take_queue_of_ne]
      rintro rfl
      exact hwake p rfl
  | @park _ p wakeup is_cur has_node =>
      have hne : q ≠ .sleeping := fun h => hpark h p wakeup rfl
      rw [push_queue_of_ne hne, setProc_queue, take_queue_of_ne (by simp)]
  | @block _ p is_cur has_node =>
      have hne : q ≠ .reading := fun h => hblock h p rfl
      rw [push_queue_of_ne hne, setStatus_queue, take_queue_of_ne (by simp)]
  | @bounce _ p is_next =>
      rw [push_queue_of_ne hfree, setStatus_queue, take_queue_of_ne (by simpa using hfree.symm)]
  | @dispatch _ p level is_idle is_next is_ready =>
      rw [setCur_queue, setStatus_queue, take_queue_of_ne (by simpa using (hready level).symm)]
  | @reap _ src p k is_next is_dead is_stack =>
      rw [push_queue_of_ne hfree, pushStack_queue, setStatus_queue, take_queue_of_ne]
      rcases is_dead with rfl | ⟨level, rfl, -⟩
      · simp
      · simpa using (hready level).symm
  | @create _ p k level q' is_next is_stack is_level =>
      rw [push_queue_of_ne (hready q')]
      exact pop_queue_of_ne (t := t) hfree
  | @leak _ p k level is_next is_stack is_level => exact pop_queue_of_ne (t := t) hfree
  | @kill _ p is_used not_cur not_idle => rfl
  | @other _ avail shms is_moved => rfl

end Waiting

/-! ### Nothing is lost -/

section Nothing

variable {t t' : ProcTable} {l : Label} {p : PcbId} {k : StackId} {q : PcbQueue}

/-- Every PCB is somewhere and every stack is free or owned. -/
structure Full (t : ProcTable) : Prop where
  occ_eq : ∀ p, t.occ p = 1
  stack_used : ∀ k, k ∈ t.stackIds ∨ ∃ p, (t.proc p).status ≠ .free ∧ (t.proc p).stack = some k

lemma take_occ {src : Source} (h : t.At p src) (x : PcbId) :
    (t.take src).occ x + (if p = x then 1 else 0) = t.occ x := by
  cases src with
  | cur =>
      have hocc := occ_setCur (t := t) (x := x) none
      have hcur : t.cur = some p := h
      rw [hcur] at hocc
      simpa [take, List.count_singleton] using hocc
  | queue q => exact occ_pop h

lemma push_occ (h : t.avail ≠ 0) (x : PcbId) :
    (t.push q p).occ x = t.occ x + if p = x then 1 else 0 := by
  simp [occ_push, h]

/-- A push that does not count as failed has found a node. -/
lemma avail_of_push_failed (h : (t.push q p).failed = t.failed) : t.avail ≠ 0 := by
  intro ha
  rw [push, if_pos ha] at h
  simp at h

lemma avail_of_pushStack_failed (h : (t.pushStack k).failed = t.failed) : t.avail ≠ 0 := by
  intro ha
  rw [pushStack, if_pos ha] at h
  simp at h

lemma failed_le_push : t.failed ≤ (t.push q p).failed := by
  rw [push]
  split_ifs <;> simp

lemma failed_le_pushStack : t.failed ≤ (t.pushStack k).failed := by
  rw [pushStack]
  split_ifs <;> simp

/-- A process that keeps its stack and stays in use keeps every stack used. -/
lemma Full.used (h : Full t) {v : Proc} (hv : v.status ≠ .free)
    (hs : v.stack = (t.proc p).stack) (k : StackId) :
    k ∈ t.stackIds ∨ ∃ x, (Function.update t.proc p v x).status ≠ .free
      ∧ (Function.update t.proc p v x).stack = some k := by
  refine (h.stack_used k).imp_right ?_
  rintro ⟨x, hx, hxs⟩
  by_cases hxp : x = p
  · subst hxp
    exact ⟨x, by rwa [Function.update_self], by rw [Function.update_self, hs, hxs]⟩
  · exact ⟨x, by rwa [Function.update_of_ne hxp], by rwa [Function.update_of_ne hxp]⟩

/-- A process in use moves to a queue. -/
lemma Full.transfer (h : Full t) (src : Source) {v : Proc} (hp : t.At p src)
    (hv : v.status ≠ .free) (hs : v.stack = (t.proc p).stack)
    (hf : (((t.take src).setProc p v).push q p).failed = ((t.take src).setProc p v).failed) :
    Full (((t.take src).setProc p v).push q p) := by
  have havail := avail_of_push_failed hf
  refine ⟨fun x => ?_, fun k => ?_⟩
  · rw [push_occ havail, occ_setProc, take_occ hp, h.occ_eq]
  · simpa [stackIds] using h.used hv hs k

/-- **A move loses nothing** unless an insertion fails or a new process is refused by the
scheduler. -/
theorem Move.full (hm : Move l t t') (hc : Core t) (h : Full t) (hf : t'.failed = t.failed)
    (hl : ∀ p, l ≠ .leak p) : Full t' := by
  cases hm with
  | @requeue _ src p level is_next is_process is_level =>
      exact h.transfer src is_next (by simp) (by rw [take_proc]) (hf.trans (take_failed _).symm)
  | @park _ p wakeup is_cur has_node =>
      exact h.transfer .cur is_cur (by simp) rfl hf
  | @block _ p is_cur has_node =>
      exact h.transfer .cur is_cur (by simp) rfl hf
  | @bounce _ p is_next =>
      have havail := avail_of_push_failed (hf.trans (take_failed _).symm)
      have hfree := (hc.free_iff (At.mem is_next)).mpr rfl
      refine ⟨fun x => ?_, fun k => ?_⟩
      · rw [push_occ havail, occ_setStatus, take_occ is_next, h.occ_eq]
      · refine (h.stack_used k).imp (fun hk => by simpa [stackIds] using hk) ?_
        rintro ⟨x, hx, hxs⟩
        have hxp : x ≠ p := by
          rintro rfl
          exact hx hfree
        exact ⟨x, by simpa [hxp] using hx, by simpa [hxp] using hxs⟩
  | @dispatch _ p level is_idle is_next is_ready =>
      refine ⟨fun x => ?_, fun k => ?_⟩
      · have hocc := occ_setCur (t := (t.take (.queue (.ready level))).setStatus p .running)
          (x := x) (some p)
        have htake := take_occ is_next x
        have hx := h.occ_eq x
        have hcur : ((t.take (.queue (.ready level))).setStatus p .running).cur = none := is_idle
        rw [hcur, occ_setStatus] at hocc
        have hone : (some p).toList.count x = if p = x then 1 else 0 := by
          simp [List.count_singleton]
        rw [hone] at hocc
        simp only [Option.toList_none, List.count_nil] at hocc
        omega
      · have hused := h.used (p := p) (v := { t.proc p with status := .running }) (by simp) rfl k
        simpa [stackIds] using hused
  | @reap _ src p k is_next is_dead is_stack =>
      have h₁ : (((t.take src).setStatus p .free).pushStack k).failed
          = ((t.take src).setStatus p .free).failed := by
        have hle := failed_le_pushStack (t := (t.take src).setStatus p .free) (k := k)
        have hle' := failed_le_push (t := ((t.take src).setStatus p .free).pushStack k)
          (q := .freePcbs) (p := p)
        rw [setStatus_failed, take_failed] at hle ⊢
        omega
      have havail := avail_of_pushStack_failed h₁
      have havail' := avail_of_push_failed (hf.trans ((h₁.trans (take_failed _)).symm))
      refine ⟨fun x => ?_, fun k' => ?_⟩
      · rw [push_occ havail', occ_pushStack, occ_setStatus, take_occ is_next, h.occ_eq]
      · have hids : ((((t.take src).setStatus p .free).pushStack k).push .freePcbs p).stackIds
            = t.stackIds ++ [k] := by
          rw [stackIds, push_freeStacks, pushStack, if_neg havail]
          simp [stackIds]
        rw [hids]
        by_cases hk : k' = k
        · exact Or.inl (by simp [hk])
        · refine (h.stack_used k').imp (fun hk' => List.mem_append_left _ hk') ?_
          rintro ⟨x, hx, hxs⟩
          have hxp : x ≠ p := by
            rintro rfl
            rw [is_stack] at hxs
            exact hk (Option.some.inj hxs).symm
          exact ⟨x, by simpa [hxp] using hx, by simpa [hxp] using hxs⟩
  | @create _ p k level q is_next is_stack is_level =>
      have havail := avail_of_push_failed (q := .ready q) (p := p) hf
      refine ⟨fun x => ?_, fun k' => ?_⟩
      · rw [push_occ havail]
        exact (take_occ is_next x).trans (h.occ_eq x)
      · have hfree := (hc.free_iff (At.mem is_next)).mpr rfl
        have hids : ((t.make p k .ready level).push (.ready q) p).stackIds
            = t.stackIds.tail := by
          simp [stackIds, make, popStack]
        have hproc : ((t.make p k .ready level).push (.ready q) p).proc
            = Function.update t.proc p (newProc .ready level k t.nextPid) := by
          rw [push_proc]
          rfl
        rw [hids, hproc]
        by_cases hk : k' = k
        · exact Or.inr ⟨p, by simp [newProc], by simp [newProc, hk]⟩
        · refine (h.stack_used k').imp (fun hk' => ?_) ?_
          · rw [List.head?_eq_some_iff] at is_stack
            obtain ⟨r, hr⟩ := is_stack
            rw [hr] at hk' ⊢
            exact (List.mem_cons.mp hk').resolve_left hk
          · rintro ⟨x, hx, hxs⟩
            have hxp : x ≠ p := by
              rintro rfl
              exact hx hfree
            exact ⟨x, by simpa [hxp] using hx, by simpa [hxp] using hxs⟩
  | @leak _ p k level is_next is_stack is_level => exact absurd rfl (hl p)
  | @kill _ p is_used not_cur not_idle =>
      exact ⟨h.occ_eq, fun k => by
        simpa [stackIds] using h.used (p := p)
          (v := { t.proc p with status := .zombie }) (by simp) rfl k⟩
  | @other _ avail shms is_moved => exact ⟨h.occ_eq, h.stack_used⟩

end Nothing

/-! ### The ready queues -/

section Ready

variable {t : ProcTable} {p : PcbId} {k : StackId}

/-- The length of a queue if it is a ready queue, else zero. -/
def readyWeight (q : PcbQueue) (l : List (UInt32 × PcbId)) : ℕ :=
  match q with
  | .ready _ => l.length
  | _ => 0

/-- The number of entries in the ready queues. -/
def readyLength (t : ProcTable) : ℕ := ∑ q, readyWeight q (t.queue q)

lemma Core.readyLength_le (h : Core t) : readyLength t ≤ numQnodes := by
  have hle : readyLength t ≤ t.queued :=
    Finset.sum_le_sum fun q _ => by cases q <;> simp [readyWeight]
  have := h.pool
  omega

/-- Taking a zombie apart takes one entry out of the ready queues and puts none in. -/
lemma readyLength_reap {level : Fin mlqLevels} (h : t.At p (.queue (.ready level))) :
    readyLength ((((t.take (.queue (.ready level))).setStatus p .free).pushStack k).push
      .freePcbs p) + 1 = readyLength t := by
  have hpush : ∀ u : ProcTable, readyLength (u.push .freePcbs p) = readyLength u := by
    intro u
    by_cases ha : u.avail = 0
    · simp [push, ha, readyLength]
    · have hsum := sum_update u.queue .freePcbs
        (PcbQueue.freePcbs.insertItem (u.proc p).wakeup p (u.queue .freePcbs)) readyWeight
      change _ + 0 = _ + 0 at hsum
      simp only [push, ha, if_false, readyLength]
      omega
  have hsum := sum_update t.queue (.ready level) (t.queue (.ready level)).tail readyWeight
  have hlen : (t.queue (.ready level)).tail.length + 1 = (t.queue (.ready level)).length := by
    have hhead : (t.ids (.ready level)).head? = some p := h
    rw [ids] at hhead
    cases hq : t.queue (.ready level) with
    | nil => simp [hq] at hhead
    | cons e r => rfl
  rw [hpush]
  change _ + (t.queue (.ready level)).length = _ + (t.queue (.ready level)).tail.length at hsum
  simp only [readyLength, pushStack_queue, setStatus_queue, take, pop]
  omega

end Ready

/-! ### Sequences of moves -/

section Sequences

variable {t t' t'' : ProcTable} {l : Label} {P Q : Label → Prop} {I : ProcTable → Prop}

/-- A sequence of moves whose labels all satisfy `P`. -/
def Moves (P : Label → Prop) : ProcTable → ProcTable → Prop :=
  Relation.ReflTransGen fun t t' => ∃ l, P l ∧ Move l t t'

lemma Moves.refl (t : ProcTable) : Moves P t t := Relation.ReflTransGen.refl

lemma Moves.single (h : Move l t t') (hl : P l) : Moves P t t' :=
  Relation.ReflTransGen.single ⟨l, hl, h⟩

lemma Moves.trans (h : Moves P t t') (h' : Moves P t' t'') : Moves P t t'' :=
  Relation.ReflTransGen.trans h h'

lemma Moves.head (h : Move l t t') (hl : P l) (h' : Moves P t' t'') : Moves P t t'' :=
  (Moves.single h hl).trans h'

lemma Moves.mono (h : Moves P t t') (hPQ : ∀ l, P l → Q l) : Moves Q t t' := by
  induction h with
  | refl => exact Moves.refl t
  | tail _ hm ih =>
      obtain ⟨l, hl, hm⟩ := hm
      exact ih.trans (Moves.single hm (hPQ l hl))

lemma Moves.core (h : Moves P t t') (hc : Core t) : Core t' := by
  induction h with
  | refl => exact hc
  | tail _ hm ih =>
      obtain ⟨l, -, hm⟩ := hm
      exact hm.core ih

/-- What every move of the sequence preserves holds at its end. -/
theorem Moves.invariant (h : Moves P t t') (hc : Core t) (hI : I t)
    (step : ∀ l t t', P l → Core t → Move l t t' → I t → I t') : I t' := by
  induction h with
  | refl => exact hI
  | tail hms hm ih =>
      obtain ⟨l, hl, hm⟩ := hm
      exact step _ _ _ hl (Moves.core hms hc) hm ih

end Sequences

end ProcTable

end Sp2
