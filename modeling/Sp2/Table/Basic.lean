import Sp2.Kernel.Defs
import Mathlib.Algebra.Order.BigOperators.Group.Finset

/-!
The process table: what the process modules are for, without the pointers.

* `Proc`, `ProcTable`: the part of a PCB that decides where it may be, and a table of
  them with the queues, the free stacks, the process that holds the processor and a count
  of queue nodes.
* `pop`, `push`, `popStack`, `pushStack`, `setProc`: the elementary changes of a table.
  A push without a free node is lost and counted in `failed`.
* `occ`: in how many places a PCB is, and what each elementary change does to it.
* `PcbQueue.Allows`: what a queue asks of the entries in it.
-/

namespace Sp2

open Keyed

/-- The part of a PCB that decides where it may be; `saved` says that its context pointer
is not null. -/
structure Proc where
  status : ProcStatus
  level : UInt8
  stack : Option StackId
  wakeup : UInt32
  pid : UInt16
  saved : Bool
  deriving DecidableEq

/-- The entries of the request queues, which the process table only carries along. -/
structure Requests where
  blocked : List (UInt32 × PcbId)
  ramdisk : List (UInt32 × UInt32)
  ata : List (UInt32 × UInt32)
  deriving DecidableEq

/-- The number of nodes the request queues use. -/
def Requests.length (r : Requests) : ℕ := r.blocked.length + r.ramdisk.length + r.ata.length

/-- A process table. `shms` is the length of `_free_shms`, and `failed` counts the
insertions of processes and stacks that found no free node. -/
@[ext]
structure ProcTable where
  queue : PcbQueue → List (UInt32 × PcbId)
  freeStacks : List (UInt32 × StackId)
  proc : PcbId → Proc
  cur : Option PcbId
  avail : ℕ
  shms : ℕ
  requests : Requests
  failed : ℕ
  nextPid : UInt16

/-- The entries of a queue after an insertion: by wakeup time in `_sleeping`, else at the
end. -/
def PcbQueue.insertItem (q : PcbQueue) (wakeup : UInt32) (p : PcbId)
    (l : List (UInt32 × PcbId)) : List (UInt32 × PcbId) :=
  match q with
  | sleeping => stableInsert wakeup p l
  | _ => l ++ [(0, p)]

/-- What a queue asks of its entries: the status of the process, its level, and in
`_sleeping` its key. -/
def PcbQueue.Allows (q : PcbQueue) (key : UInt32) (v : Proc) : Prop :=
  match q with
  | freePcbs => v.status = .free
  | ready level => (v.status = .ready ∨ v.status = .zombie) ∧ v.level.toNat = level
  | sleeping => (v.status = .sleeping ∨ v.status = .zombie) ∧ v.level.toNat < mlqLevels
      ∧ key = v.wakeup
  | reading => (v.status = .blocked ∨ v.status = .zombie) ∧ v.level.toNat < mlqLevels

/-- The key a queue gives to a new entry. -/
def PcbQueue.key (q : PcbQueue) (wakeup : UInt32) : UInt32 :=
  match q with
  | sleeping => wakeup
  | _ => 0

/-- The queue is the ready queue of the level. -/
def PcbQueue.isReady (q : PcbQueue) (level : UInt8) : Bool :=
  match q with
  | ready l => level.toNat == l
  | _ => false

section Items

variable {q : PcbQueue} {w : UInt32} {p x : PcbId} {l : List (UInt32 × PcbId)}
  {e : UInt32 × PcbId}

lemma PcbQueue.mem_insertItem : e ∈ q.insertItem w p l ↔ e ∈ l ∨ e = (q.key w, p) := by
  cases q <;> simp [insertItem, key, or_comm]

lemma PcbQueue.count_insertItem : ((q.insertItem w p l).map Prod.snd).count x
    = (l.map Prod.snd).count x + if p = x then 1 else 0 := by
  cases q
  case sleeping => exact count_map_stableInsert x
  all_goals simp [insertItem, List.count_singleton]

lemma PcbQueue.length_insertItem : (q.insertItem w p l).length = l.length + 1 := by
  cases q <;> simp [insertItem]

end Items

namespace ProcTable

/-- The processes in a queue, first to last. -/
def ids (t : ProcTable) (q : PcbQueue) : List PcbId := (t.queue q).map Prod.snd

/-- The free stacks, first to last. -/
def stackIds (t : ProcTable) : List StackId := t.freeStacks.map Prod.snd

/-- The number of nodes that no process and no stack uses. -/
def other (t : ProcTable) : ℕ := t.shms + t.requests.length

/-! ### Elementary changes -/

/-- Drop the first entry of a queue. -/
def pop (q : PcbQueue) (t : ProcTable) : ProcTable :=
  { t with
    queue := Function.update t.queue q (t.queue q).tail
    avail := t.avail + if t.queue q = [] then 0 else 1 }

/-- Insert a process into a queue. -/
def push (q : PcbQueue) (p : PcbId) (t : ProcTable) : ProcTable :=
  if t.avail = 0 then { t with failed := t.failed + 1 }
  else
    { t with
      queue := Function.update t.queue q (q.insertItem (t.proc p).wakeup p (t.queue q))
      avail := t.avail - 1 }

/-- Take the first free stack away. -/
def popStack (t : ProcTable) : ProcTable :=
  { t with freeStacks := t.freeStacks.tail, avail := t.avail + if t.freeStacks = [] then 0 else 1 }

/-- Put a stack back. -/
def pushStack (k : StackId) (t : ProcTable) : ProcTable :=
  if t.avail = 0 then { t with failed := t.failed + 1 }
  else { t with freeStacks := t.freeStacks ++ [(0, k)], avail := t.avail - 1 }

/-- Change a process. -/
def setProc (p : PcbId) (v : Proc) (t : ProcTable) : ProcTable :=
  { t with proc := Function.update t.proc p v }

/-- Change the status of a process. -/
def setStatus (p : PcbId) (status : ProcStatus) (t : ProcTable) : ProcTable :=
  t.setProc p { t.proc p with status := status }

/-- Change which process holds the processor. -/
def setCur (cur : Option PcbId) (t : ProcTable) : ProcTable := { t with cur := cur }

section Changes

variable (t : ProcTable) (q : PcbQueue) (p : PcbId) (k : StackId) (v : Proc)
  (cur : Option PcbId) (status : ProcStatus)

@[simp] lemma pop_freeStacks : (t.pop q).freeStacks = t.freeStacks := rfl
@[simp] lemma pop_proc : (t.pop q).proc = t.proc := rfl
@[simp] lemma pop_cur : (t.pop q).cur = t.cur := rfl
@[simp] lemma pop_shms : (t.pop q).shms = t.shms := rfl
@[simp] lemma pop_requests : (t.pop q).requests = t.requests := rfl
@[simp] lemma pop_other : (t.pop q).other = t.other := rfl
@[simp] lemma pop_failed : (t.pop q).failed = t.failed := rfl
@[simp] lemma pop_nextPid : (t.pop q).nextPid = t.nextPid := rfl

@[simp] lemma push_freeStacks : (t.push q p).freeStacks = t.freeStacks := by
  rw [push]; split <;> rfl
@[simp] lemma push_proc : (t.push q p).proc = t.proc := by rw [push]; split <;> rfl
@[simp] lemma push_cur : (t.push q p).cur = t.cur := by rw [push]; split <;> rfl
@[simp] lemma push_shms : (t.push q p).shms = t.shms := by rw [push]; split <;> rfl
@[simp] lemma push_requests : (t.push q p).requests = t.requests := by rw [push]; split <;> rfl
@[simp] lemma push_other : (t.push q p).other = t.other := by simp [other]
@[simp] lemma push_nextPid : (t.push q p).nextPid = t.nextPid := by rw [push]; split <;> rfl
@[simp] lemma push_avail : (t.push q p).avail = t.avail - 1 := by
  rw [push]
  split
  · simp_all
  · rfl

@[simp] lemma popStack_queue : t.popStack.queue = t.queue := rfl
@[simp] lemma popStack_proc : t.popStack.proc = t.proc := rfl
@[simp] lemma popStack_cur : t.popStack.cur = t.cur := rfl
@[simp] lemma popStack_shms : t.popStack.shms = t.shms := rfl
@[simp] lemma popStack_requests : t.popStack.requests = t.requests := rfl
@[simp] lemma popStack_other : t.popStack.other = t.other := rfl
@[simp] lemma popStack_failed : t.popStack.failed = t.failed := rfl
@[simp] lemma popStack_nextPid : t.popStack.nextPid = t.nextPid := rfl

@[simp] lemma pushStack_queue : (t.pushStack k).queue = t.queue := by
  rw [pushStack]; split <;> rfl
@[simp] lemma pushStack_proc : (t.pushStack k).proc = t.proc := by
  rw [pushStack]; split <;> rfl
@[simp] lemma pushStack_cur : (t.pushStack k).cur = t.cur := by
  rw [pushStack]; split <;> rfl
@[simp] lemma pushStack_shms : (t.pushStack k).shms = t.shms := by
  rw [pushStack]; split <;> rfl
@[simp] lemma pushStack_requests : (t.pushStack k).requests = t.requests := by
  rw [pushStack]; split <;> rfl
@[simp] lemma pushStack_other : (t.pushStack k).other = t.other := by simp [other]
@[simp] lemma pushStack_nextPid : (t.pushStack k).nextPid = t.nextPid := by
  rw [pushStack]; split <;> rfl
@[simp] lemma pushStack_avail : (t.pushStack k).avail = t.avail - 1 := by
  rw [pushStack]
  split
  · simp_all
  · rfl

@[simp] lemma setProc_queue : (t.setProc p v).queue = t.queue := rfl
@[simp] lemma setProc_freeStacks : (t.setProc p v).freeStacks = t.freeStacks := rfl
@[simp] lemma setProc_proc : (t.setProc p v).proc = Function.update t.proc p v := rfl
@[simp] lemma setProc_cur : (t.setProc p v).cur = t.cur := rfl
@[simp] lemma setProc_avail : (t.setProc p v).avail = t.avail := rfl
@[simp] lemma setProc_shms : (t.setProc p v).shms = t.shms := rfl
@[simp] lemma setProc_requests : (t.setProc p v).requests = t.requests := rfl
@[simp] lemma setProc_other : (t.setProc p v).other = t.other := rfl
@[simp] lemma setProc_failed : (t.setProc p v).failed = t.failed := rfl
@[simp] lemma setProc_nextPid : (t.setProc p v).nextPid = t.nextPid := rfl

@[simp] lemma setStatus_queue : (t.setStatus p status).queue = t.queue := rfl
@[simp] lemma setStatus_freeStacks : (t.setStatus p status).freeStacks = t.freeStacks := rfl
@[simp] lemma setStatus_proc : (t.setStatus p status).proc
    = Function.update t.proc p { t.proc p with status := status } := rfl
@[simp] lemma setStatus_cur : (t.setStatus p status).cur = t.cur := rfl
@[simp] lemma setStatus_avail : (t.setStatus p status).avail = t.avail := rfl
@[simp] lemma setStatus_shms : (t.setStatus p status).shms = t.shms := rfl
@[simp] lemma setStatus_requests : (t.setStatus p status).requests = t.requests := rfl
@[simp] lemma setStatus_other : (t.setStatus p status).other = t.other := rfl
@[simp] lemma setStatus_failed : (t.setStatus p status).failed = t.failed := rfl
@[simp] lemma setStatus_nextPid : (t.setStatus p status).nextPid = t.nextPid := rfl

@[simp] lemma setCur_queue : (t.setCur cur).queue = t.queue := rfl
@[simp] lemma setCur_freeStacks : (t.setCur cur).freeStacks = t.freeStacks := rfl
@[simp] lemma setCur_proc : (t.setCur cur).proc = t.proc := rfl
@[simp] lemma setCur_cur : (t.setCur cur).cur = cur := rfl
@[simp] lemma setCur_avail : (t.setCur cur).avail = t.avail := rfl
@[simp] lemma setCur_shms : (t.setCur cur).shms = t.shms := rfl
@[simp] lemma setCur_requests : (t.setCur cur).requests = t.requests := rfl
@[simp] lemma setCur_other : (t.setCur cur).other = t.other := rfl
@[simp] lemma setCur_failed : (t.setCur cur).failed = t.failed := rfl
@[simp] lemma setCur_nextPid : (t.setCur cur).nextPid = t.nextPid := rfl

end Changes

/-! ### Occurrences -/

section Occurrences

variable {t : ProcTable} {q q' : PcbQueue} {p x : PcbId} {k : StackId} {v : Proc}
  {e : UInt32 × PcbId}

/-- In how many places a PCB is, the processor being one of them. -/
def occ (t : ProcTable) (x : PcbId) : ℕ :=
  t.cur.toList.count x + ∑ q, (t.ids q).count x

/-- Replacing the contents of one queue in a sum over all of them. -/
lemma sum_update {β : Type*} (f : PcbQueue → β) (q : PcbQueue) (b : β) (g : PcbQueue → β → ℕ) :
    ∑ q', g q' (Function.update f q b q') + g q (f q) = ∑ q', g q' (f q') + g q b := by
  have hrest : ∑ q' ∈ Finset.univ.erase q, g q' (Function.update f q b q')
      = ∑ q' ∈ Finset.univ.erase q, g q' (f q') :=
    Finset.sum_congr rfl fun q' hq' => by rw [Function.update_of_ne (Finset.ne_of_mem_erase hq')]
  rw [← Finset.sum_erase_add _ _ (Finset.mem_univ q), hrest, Function.update_self,
    ← Finset.sum_erase_add _ (fun q' => g q' (f q')) (Finset.mem_univ q)]
  omega

/-- The number of nodes the process queues use. -/
def queued (t : ProcTable) : ℕ := ∑ q, (t.queue q).length

lemma occ_pop (h : (t.ids q).head? = some p) :
    (t.pop q).occ x + (if p = x then 1 else 0) = t.occ x := by
  have hsum := sum_update t.queue q (t.queue q).tail fun _ l => (l.map Prod.snd).count x
  rw [ids] at h
  have hcount : ((t.queue q).map Prod.snd).count x
      = ((t.queue q).tail.map Prod.snd).count x + if p = x then 1 else 0 := by
    cases hq : t.queue q with
    | nil => simp [hq] at h
    | cons e r =>
        rw [hq] at h
        obtain rfl : e.2 = p := by simpa using h
        simp [List.count_cons]
  simp only [occ, ids, pop]
  omega

lemma occ_push : (t.push q p).occ x
    = t.occ x + if p = x ∧ t.avail ≠ 0 then 1 else 0 := by
  by_cases h : t.avail = 0
  · simp [push, h, occ, ids]
  · have hsum := sum_update t.queue q (q.insertItem (t.proc p).wakeup p (t.queue q))
      fun _ l => (l.map Prod.snd).count x
    have hcount := PcbQueue.count_insertItem (q := q) (w := (t.proc p).wakeup) (p := p) (x := x)
      (l := t.queue q)
    simp only [push, h, if_false, occ, ids, ne_eq, not_false_eq_true, and_true]
    omega

@[simp] lemma occ_setProc : (t.setProc p v).occ x = t.occ x := rfl

@[simp] lemma occ_setStatus {status : ProcStatus} : (t.setStatus p status).occ x = t.occ x := rfl

@[simp] lemma occ_popStack : t.popStack.occ x = t.occ x := rfl

@[simp] lemma occ_pushStack : (t.pushStack k).occ x = t.occ x := by
  simp [occ, ids]

lemma occ_setCur (cur : Option PcbId) : (t.setCur cur).occ x + t.cur.toList.count x
    = t.occ x + cur.toList.count x := by
  simp only [occ, ids, setCur]
  omega

/-- A PCB in a queue counts there. -/
lemma occ_pos_of_mem (h : p ∈ t.ids q) : 0 < t.occ p := by
  have hpos : 0 < (t.ids q).count p := List.count_pos_iff.mpr h
  have hle := Finset.single_le_sum (f := fun q => (t.ids q).count p) (fun _ _ => Nat.zero_le _)
    (Finset.mem_univ q)
  have hle' : (t.ids q).count p ≤ ∑ q, (t.ids q).count p := hle
  rw [occ]
  omega

lemma mem_ids (h : e ∈ t.queue q) : e.2 ∈ t.ids q := List.mem_map_of_mem h

lemma occ_pos_of_cur (h : t.cur = some p) : 0 < t.occ p := by
  simp [occ, h]

/-- A PCB in no place is in no queue. -/
lemma notMem_of_occ (h : t.occ p = 0) : p ∉ t.ids q := fun hp => by
  have := occ_pos_of_mem hp
  omega

lemma cur_ne_of_occ (h : t.occ p = 0) : t.cur ≠ some p := fun hp => by
  have := occ_pos_of_cur hp
  omega

/-- A PCB in at most one place is not both in a queue and on the processor. -/
lemma notMem_of_cur (h : t.occ p ≤ 1) (hcur : t.cur = some p) : p ∉ t.ids q := fun hp => by
  have hpos : 0 < (t.ids q).count p := List.count_pos_iff.mpr hp
  have hle : (t.ids q).count p ≤ ∑ q, (t.ids q).count p :=
    Finset.single_le_sum (f := fun q => (t.ids q).count p) (fun _ _ => Nat.zero_le _)
      (Finset.mem_univ q)
  have hone : t.cur.toList.count p = 1 := by simp [hcur]
  rw [occ] at h
  omega

/-- A PCB in at most one place is in one queue only. -/
lemma queue_unique (h : t.occ p ≤ 1) (hq : p ∈ t.ids q) (hq' : p ∈ t.ids q') : q = q' := by
  by_contra hne
  have hpos : 0 < (t.ids q).count p := List.count_pos_iff.mpr hq
  have hpos' : 0 < (t.ids q').count p := List.count_pos_iff.mpr hq'
  have hle : (t.ids q).count p + (t.ids q').count p ≤ ∑ q, (t.ids q).count p := by
    rw [← Finset.sum_pair (f := fun q => (t.ids q).count p) hne]
    exact Finset.sum_le_sum_of_subset (Finset.subset_univ _)
  rw [occ] at h
  omega

/-- If every PCB is in at most one place, each queue has them once. -/
lemma nodup_ids (h : ∀ p, t.occ p ≤ 1) (q : PcbQueue) : (t.ids q).Nodup := by
  rw [List.nodup_iff_count_le_one]
  intro p
  have hle : (t.ids q).count p ≤ ∑ q, (t.ids q).count p :=
    Finset.single_le_sum (f := fun q => (t.ids q).count p) (fun _ _ => Nat.zero_le _)
      (Finset.mem_univ q)
  have := h p
  rw [occ] at this
  omega

/-- The length of a list, counted element by element. -/
lemma sum_count {β : Type*} [Fintype β] [DecidableEq β] (l : List β) :
    ∑ b, l.count b = l.length := by
  have h := Multiset.sum_count_eq_card (s := Finset.univ) (m := (l : Multiset β))
    fun b _ => Finset.mem_univ b
  simpa using h

/-- If every PCB is in at most one place, the queues hold at most as many entries as there
are PCBs, one less while a process runs. -/
lemma queued_le (h : ∀ p, t.occ p ≤ 1) : t.queued + t.cur.toList.length ≤ maxProcs := by
  have hsum : ∑ p, t.occ p = t.cur.toList.length + t.queued := by
    simp only [occ, Finset.sum_add_distrib, sum_count, queued]
    rw [Finset.sum_comm]
    simp only [sum_count, ids, List.length_map]
  have hle : ∑ p, t.occ p ≤ ∑ _p : PcbId, 1 := Finset.sum_le_sum fun p _ => h p
  rw [← Finset.card_eq_sum_ones, Finset.card_univ, Fintype.card_fin] at hle
  omega

end Occurrences

end ProcTable

end Sp2
