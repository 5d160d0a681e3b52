import Sp2.Kernel.Processes
import Mathlib.Algebra.BigOperators.Fin

/-!
What `_dispatch` does to any ready queues of ready processes and zombies.

* `line`: the entries of the ready queues in the order in which `_dispatch` meets them;
  `zombies`: the processes before the first one that is ready.
* `Dispatched`: that one is chosen, the zombies go back to the pools, the rest of the line
  stays as it is.
* `Room`: the zombies are distinct and the node pool has a free node for each that has a stack;
  of the two insertions of `_cleanup` one is paid for by the entry taken.
* `dispatch_selects`: **with room `_dispatch` terminates and does that**.
* `dispatch_strands`: without room a process may be lost, `_cleanup` not looking at what
  `_pcb_dealloc` returns, and with a zombie in line twice the kernel panics.
-/

namespace Sp2

open Procs

/-! ### The line -/

/-- The entries of the ready queues, highest level first. -/
def line (s : Procs) : List (Fin mlqLevels × UInt32 × PcbId) :=
  (List.finRange mlqLevels).flatMap fun l => (s.queues.items (.pcbs (.ready l))).map (l, ·)

/-- The entry is one of a zombie. -/
def undead (s : Procs) (e : Fin mlqLevels × UInt32 × PcbId) : Bool :=
  decide ((s.pcbs e.2.2).status = .zombie)

/-- The zombies in line before the first process that is ready. -/
def zombies (s : Procs) : List PcbId := ((line s).takeWhile (undead s)).map fun e => e.2.2

/-- The stacks of the processes. -/
def stacksOf (s : Procs) (zs : List PcbId) : List StackId := zs.filterMap fun z => (s.pcbs z).stack

/-- Only ready processes and zombies are in line. -/
def InLine (s : Procs) : Prop :=
  ∀ e ∈ line s, (s.pcbs e.2.2).status = .ready ∨ (s.pcbs e.2.2).status = .zombie

/-- Some process in line is ready. -/
def SomeReady (s : Procs) : Prop := ∃ e ∈ line s, (s.pcbs e.2.2).status = .ready

/-- The zombies are distinct, and the node pool has a node for each that has a stack. -/
structure Room (s : Procs) : Prop where
  distinct : (zombies s).Nodup
  nodes : (stacksOf s (zombies s)).length ≤ s.queues.avail

/-- The state after `_dispatch`: the first entry that is no zombie's is chosen, the entries
behind it stay in line, and the zombies before it are back in the pools. -/
structure Dispatched (s s' : Procs) : Prop where
  chosen : ∃ e, (line s).dropWhile (undead s) = e :: line s' ∧ (s.pcbs e.2.2).status = .ready ∧
    s'.current = some e.2.2 ∧ ∀ x, s'.pcbs x =
      if x = e.2.2 then { s.pcbs x with status := .running, quantum := quantumDefault }
      else if x ∈ zombies s then { s.pcbs x with status := .free } else s.pcbs x
  freePcbs : s'.queues.items (.pcbs .freePcbs)
    = s.queues.items (.pcbs .freePcbs) ++ (zombies s).map (0, ·)
  freeStacks : s'.queues.items .freeStacks
    = s.queues.items .freeStacks ++ (stacksOf s (zombies s)).map (0, ·)
  others : ∀ q, q ≠ .pcbs .freePcbs → q ≠ .freeStacks → (∀ l, q ≠ .pcbs (.ready l)) →
    s'.queues.items q = s.queues.items q

section Line

variable {s s' : Procs} {l : Fin mlqLevels} {e : UInt32 × PcbId} {r : List (UInt32 × PcbId)}

/-- The lists of a family in a row, the first that is not empty losing its head. -/
lemma flatMap_finRange_cons {β : Type*} {b : β} : ∀ {n : ℕ} {f g : Fin n → List β} (i : Fin n),
    (∀ j < i, f j = []) → f i = b :: g i → (∀ j, j ≠ i → g j = f j) →
    (List.finRange n).flatMap f = b :: (List.finRange n).flatMap g
  | 0, _, _, i, _, _, _ => i.elim0
  | n + 1, f, g, i, hlow, hi, hother => by
      rw [List.finRange_succ, List.flatMap_cons, List.flatMap_cons, List.flatMap_map,
        List.flatMap_map]
      cases i using Fin.cases with
      | zero =>
          have hrest : (fun j : Fin n => g j.succ) = fun j => f j.succ :=
            funext fun j => hother j.succ (Fin.succ_ne_zero j)
          rw [hi, hrest, List.cons_append]
      | succ i =>
          have hzero : f 0 = [] := hlow 0 (Fin.succ_pos i)
          rw [hother 0 (Fin.succ_ne_zero i).symm, hzero, List.nil_append, List.nil_append]
          refine flatMap_finRange_cons i (fun j hj => ?_) hi fun j hj => ?_
          · exact hlow j.succ (Fin.succ_lt_succ_iff.mpr hj)
          · exact hother j.succ (mt (Fin.succ_inj.mp ·) hj)

/-- The head of the first queue that is not empty is the first in line. -/
lemma line_eq_cons (hlow : ∀ j < l, s.queues.items (.pcbs (.ready j)) = [])
    (hl : s.queues.items (.pcbs (.ready l)) = e :: r)
    (hl' : s'.queues.items (.pcbs (.ready l)) = r)
    (hother : ∀ j, j ≠ l → s'.queues.items (.pcbs (.ready j)) = s.queues.items (.pcbs (.ready j))) :
    line s = (l, e) :: line s' := by
  refine flatMap_finRange_cons l (fun j hj => ?_) ?_ fun j hj => ?_
  · rw [hlow j hj, List.map_nil]
  · rw [hl, hl', List.map_cons]
  · rw [hother j hj]

/-- The ready queue of a level, as an injection. -/
def readyQueue : Fin mlqLevels ↪ QueueName where
  toFun l := .pcbs (.ready l)
  inj' _ _ h := PcbQueue.ready.inj (QueueName.pcbs.inj h)

/-- The line is no longer than there are nodes. -/
lemma length_line_le (s : Procs) : (line s).length ≤ numQnodes := by
  have hpool := s.queues.avail_add_length
  have hline : (line s).length = ∑ q ∈ Finset.univ.map readyQueue, (s.queues.items q).length := by
    rw [Finset.sum_map, Fin.sum_univ_def]
    simp only [line, List.length_flatMap, List.length_map]
    rfl
  have hle : ∑ q ∈ Finset.univ.map readyQueue, (s.queues.items q).length
      ≤ ∑ q, (s.queues.items q).length :=
    Finset.sum_le_sum_of_subset (Finset.subset_univ _)
  omega

end Line

/-! ### Taking zombies apart -/

/-- The zombies have been taken apart, first to last. -/
structure Reaped (s : Procs) (zs : List PcbId) (s' : Procs) : Prop where
  pcbs : ∀ x, s'.pcbs x = if x ∈ zs then { s.pcbs x with status := .free } else s.pcbs x
  freePcbs : s'.queues.items (.pcbs .freePcbs)
    = s.queues.items (.pcbs .freePcbs) ++ zs.map (0, ·)
  freeStacks : s'.queues.items .freeStacks
    = s.queues.items .freeStacks ++ (stacksOf s zs).map (0, ·)
  others : ∀ q, q ≠ .pcbs .freePcbs → q ≠ .freeStacks → (∀ l, q ≠ .pcbs (.ready l)) →
    s'.queues.items q = s.queues.items q

section Reap

variable {s s₁ s' : Procs} {l : Fin mlqLevels} {p : PcbId} {e : UInt32 × PcbId}
  {r : List (UInt32 × PcbId)} {zs : List PcbId}

/-- Taking an entry of a ready queue out. -/
lemma remove_ready (hl : s.queues.items (.pcbs (.ready l)) = e :: r) :
    (s.qRemove (.pcbs (.ready l))).1 = some e.2 ∧
      (s.qRemove (.pcbs (.ready l))).2.queues.avail = s.queues.avail + 1 ∧
      (s.qRemove (.pcbs (.ready l))).2.queues.items
        = Function.update s.queues.items (.pcbs (.ready l)) r := by
  have hfst := s.queues.remove_fst (.pcbs (.ready l))
  have havail := s.queues.avail_remove (.pcbs (.ready l))
  have hitems := s.queues.items_remove (.pcbs (.ready l))
  rw [hl] at hfst havail hitems
  exact ⟨hfst, havail, hitems⟩

/-- An insertion into a pool that finds a node. -/
lemma insert_pool {q : QueueName} {x : q.Elem} (hq : q.hashfcn = none) (h : s.queues.avail ≠ 0) :
    (s.qInsert q x).2.queues.avail = s.queues.avail - 1 ∧
      (s.qInsert q x).2.queues.items
        = Function.update s.queues.items q (s.queues.items q ++ [(0, x)]) := by
  have havail := s.queues.avail_insert s.pcbs q x
  have hitems := s.queues.items_insert s.pcbs q x
  rw [if_neg h, QSys.insertItem, hq] at hitems
  exact ⟨havail, hitems⟩

/-- `_cleanup` with room in the node pool. -/
lemma cleanup_room (hroom : (stacksOf s [p]).length < s.queues.avail) :
    Reaped s [p] (s.cleanup (some p)) ∧
      (s.cleanup (some p)).queues.avail + (stacksOf s [p]).length + 1 = s.queues.avail ∧
      ∀ l, (s.cleanup (some p)).queues.items (.pcbs (.ready l))
        = s.queues.items (.pcbs (.ready l)) := by
  -- the stack first, if there is one
  obtain ⟨s₁, hs₁, hpcbs, havail, hstacks, hqueues⟩ : ∃ s₁ : Procs,
      s.cleanup (some p) = (s₁.pcbDealloc p).2 ∧ s₁.pcbs = s.pcbs ∧
      s₁.queues.avail + (stacksOf s [p]).length = s.queues.avail ∧
      s₁.queues.items .freeStacks
        = s.queues.items .freeStacks ++ (stacksOf s [p]).map (0, ·) ∧
      ∀ q, q ≠ .freeStacks → s₁.queues.items q = s.queues.items q := by
    cases hk : (s.pcbs p).stack with
    | none =>
        refine ⟨s, by simp only [cleanup, hk], rfl, ?_, ?_, fun _ _ => rfl⟩
        · simp [stacksOf, hk]
        · simp [stacksOf, hk]
    | some k =>
        obtain ⟨ha, hi⟩ := insert_pool (s := s) (q := .freeStacks) (x := k) rfl (by omega)
        refine ⟨(s.stackDealloc k).2, by simp only [cleanup, hk], rfl, ?_, ?_, fun q hq => ?_⟩
        · simp only [stacksOf, List.filterMap_cons, hk, List.length_cons] at hroom ⊢
          rw [stackDealloc, ha]
          simp only [List.filterMap_nil, List.length_nil] at hroom ⊢
          omega
        · simp [stackDealloc, hi, stacksOf, hk]
        · rw [stackDealloc, hi, Function.update_of_ne hq]
  -- then the PCB
  obtain ⟨ha, hi⟩ := insert_pool (s := s₁.setPcb p ({ · with status := .free }))
    (q := .pcbs .freePcbs) (x := p) rfl (by change s₁.queues.avail ≠ 0; omega)
  change _ = s₁.queues.avail - 1 at ha
  rw [hs₁, pcbDealloc]
  refine ⟨⟨fun x => ?_, ?_, ?_, fun q hq hq' _ => ?_⟩, by omega, fun l => ?_⟩
  · change Function.update s₁.pcbs p _ x = _
    by_cases hx : x = p
    · subst hx
      simp [hpcbs]
    · simp [hx, hpcbs]
  · rw [hi, Function.update_self]
    change s₁.queues.items _ ++ _ = _
    rw [hqueues _ (by simp)]
    rfl
  · rw [hi, Function.update_of_ne (by simp)]
    exact hstacks
  · rw [hi, Function.update_of_ne hq]
    exact hqueues q hq'
  · rw [hi, Function.update_of_ne (by simp)]
    exact hqueues _ (by simp)

/-- **Taking one zombie apart**, its entry having been at the head of a ready queue. -/
lemma reap_one (hl : s.queues.items (.pcbs (.ready l)) = e :: r)
    (hroom : (stacksOf s [e.2]).length ≤ s.queues.avail) :
    let s₁ := (s.qRemove (.pcbs (.ready l))).2.cleanup (some e.2)
    Reaped s [e.2] s₁ ∧ s₁.queues.avail + (stacksOf s [e.2]).length = s.queues.avail ∧
      s₁.queues.items (.pcbs (.ready l)) = r ∧
      ∀ j, j ≠ l → s₁.queues.items (.pcbs (.ready j)) = s.queues.items (.pcbs (.ready j)) := by
  intro s₁
  obtain ⟨-, havail, hitems⟩ := remove_ready hl
  have hstacks : stacksOf (s.qRemove (.pcbs (.ready l))).2 [e.2] = stacksOf s [e.2] := rfl
  obtain ⟨hreap, ha, hready⟩ := cleanup_room (s := (s.qRemove (.pcbs (.ready l))).2) (p := e.2)
    (by rw [hstacks]; omega)
  have ha' : s₁.queues.avail + (stacksOf s [e.2]).length + 1 = _ := ha
  refine ⟨⟨hreap.pcbs, ?_, ?_, fun q hq hq' hq'' => ?_⟩, by omega, ?_, fun j hj => ?_⟩
  · rw [hreap.freePcbs, hitems, Function.update_of_ne (by simp)]
  · rw [hreap.freeStacks, hitems, Function.update_of_ne (by simp), hstacks]
  · rw [hreap.others q hq hq' hq'', hitems, Function.update_of_ne (hq'' l)]
  · rw [hready, hitems, Function.update_self]
  · rw [hready, hitems, Function.update_of_ne (by simpa using hj)]

/-- The first in line without its entry. -/
lemma line_remove (hlow : ∀ j < l, s.queues.items (.pcbs (.ready j)) = [])
    (hl : s.queues.items (.pcbs (.ready l)) = e :: r) :
    line s = (l, e) :: line (s.qRemove (.pcbs (.ready l))).2 := by
  obtain ⟨-, -, hitems⟩ := remove_ready hl
  refine line_eq_cons hlow hl ?_ fun j hj => ?_
  · rw [hitems, Function.update_self]
  · rw [hitems, Function.update_of_ne (by simpa using hj)]

/-- The stack of a zombie that has been taken apart stays in its PCB. -/
lemma Reaped.stacksOf (h : Reaped s zs s₁) (zs' : List PcbId) :
    stacksOf s₁ zs' = stacksOf s zs' := by
  refine List.filterMap_congr fun x _ => ?_
  rw [h.pcbs x]
  split_ifs <;> rfl

/-- One zombie more, before the others. -/
lemma Reaped.cons (h : Reaped s [p] s₁) (hp : p ∉ zs) (h' : Reaped s₁ zs s') :
    Reaped s (p :: zs) s' := by
  refine ⟨fun x => ?_, ?_, ?_, fun q hq hq' hq'' => ?_⟩
  · rw [h'.pcbs x, h.pcbs x]
    by_cases hx : x = p
    · subst hx
      simp [hp]
    · simp [hx]
  · rw [h'.freePcbs, h.freePcbs]
    simp
  · rw [h'.freeStacks, h.freeStacks, h.stacksOf, List.append_assoc, ← List.map_append]
    simp only [Sp2.stacksOf, ← List.filterMap_append, List.singleton_append]
  · rw [h'.others q hq hq' hq'', h.others q hq hq' hq'']

/-- **The loop of `_dispatch`** with room: it takes the zombies at the front of the line apart
and then the ready process behind them out of it. -/
lemma dispatchLoop_line {x : Fin mlqLevels × UInt32 × PcbId}
    {rest : List (Fin mlqLevels × UInt32 × PcbId)} (hx : (s.pcbs x.2.2).status = .ready) :
    ∀ (fuel level : ℕ) (front : List (Fin mlqLevels × UInt32 × PcbId)),
    line s = front ++ x :: rest → (∀ e ∈ front, (s.pcbs e.2.2).status = .zombie) →
    (front.map fun e => e.2.2).Nodup →
    (stacksOf s (front.map fun e => e.2.2)).length ≤ s.queues.avail →
    (∀ j : Fin mlqLevels, j < level → s.queues.items (.pcbs (.ready j)) = []) →
    front.length + (mlqLevels - level) < fuel →
    ∃ s', dispatchLoop fuel level s = .ok (some x.2.2, s') ∧ line s' = rest ∧
      Reaped s (front.map fun e => e.2.2) s' := by
  intro fuel
  induction fuel generalizing s with
  | zero => exact fun _ _ _ _ _ _ _ hfuel => absurd hfuel (Nat.not_lt_zero _)
  | succ fuel ih =>
      intro level front hline hfront hnd hroom hlow hfuel
      by_cases hlevel : level < mlqLevels
      · cases hl : s.queues.items (.pcbs (.ready ⟨level, hlevel⟩)) with
        | nil =>
            -- nothing at this level
            have hempty : s.queues.isEmpty (.pcbs (.ready ⟨level, hlevel⟩)) = true := by
              rw [QSys.isEmpty_eq, hl]
              rfl
            rw [dispatchLoop_empty hlevel hempty]
            refine ih hx (level + 1) front hline hfront hnd hroom (fun j hj => ?_) (by omega)
            rcases Nat.lt_succ_iff_lt_or_eq.mp hj with hj | hj
            · exact hlow j hj
            · obtain rfl : j = ⟨level, hlevel⟩ := Fin.ext hj
              exact hl
        | cons e r =>
            have hempty : ¬ s.queues.isEmpty (.pcbs (.ready ⟨level, hlevel⟩)) = true := by
              rw [QSys.isEmpty_eq, hl]
              simp
            obtain ⟨hfst, -, hitems⟩ := remove_ready hl
            cases front with
            | nil =>
                -- the first in line is ready
                obtain ⟨rfl, hrest⟩ := List.cons.inj (hline.symm.trans (line_remove hlow hl))
                refine ⟨_, dispatchLoop_ready hlevel hempty hfst hx, hrest.symm, fun y => ?_, ?_,
                  ?_, fun q hq hq' hq'' => ?_⟩
                · simp [qRemove]
                · rw [hitems, Function.update_of_ne (by simp)]
                  simp
                · rw [hitems, Function.update_of_ne (by simp)]
                  simp [stacksOf]
                · rw [hitems, Function.update_of_ne (hq'' _)]
            | cons a front =>
                -- the first in line is a zombie: one round more
                obtain ⟨rfl, -⟩ := List.cons.inj (hline.symm.trans (line_remove hlow hl))
                obtain ⟨ha, hnd'⟩ := List.nodup_cons.mp hnd
                have hz : (s.pcbs e.2).status = .zombie := hfront _ List.mem_cons_self
                have heq : dispatchLoop (fuel + 1) level s = _ :=
                  dispatchLoop_zombie hlevel hempty hfst hz
                have hstacks : (stacksOf s [e.2]).length
                    + (stacksOf s (front.map fun e => e.2.2)).length ≤ s.queues.avail := by
                  rw [← List.length_append, stacksOf, stacksOf, ← List.filterMap_append]
                  exact hroom
                obtain ⟨hreap, havail, hl', hother⟩ := reap_one hl (by omega)
                obtain ⟨-, hline'⟩ :=
                  List.cons.inj (hline.symm.trans (line_eq_cons hlow hl hl' hother))
                have hkeep : ∀ y, y ≠ e.2 → ((s.qRemove (.pcbs (.ready ⟨level, hlevel⟩))).2.cleanup
                    (some e.2)).pcbs y = s.pcbs y := fun y hy => by
                  rw [hreap.pcbs y, if_neg (by simpa using hy)]
                have hxe : x.2.2 ≠ e.2 := by
                  intro h
                  rw [h, hz] at hx
                  exact absurd hx (by decide)
                have hfront' : ∀ d ∈ front, (((s.qRemove (.pcbs (.ready ⟨level, hlevel⟩))).2.cleanup
                    (some e.2)).pcbs d.2.2).status = .zombie := fun d hd => by
                  have hde : d.2.2 ≠ e.2 := fun h => ha (List.mem_map.mpr ⟨d, hd, h⟩)
                  rw [hkeep _ hde]
                  exact hfront d (List.mem_cons_of_mem _ hd)
                obtain ⟨s', hloop, hrest, hreap'⟩ := ih (by rw [hkeep _ hxe]; exact hx) level front
                  hline'.symm hfront' hnd' (by rw [hreap.stacksOf]; omega)
                  (fun j hj => by rw [hother j (ne_of_lt hj), hlow j hj])
                  (by simp only [List.length_cons] at hfuel; omega)
                exact ⟨s', heq.trans hloop, hrest, hreap.cons ha hreap'⟩
      · -- behind the last level the line is empty
        have hnil : line s = [] := by
          refine List.flatMap_eq_nil_iff.mpr fun j _ => ?_
          rw [hlow j (by omega), List.map_nil]
        rw [hnil] at hline
        simp at hline

end Reap

/-! ### `_dispatch` -/

/-- **`_dispatch`** chooses the first process in line that is ready, at the lowest-numbered
level that has one, takes apart exactly the zombies before it and leaves the rest in line. -/
theorem dispatch_selects (s : Procs) (hline : InLine s) (hsome : SomeReady s) (hroom : Room s) :
    ∃ s', s.dispatch = .ok s' ∧ Dispatched s s' := by
  have hsplit := (line s).takeWhile_append_dropWhile (p := undead s)
  cases hdrop : (line s).dropWhile (undead s) with
  | nil =>
      -- then all are zombies
      obtain ⟨e, he, hready⟩ := hsome
      have hz := List.dropWhile_eq_nil_iff.mp hdrop e he
      rw [undead, hready] at hz
      exact absurd hz (by decide)
  | cons x rest =>
      have hx : (s.pcbs x.2.2).status = .ready := by
        have hmem : x ∈ line s := (List.dropWhile_sublist _).subset (hdrop ▸ List.mem_cons_self)
        refine (hline x hmem).resolve_right fun hz => ?_
        have hhead := List.head_dropWhile_not (undead s) (l := line s) (by simp [hdrop])
        simp [hdrop, undead, hz] at hhead
      rw [hdrop] at hsplit
      have hfront : ∀ e ∈ (line s).takeWhile (undead s), (s.pcbs e.2.2).status = .zombie :=
        fun e he => of_decide_eq_true (List.mem_takeWhile_imp (p := undead s) he)
      have hlen : ((line s).takeWhile (undead s)).length ≤ numQnodes :=
        (List.takeWhile_sublist _).length_le.trans (length_line_le s)
      obtain ⟨s₁, hloop, hrest, hreap⟩ := dispatchLoop_line hx dispatchFuel 0 _ hsplit.symm hfront
        hroom.distinct hroom.nodes (fun j hj => absurd hj (Nat.not_lt_zero _))
        (by rw [dispatchFuel]; omega)
      have heq : s.dispatch = .ok { s₁.setPcb x.2.2
          ({ · with status := .running, quantum := quantumDefault }) with
          current := some x.2.2 } := by rw [dispatch, hloop]
      refine ⟨_, heq, ⟨x, ?_, hx, rfl, fun y => ?_⟩, hreap.freePcbs, hreap.freeStacks,
        hreap.others⟩
      · rw [hdrop, ← hrest]
        rfl
      · have hxz : x.2.2 ∉ zombies s := by
          rintro hmem
          obtain ⟨e, he, heq⟩ := List.mem_map.mp hmem
          have hz := hfront e he
          rw [heq, hx] at hz
          exact absurd hz (by decide)
        have hkeep : s₁.pcbs x.2.2 = s.pcbs x.2.2 := (hreap.pcbs x.2.2).trans (if_neg hxz)
        change Function.update s₁.pcbs x.2.2 _ y = _
        by_cases hy : y = x.2.2
        · subst hy
          rw [Function.update_self, if_pos rfl, hkeep]
        · rw [Function.update_of_ne hy, if_neg hy, hreap.pcbs]
          rfl

/-- A zombie with a stack and a ready process, in the order given at the highest level, and
requests for the ATA driver waiting. -/
def queuedProcs (ready : List PcbId) (requests : ℕ) : Procs :=
  let s : Procs :=
    { queues := QSys.init
      pcbs := fun p =>
        if p = 0 then { Pcb.zero with status := .zombie, stack := some 0 }
        else { Pcb.zero with status := .ready, stack := some 1 }
      current := none
      nextPid := 1
      inserts := [] }
  let s := ready.foldl (fun s p => (s.qInsert (.pcbs (.ready 0)) p).2) s
  (List.range requests).foldl (fun s i => (s.qInsert .ataIoPending (UInt32.ofNat i)).2) s

/-- Looking at the entries one by one. -/
lemma inLine_of_all {s : Procs} (h : (line s).all (fun e =>
    decide ((s.pcbs e.2.2).status = .ready ∨ (s.pcbs e.2.2).status = .zombie)) = true) :
    InLine s := fun e he => of_decide_eq_true (List.all_eq_true.mp h e he)

lemma someReady_of_any {s : Procs}
    (h : (line s).any (fun e => decide ((s.pcbs e.2.2).status = .ready)) = true) :
    SomeReady s := by
  obtain ⟨e, he, hready⟩ := List.any_eq_true.mp h
  exact ⟨e, he, of_decide_eq_true hready⟩

/-- A zombie before a ready process, with a free node for its stack. -/
theorem dispatch_selects_queued :
    ∃ s', (queuedProcs [0, 1] 0).dispatch = .ok s' ∧ Dispatched (queuedProcs [0, 1] 0) s' := by
  refine dispatch_selects _ ?_ ?_ ⟨by decide +kernel, by decide +kernel⟩
  · exact inLine_of_all (by decide +kernel)
  · exact someReady_of_any (by decide +kernel)

/-- **Without room it does not**: when all nodes are used up the PCB of a zombie gets lost, and
when a zombie is in line twice the kernel panics. -/
theorem dispatch_strands :
    (∃ s, InLine s ∧ SomeReady s ∧ (zombies s).Nodup ∧ ¬ ∃ s', s.dispatch = .ok s' ∧
      Dispatched s s') ∧
    ∃ s, InLine s ∧ SomeReady s ∧ (stacksOf s (zombies s)).length ≤ s.queues.avail ∧
      ¬ ∃ s', s.dispatch = .ok s' ∧ Dispatched s s' := by
  refine ⟨⟨queuedProcs [0, 1] 55, ?_, ?_, by decide +kernel, ?_⟩,
    queuedProcs [0, 0, 1] 0, ?_, ?_, by decide +kernel, ?_⟩
  · exact inLine_of_all (by decide +kernel)
  · exact someReady_of_any (by decide +kernel)
  · rintro ⟨s', heq, h⟩
    have hlen := congrArg List.length h.freePcbs
    have hlost : (queuedProcs [0, 1] 55).dispatch.toOption.map
        (fun s => (s.queues.items (.pcbs .freePcbs)).length) = some 0 := by decide +kernel
    rw [heq] at hlost
    have hzero : (s'.queues.items (.pcbs .freePcbs)).length = 0 := Option.some.inj hlost
    rw [hzero] at hlen
    exact absurd hlen (by decide +kernel)
  · exact inLine_of_all (by decide +kernel)
  · exact someReady_of_any (by decide +kernel)
  · rintro ⟨s', heq, -⟩
    have hpanic : (queuedProcs [0, 0, 1] 0).dispatch.toOption.isSome = false := by decide +kernel
    rw [heq] at hpanic
    cases hpanic

end Sp2
