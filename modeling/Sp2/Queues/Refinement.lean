import Sp2.Queues.Invariant
import Mathlib.Algebra.BigOperators.Group.Finset.Basic
import Mathlib.Data.Finset.Union
import Mathlib.Data.Fintype.BigOperators
import Mathlib.Algebra.Order.BigOperators.Group.Finset

/-!
The pointer implementation of the queues refines sequences of keyed data.

* `WellFormed.insert_eq`, `WellFormed.remove_eq`, `WellFormed.removeIfLe_eq`: each
  operation, seen through `contents` and `freeNodes`, is the operation on sequences.
* `WellFormed.length_add`: the free nodes and the entries of all queues make up the pool.
* `RefinesSequences`, `queues_refine_sequences`: the refinement, with the position of a
  stable insertion spelled out and the frame over all other queues.
-/

namespace Sp2

open Linked Keyed

namespace QMem

variable {n : ℕ} {Q M α : Type*} [DecidableEq Q] {L : Set Q} {m m' : QMem n Q M α}
  {F : List (Fin n)} {C : Q → List (Fin n)} {q : Q} {mem : M} {data : Option α}
  {key : UInt32} {e : UInt32 × Option α} {r : List (UInt32 × Option α)}

lemma Rep.contents_update {F' l : List (Fin n)} (h : Rep L m F C)
    {c : List (UInt32 × Option α)} (h' : Rep L m' F' (Function.update C q l))
    (hl : l.map m'.entry = c)
    (hsame : ∀ q' ∈ L, q' ≠ q → (C q').map m'.entry = (C q').map m.entry) :
    ∀ q' ∈ L, m'.contents q' = Function.update m.contents q c q' := by
  intro q' hq'
  rw [h'.contents_eq hq']
  by_cases hqq : q' = q
  · subst hqq
    rw [Function.update_self, Function.update_self, hl]
  · rw [Function.update_of_ne hqq, Function.update_of_ne hqq, h.contents_eq hq',
      hsame q' hq' hqq]

/-! ### The operations on sequences -/

/-- Without a free node an insertion reports the failure and stores nothing. -/
lemma WellFormed.insert_fail (h : WellFormed L m) (hfree : m.freeNodes = []) :
    m.qInsert mem q data = (.allocFail, m) := by
  obtain ⟨F, C, h⟩ := h
  rw [h.freeNodes_eq] at hfree
  subst hfree
  exact h.qInsert_fail

/-- With a free node an insertion puts the data in its place and takes the node. -/
lemma WellFormed.insert_eq (mem : M) (data : Option α) (h : WellFormed L m) (hq : q ∈ L)
    (hfree : m.freeNodes ≠ []) :
    ∃ m', m.qInsert mem q data = (.success, m') ∧ WellFormed L m'
      ∧ m'.freeNodes = m.freeNodes.tail
      ∧ (∀ q' ∈ L, m'.contents q' = Function.update m.contents q
          (insertEntry (m.queue q).hashfcn mem data (m.contents q)) q')
      ∧ ∀ q', (m'.queue q').hashfcn = (m.queue q').hashfcn := by
  obtain ⟨F, C, h⟩ := h
  rw [h.freeNodes_eq] at hfree ⊢
  cases F with
  | nil => exact absurd rfl hfree
  | cons i F =>
      obtain ⟨m', pre, post, heq, hC, h', hentry, hhash, hmap⟩ :=
        h.qInsert mem data hq
      refine ⟨m', heq, ⟨F, _, h'⟩, h'.freeNodes_eq, ?_, hhash⟩
      refine h.contents_update h' (by rw [hmap, h.contents_eq hq]) fun q' hq' _ => ?_
      rw [hentry, map_update_entry (h.free_disjoint q' i (by simp))]

/-- A removal from an empty queue returns null and stores nothing. -/
lemma WellFormed.remove_nil (h : WellFormed L m) (hq : q ∈ L) (hnil : m.contents q = []) :
    m.qRemove q = (none, m) := by
  obtain ⟨F, C, h⟩ := h
  rw [h.contents_eq hq, List.map_eq_nil_iff] at hnil
  exact h.qRemove_nil hq hnil

/-- A removal returns the data of the first entry, drops the entry and frees a node. -/
lemma WellFormed.remove_eq (h : WellFormed L m) (hq : q ∈ L) (hcons : m.contents q = e :: r) :
    ∃ m', m.qRemove q = (e.2, m') ∧ WellFormed L m'
      ∧ m'.freeNodes.length = m.freeNodes.length + 1
      ∧ (∀ q' ∈ L, m'.contents q' = Function.update m.contents q r q')
      ∧ ∀ q', (m'.queue q').hashfcn = (m.queue q').hashfcn := by
  obtain ⟨F, C, h⟩ := h
  rw [h.contents_eq hq] at hcons
  obtain ⟨i, l, hC, rfl, rfl⟩ := List.map_eq_cons_iff.mp hcons
  obtain ⟨m', heq, h', hentry, hhash⟩ := h.qRemove hq hC
  refine ⟨m', heq, ⟨_, _, h'⟩, ?_, ?_, hhash⟩
  · rw [h'.freeNodes_eq, h.freeNodes_eq, List.length_cons]
  · exact h.contents_update h' (by rw [hentry]) fun q' _ _ => by rw [hentry]

/-- A conditional removal looks at the key of the first entry only. -/
lemma WellFormed.removeIfLe_eq (h : WellFormed L m) (hq : q ∈ L) :
    m.qRemoveIfLe q key =
      match m.contents q with
      | [] => (none, m)
      | e :: _ => if e.1 ≤ key then m.qRemove q else (none, m) := by
  obtain ⟨F, C, h⟩ := h
  rw [h.qRemoveIfLe_eq hq, h.contents_eq hq]
  cases C q <;> rfl

omit [DecidableEq Q] in
/-- A queue is empty exactly when it holds no entry. -/
lemma WellFormed.isEmpty_iff (h : WellFormed L m) (hq : q ∈ L) :
    (m.queue q).isEmpty = true ↔ m.contents q = [] := by
  obtain ⟨F, C, h⟩ := h
  rw [← h.first_eq_none_iff hq, Queue.isEmpty, Option.isNone_iff_eq_none]

omit [DecidableEq Q] in
/-- The keys of an ordered queue never decrease along it. -/
lemma WellFormed.sorted (h : WellFormed L m) (hq : q ∈ L) (hh : (m.queue q).hashfcn ≠ none) :
    Sorted (m.contents q) := by
  obtain ⟨F, C, h⟩ := h
  rw [h.contents_eq hq]
  exact h.sorted q hq hh

omit [DecidableEq Q] in
/-- **The pool is conserved**: every node is free or holds one entry of one queue. -/
lemma WellFormed.length_add [Fintype Q] (h : WellFormed Set.univ m) :
    m.freeNodes.length + ∑ q, (m.contents q).length = n := by
  classical
  obtain ⟨F, C, h⟩ := h
  have hlen : ∀ q, (m.contents q).length = (C q).toFinset.card := fun q => by
    rw [h.contents_eq (Set.mem_univ q), List.length_map,
      List.toFinset_card_of_nodup (h.chain q (Set.mem_univ q)).nodup]
  have hcard : (Finset.univ.biUnion fun q => (C q).toFinset).card
      = ∑ q, (C q).toFinset.card := by
    refine Finset.card_biUnion fun q _ q' _ hqq => ?_
    change Disjoint _ _
    rw [Finset.disjoint_left]
    intro i hi hi'
    exact hqq (h.disjoint q q' i (by simpa using hi) (by simpa using hi'))
  have hdisj : Disjoint F.toFinset (Finset.univ.biUnion fun q => (C q).toFinset) := by
    rw [Finset.disjoint_left]
    intro i hi hi'
    obtain ⟨q, -, hq⟩ := Finset.mem_biUnion.mp hi'
    exact h.free_disjoint q i (by simpa using hi) (by simpa using hq)
  have hunion : F.toFinset ∪ (Finset.univ.biUnion fun q => (C q).toFinset) = Finset.univ := by
    ext i
    simpa using h.cover i
  calc m.freeNodes.length + ∑ q, (m.contents q).length
      = F.toFinset.card + ∑ q, (C q).toFinset.card := by
        rw [h.freeNodes_eq, List.toFinset_card_of_nodup h.free.nodup]
        simp only [hlen]
    _ = (F.toFinset ∪ Finset.univ.biUnion fun q => (C q).toFinset).card := by
        rw [Finset.card_union_of_disjoint hdisj, hcard]
    _ = n := by rw [hunion, Finset.card_univ, Fintype.card_fin]

/-! ### The refinement -/

/-- What the operations on the queue `q` do to the sequences held by the queues in
use. -/
structure RefinesSequences (L : Set Q) (m : QMem n Q M α) (q : Q) (mem : M)
    (data : Option α) (key : UInt32) : Prop where
  /-- An insertion fails exactly when no node is free, and leaves the memory as it was. -/
  insert_fail : m.freeNodes = [] ∧ m.qInsert mem q data = (.allocFail, m)
    ∨ m.freeNodes ≠ [] ∧ (m.qInsert mem q data).1 = .success
  /-- Without a hash function an insertion appends. -/
  insert_append : m.freeNodes ≠ [] → (m.queue q).hashfcn = none →
    (m.qInsert mem q data).2.contents q = m.contents q ++ [(0, data)]
  /-- With a hash function an insertion goes behind every key at most the new one and
  ahead of every larger key. -/
  insert_ordered : m.freeNodes ≠ [] → ∀ hashfcn, (m.queue q).hashfcn = some hashfcn →
    ∃ pre post, m.contents q = pre ++ post
      ∧ (m.qInsert mem q data).2.contents q = pre ++ (hashfcn mem data, data) :: post
      ∧ (∀ x ∈ pre, x.1 ≤ hashfcn mem data) ∧ ∀ x ∈ post, hashfcn mem data < x.1
  /-- A removal from an empty queue returns null and changes nothing. -/
  remove_nil : m.contents q = [] → m.qRemove q = (none, m)
  /-- A removal returns and deletes the first element. -/
  remove_cons : ∀ e r, m.contents q = e :: r →
    (m.qRemove q).1 = e.2 ∧ (m.qRemove q).2.contents q = r
  /-- A conditional removal is a removal if the first key is at most `key` ... -/
  removeIfLe_due : ∀ e r, m.contents q = e :: r → e.1 ≤ key →
    m.qRemoveIfLe q key = m.qRemove q
  /-- ... and returns null and changes nothing otherwise. -/
  removeIfLe_later : (∀ e r, m.contents q = e :: r → key < e.1) →
    m.qRemoveIfLe q key = (none, m)
  /-- The contents of every other queue are unchanged, and the invariant is kept. -/
  frame : ∀ m' ∈ ({(m.qInsert mem q data).2, (m.qRemove q).2, (m.qRemoveIfLe q key).2} :
    Set (QMem n Q M α)), WellFormed L m' ∧ ∀ q' ∈ L, q' ≠ q → m'.contents q' = m.contents q'

lemma WellFormed.insert_frame (h : WellFormed L m) (hq : q ∈ L) {q' : Q} (hq' : q' ∈ L)
    (hqq : q' ≠ q) : (m.qInsert mem q data).2.contents q' = m.contents q' := by
  by_cases hfree : m.freeNodes = []
  · rw [h.insert_fail hfree]
  · obtain ⟨m', heq, -, -, hc, -⟩ := h.insert_eq mem data hq hfree
    rw [heq, hc q' hq', Function.update_of_ne hqq]

lemma WellFormed.remove_frame (h : WellFormed L m) (hq : q ∈ L) {q' : Q} (hq' : q' ∈ L)
    (hqq : q' ≠ q) : (m.qRemove q).2.contents q' = m.contents q' := by
  cases hc : m.contents q with
  | nil => rw [h.remove_nil hq hc]
  | cons e r =>
      obtain ⟨m', heq, -, -, hc', -⟩ := h.remove_eq hq hc
      rw [heq, hc' q' hq', Function.update_of_ne hqq]

lemma WellFormed.removeIfLe_frame (h : WellFormed L m) (hq : q ∈ L) {q' : Q} (hq' : q' ∈ L)
    (hqq : q' ≠ q) : (m.qRemoveIfLe q key).2.contents q' = m.contents q' := by
  rw [h.removeIfLe_eq hq]
  cases m.contents q with
  | nil => rfl
  | cons e r =>
      change (if e.1 ≤ key then m.qRemove q else (none, m)).2.contents q' = _
      split_ifs
      · exact h.remove_frame hq hq' hqq
      · rfl

/-- **The pointer implementation refines abstract sequences**, in every state that
satisfies the queue invariant, for every queue in use and all data. -/
theorem queues_refine_sequences (h : WellFormed L m) (hq : q ∈ L) (mem : M)
    (data : Option α) (key : UInt32) : RefinesSequences L m q mem data key where
  insert_fail := by
    by_cases hfree : m.freeNodes = []
    · exact Or.inl ⟨hfree, h.insert_fail hfree⟩
    · obtain ⟨m', heq, -⟩ := h.insert_eq mem data hq hfree
      exact Or.inr ⟨hfree, by rw [heq]⟩
  insert_append hfree hh := by
    obtain ⟨m', heq, -, -, hc, -⟩ := h.insert_eq mem data hq hfree
    rw [heq, hc q hq, Function.update_self, hh, insertEntry]
  insert_ordered hfree hashfcn hh := by
    obtain ⟨m', heq, -, -, hc, -⟩ := h.insert_eq mem data hq hfree
    obtain ⟨pre, post, hsplit, hins, hpre, hpost⟩ :=
      stableInsert_split (h.sorted hq (by simp [hh])) (hashfcn mem data) data
    refine ⟨pre, post, hsplit, ?_, hpre, hpost⟩
    rw [heq, hc q hq, Function.update_self, hh, insertEntry, hins]
  remove_nil hnil := h.remove_nil hq hnil
  remove_cons e r hcons := by
    obtain ⟨m', heq, -, -, hc, -⟩ := h.remove_eq hq hcons
    rw [heq]
    exact ⟨rfl, by rw [hc q hq, Function.update_self]⟩
  removeIfLe_due e r hcons hk := by
    rw [h.removeIfLe_eq hq, hcons]
    exact if_pos hk
  removeIfLe_later hk := by
    rw [h.removeIfLe_eq hq]
    cases hc : m.contents q with
    | nil => rfl
    | cons e r => exact if_neg (Std.not_le.mpr (hk e r hc))
  frame m' hm' := by
    rcases hm' with rfl | rfl | rfl
    · exact ⟨h.qInsert hq mem data, fun q' hq' hqq => h.insert_frame hq hq' hqq⟩
    · exact ⟨h.qRemove hq, fun q' hq' hqq => h.remove_frame hq hq' hqq⟩
    · exact ⟨h.qRemoveIfLe hq key, fun q' hq' hqq => h.removeIfLe_frame hq hq' hqq⟩

theorem queues_refine_sequences_twoQueues :
    RefinesSequences (insert false (insert true ∅)) twoQueues true () (some 4) 4 :=
  queues_refine_sequences reached_twoQueues.wellFormed (Or.inr (Or.inl rfl)) () (some 4) 4

example : (twoQueues.qInsert () true (some 4)).2.contents true = [(4, some 4), (5, some 5)] := by
  decide

end QMem

end Sp2
