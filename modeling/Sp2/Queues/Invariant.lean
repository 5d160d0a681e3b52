import Sp2.Queues.Basic
import Mathlib.Tactic.Tauto

/-!
The representation invariant of the queue module.

* `Rep L m F C`: the nodes `F` are the free list of the memory `m`, the nodes `C q` are
  the chain of each queue `q` in use (`q ∈ L`), every node is on exactly one of these
  lists, the `last` pointers are right, and ordered queues have non-decreasing keys.
* `Rep.contents_eq`, `Rep.freeNodes_eq`: the walks read exactly these lists off.
* `Rep.insert` and `Rep.remove`: what linking a free node in and unlinking a first node
  do to the lists; every operation of the module is one of the two or neither
  (`Rep.qInsert`, `Rep.qRemove`, `Rep.qRemoveIfLe`, `Rep.qReset`, `rep_qInit`).
* `queues_wellFormed`: the invariant holds after every sequence of operations.
-/

namespace Sp2

open Linked Keyed

namespace QMem

variable {n : ℕ} {Q M α : Type*}

/-! ### What the stores leave alone -/

section Stores

variable (m : QMem n Q M α) (i : Fin n)

@[simp] lemma next_setNext (v : Option (Fin n)) :
    (m.setNext i v).next = Function.update m.next i v := by
  funext j
  by_cases h : j = i
  · subst h; simp [next, setNext]
  · simp [next, setNext, h]

@[simp] lemma next_setKey (k : UInt32) : (m.setKey i k).next = m.next := by
  funext j
  by_cases h : j = i
  · subst h; simp [next, setKey]
  · simp [next, setKey, h]

@[simp] lemma next_setData (d : Option α) : (m.setData i d).next = m.next := by
  funext j
  by_cases h : j = i
  · subst h; simp [next, setData]
  · simp [next, setData, h]

@[simp] lemma entry_setNext (v : Option (Fin n)) : (m.setNext i v).entry = m.entry := by
  funext j
  by_cases h : j = i
  · subst h; simp [entry, setNext]
  · simp [entry, setNext, h]

@[simp] lemma entry_setKey (k : UInt32) :
    (m.setKey i k).entry = Function.update m.entry i (k, (m.entry i).2) := by
  funext j
  by_cases h : j = i
  · subst h; simp [entry, setKey]
  · simp [entry, setKey, h]

@[simp] lemma entry_setData (d : Option α) :
    (m.setData i d).entry = Function.update m.entry i ((m.entry i).1, d) := by
  funext j
  by_cases h : j = i
  · subst h; simp [entry, setData]
  · simp [entry, setData, h]

@[simp] lemma freeQnodes_setNext (v : Option (Fin n)) :
    (m.setNext i v).freeQnodes = m.freeQnodes := rfl

@[simp] lemma freeQnodes_setKey (k : UInt32) : (m.setKey i k).freeQnodes = m.freeQnodes := rfl

@[simp] lemma freeQnodes_setData (d : Option α) :
    (m.setData i d).freeQnodes = m.freeQnodes := rfl

@[simp] lemma queue_setNext (v : Option (Fin n)) : (m.setNext i v).queue = m.queue := rfl

@[simp] lemma queue_setKey (k : UInt32) : (m.setKey i k).queue = m.queue := rfl

@[simp] lemma queue_setData (d : Option α) : (m.setData i d).queue = m.queue := rfl

lemma next_eq : (m.qnodes i).next = m.next i := rfl

lemma key_eq : (m.qnodes i).key = (m.entry i).1 := rfl

lemma data_eq : (m.qnodes i).data = (m.entry i).2 := rfl

variable [DecidableEq Q] (q : Q)

@[simp] lemma next_setFirst (v : Option (Fin n)) : (m.setFirst q v).next = m.next := rfl

@[simp] lemma next_setLast (v : Option (Fin n)) : (m.setLast q v).next = m.next := rfl

@[simp] lemma entry_setFirst (v : Option (Fin n)) : (m.setFirst q v).entry = m.entry := rfl

@[simp] lemma entry_setLast (v : Option (Fin n)) : (m.setLast q v).entry = m.entry := rfl

@[simp] lemma freeQnodes_setFirst (v : Option (Fin n)) :
    (m.setFirst q v).freeQnodes = m.freeQnodes := rfl

@[simp] lemma freeQnodes_setLast (v : Option (Fin n)) :
    (m.setLast q v).freeQnodes = m.freeQnodes := rfl

@[simp] lemma queue_setFirst (v : Option (Fin n)) :
    (m.setFirst q v).queue = Function.update m.queue q { m.queue q with first := v } := rfl

@[simp] lemma queue_setLast (v : Option (Fin n)) :
    (m.setLast q v).queue = Function.update m.queue q { m.queue q with last := v } := rfl

variable (prev curr : Option (Fin n))

lemma next_link : (m.link q i prev curr).next = splice m.next i prev curr := by
  cases prev <;> cases curr <;> simp [link, splice]

lemma entry_link : (m.link q i prev curr).entry = m.entry := by
  cases prev <;> cases curr <;> simp [link]

lemma freeQnodes_link : (m.link q i prev curr).freeQnodes = m.freeQnodes := by
  cases prev <;> cases curr <;> simp [link]

lemma queue_link : (m.link q i prev curr).queue = Function.update m.queue q
    ⟨(m.queue q).hashfcn, spliceHead (m.queue q).first i prev,
      spliceHead (m.queue q).last i curr⟩ := by
  cases prev <;> cases curr <;> simp [link, spliceHead]

end Stores

/-! ### The invariant -/

variable {L : Set Q} {m m' : QMem n Q M α} {F : List (Fin n)} {C : Q → List (Fin n)}
  {q : Q} {i : Fin n}

/-- **The representation invariant**: the free list is `F`, the chain of each queue `q`
in use is `C q`, and every node is on exactly one of these lists. -/
structure Rep (L : Set Q) (m : QMem n Q M α) (F : List (Fin n)) (C : Q → List (Fin n)) :
    Prop where
  free : Chain m.next m.freeQnodes F
  chain : ∀ q ∈ L, Chain m.next (m.queue q).first (C q)
  last : ∀ q ∈ L, (m.queue q).last = (C q).getLast?
  unused : ∀ q ∉ L, C q = []
  free_disjoint : ∀ q, ∀ i ∈ F, i ∉ C q
  disjoint : ∀ q q' i, i ∈ C q → i ∈ C q' → q = q'
  cover : ∀ i, i ∈ F ∨ ∃ q, i ∈ C q
  sorted : ∀ q ∈ L, (m.queue q).hashfcn ≠ none → Sorted ((C q).map m.entry)

/-- The invariant with the lists left unnamed. -/
def WellFormed (L : Set Q) (m : QMem n Q M α) : Prop := ∃ F C, Rep L m F C

namespace Rep

lemma freeNodes_eq (h : Rep L m F C) : m.freeNodes = F :=
  h.free.walk_eq (by simpa using h.free.length_le)

lemma contents_eq (h : Rep L m F C) (hq : q ∈ L) : m.contents q = (C q).map m.entry := by
  rw [contents, (h.chain q hq).walk_eq]
  simpa using (h.chain q hq).length_le

/-- A queue is empty exactly when its first pointer is null. -/
lemma first_eq_none_iff (h : Rep L m F C) (hq : q ∈ L) :
    (m.queue q).first = none ↔ m.contents q = [] := by
  rw [h.contents_eq hq, (h.chain q hq).head_eq]
  simp

/-- The first pointer is null exactly when the last one is. -/
lemma first_eq_none_iff_last (h : Rep L m F C) (hq : q ∈ L) :
    (m.queue q).first = none ↔ (m.queue q).last = none := by
  rw [(h.chain q hq).head_eq, h.last q hq]
  simp

end Rep

/-! ### Linking a node in and unlinking one -/

variable [DecidableEq Q]

/-- **Linking a free node in**: the first free node `i` moves between the prefix and the
suffix of the chain of `q`, and no other list changes. -/
lemma Rep.insert {pre post : List (Fin n)} {e : UInt32 × Option α}
    (h : Rep L m (i :: F) C) (hq : q ∈ L) (hC : C q = pre ++ post)
    (hnext : m'.next = splice m.next i pre.getLast? post.head?)
    (hentry : m'.entry = Function.update m.entry i e)
    (hfree : m'.freeQnodes = m.next i)
    (hqueue : m'.queue = Function.update m.queue q ⟨(m.queue q).hashfcn,
      spliceHead (m.queue q).first i pre.getLast?, spliceHead (m.queue q).last i post.head?⟩)
    (hsorted : (m.queue q).hashfcn ≠ none → Sorted ((pre ++ i :: post).map m'.entry)) :
    Rep L m' F (Function.update C q (pre ++ i :: post)) := by
  have hi : ∀ q', i ∉ C q' := fun q' => h.free_disjoint q' i (by simp)
  obtain ⟨hiF, -⟩ := List.nodup_cons.mp h.free.nodup
  have hprev : ∀ p ∈ pre.getLast?, p ∈ C q := fun p hp => by
    rw [hC]
    exact List.mem_append_left _ (List.mem_of_getLast? hp)
  have hentry' : ∀ l : List (Fin n), i ∉ l → l.map m'.entry = l.map m.entry := fun l hl => by
    refine List.map_congr_left fun j hj => ?_
    rw [hentry, Function.update_of_ne]
    rintro rfl
    exact hl hj
  have hmem : ∀ q' j, j ∈ Function.update C q (pre ++ i :: post) q' ↔
      j ∈ C q' ∨ (q' = q ∧ j = i) := by
    intro q' j
    by_cases hqq : q' = q
    · subst hqq
      rw [Function.update_self, hC]
      simp only [List.mem_append, List.mem_cons]
      tauto
    · rw [Function.update_of_ne hqq]
      simp [hqq]
  refine ⟨?_, fun q' hq' => ?_, fun q' hq' => ?_, fun q' hq' => ?_, fun q' j hj hj' => ?_,
    fun q₁ q₂ j h₁ h₂ => ?_, fun j => ?_, fun q' hq' hh => ?_⟩
  · rw [hnext, hfree]
    exact Chain.splice_of_notMem h.free.2 hiF fun p hp hpF =>
      h.free_disjoint q p (List.mem_cons_of_mem _ hpF) (hprev p hp)
  · by_cases hqq : q' = q
    · subst hqq
      rw [hnext, hqueue, Function.update_self, Function.update_self]
      have hchain := h.chain q' hq'
      rw [hC] at hchain
      exact hchain.splice (hC ▸ hi q')
    · rw [hnext, hqueue, Function.update_of_ne hqq, Function.update_of_ne hqq]
      exact (h.chain q' hq').splice_of_notMem (hi q') fun p hp hpC =>
        hqq (h.disjoint q' q p hpC (hprev p hp))
  · by_cases hqq : q' = q
    · subst hqq
      rw [hqueue, Function.update_self, Function.update_self]
      have hlast := h.last q' hq'
      rw [hC] at hlast
      cases post with
      | nil => simp [spliceHead]
      | cons j post => simpa [spliceHead, List.getLast?_append, List.getLast?_cons] using hlast
    · rw [hqueue, Function.update_of_ne hqq, Function.update_of_ne hqq]
      exact h.last q' hq'
  · rw [Function.update_of_ne fun hqq : q' = q => hq' (hqq ▸ hq)]
    exact h.unused q' hq'
  · rcases (hmem q' j).mp hj' with hj' | ⟨-, rfl⟩
    · exact h.free_disjoint q' j (List.mem_cons_of_mem _ hj) hj'
    · exact hiF hj
  · rcases (hmem q₁ j).mp h₁ with hj₁ | ⟨hq₁, hj₁⟩
    · rcases (hmem q₂ j).mp h₂ with hj₂ | ⟨-, hj₂⟩
      · exact h.disjoint q₁ q₂ j hj₁ hj₂
      · exact absurd (hj₂ ▸ hj₁) (hi q₁)
    · rcases (hmem q₂ j).mp h₂ with hj₂ | ⟨hq₂, -⟩
      · exact absurd (hj₁ ▸ hj₂) (hi q₂)
      · rw [hq₁, hq₂]
  · rcases h.cover j with hj | ⟨q', hj⟩
    · rcases List.mem_cons.mp hj with rfl | hj
      · exact Or.inr ⟨q, (hmem q j).mpr (Or.inr ⟨rfl, rfl⟩)⟩
      · exact Or.inl hj
    · exact Or.inr ⟨q', (hmem q' j).mpr (Or.inl hj)⟩
  · by_cases hqq : q' = q
    · subst hqq
      rw [hqueue, Function.update_self] at hh
      rw [Function.update_self]
      exact hsorted hh
    · rw [hqueue, Function.update_of_ne hqq] at hh
      rw [Function.update_of_ne hqq, hentry' _ (hi q')]
      exact h.sorted q' hq' hh

/-- **Unlinking a first node**: the node moves from the head of the chain of `q` to the
head of the free list, and no other list changes. -/
lemma Rep.remove {r : List (Fin n)} (h : Rep L m F C) (hq : q ∈ L) (hC : C q = i :: r)
    (hnext : m'.next = Function.update m.next i m.freeQnodes)
    (hentry : m'.entry = m.entry) (hfree : m'.freeQnodes = some i)
    (hqueue : m'.queue = Function.update m.queue q
      ⟨(m.queue q).hashfcn, r.head?, r.getLast?⟩) :
    Rep L m' (i :: F) (Function.update C q r) := by
  have hiq : i ∈ C q := by simp [hC]
  have hiF : i ∉ F := fun hF => h.free_disjoint q i hF hiq
  have hother : ∀ q', q' ≠ q → i ∉ C q' := fun q' hqq hi => hqq (h.disjoint q' q i hi hiq)
  have hchain := h.chain q hq
  rw [hC] at hchain
  obtain ⟨hir, -⟩ := List.nodup_cons.mp hchain.nodup
  have hsub : ∀ q' j, j ∈ Function.update C q r q' → j ∈ C q' ∧ j ≠ i := by
    intro q' j hj
    by_cases hqq : q' = q
    · subst hqq
      rw [Function.update_self] at hj
      rw [hC]
      exact ⟨List.mem_cons_of_mem _ hj, fun hji => hir (hji ▸ hj)⟩
    · rw [Function.update_of_ne hqq] at hj
      exact ⟨hj, fun hji => hother q' hqq (hji ▸ hj)⟩
  refine ⟨?_, fun q' hq' => ?_, fun q' hq' => ?_, fun q' hq' => ?_, fun q' j hj hj' => ?_,
    fun q₁ q₂ j h₁ h₂ => ?_, fun j => ?_, fun q' hq' hh => ?_⟩
  · rw [hnext, hfree]
    refine chain_cons.mpr ⟨rfl, ?_⟩
    rw [Function.update_self]
    exact h.free.update hiF
  · by_cases hqq : q' = q
    · subst hqq
      rw [hnext, hqueue, Function.update_self, Function.update_self]
      have htail := hchain.2.update (c := m.freeQnodes) hir
      rw [← Chain.head_eq hchain.2]
      exact htail
    · rw [hnext, hqueue, Function.update_of_ne hqq, Function.update_of_ne hqq]
      exact (h.chain q' hq').update (hother q' hqq)
  · by_cases hqq : q' = q
    · subst hqq
      rw [hqueue, Function.update_self, Function.update_self]
    · rw [hqueue, Function.update_of_ne hqq, Function.update_of_ne hqq]
      exact h.last q' hq'
  · rw [Function.update_of_ne fun hqq : q' = q => hq' (hqq ▸ hq)]
    exact h.unused q' hq'
  · obtain ⟨hj', hji⟩ := hsub q' j hj'
    rcases List.mem_cons.mp hj with rfl | hj
    · exact hji rfl
    · exact h.free_disjoint q' j hj hj'
  · exact h.disjoint q₁ q₂ j (hsub q₁ j h₁).1 (hsub q₂ j h₂).1
  · rcases h.cover j with hj | ⟨q', hj⟩
    · exact Or.inl (List.mem_cons_of_mem _ hj)
    · by_cases hji : j = i
      · exact Or.inl (by simp [hji])
      · refine Or.inr ⟨q', ?_⟩
        by_cases hqq : q' = q
        · subst hqq
          rw [hC] at hj
          rw [Function.update_self]
          exact (List.mem_cons.mp hj).resolve_left hji
        · rwa [Function.update_of_ne hqq]
  · by_cases hqq : q' = q
    · subst hqq
      rw [hqueue, Function.update_self] at hh
      rw [Function.update_self, hentry]
      have hsort := h.sorted q' hq' hh
      rw [hC, List.map_cons] at hsort
      exact hsort.tail
    · rw [hqueue, Function.update_of_ne hqq] at hh
      rw [Function.update_of_ne hqq, hentry]
      exact h.sorted q' hq' hh

/-! ### The operations keep the invariant -/

section Operations

variable {mem : M} {data : Option α}

omit [DecidableEq Q] in
/-- The search stops behind the last node at the front whose key is at most `key`. -/
lemma search_eq (key : UInt32) {f : Fin n → UInt32} :
    ∀ {l : List (Fin n)} {fuel : ℕ} {a : Option (Fin n)} (prev : Option (Fin n)),
    Chain m.next a l → l.length ≤ fuel → (∀ j ∈ l, (m.entry j).1 = f j) →
    m.search key fuel prev a =
      (((l.takeWhile fun i => f i ≤ key).getLast?).or prev,
        (l.dropWhile fun i => f i ≤ key).head?)
  | [], fuel, a, prev, h, _, _ => by
      rw [chain_nil.mp h]
      cases fuel <;> simp [search]
  | i :: l, 0, _, _, _, hlen, _ => by simp at hlen
  | i :: l, fuel + 1, a, prev, h, hlen, hf => by
      obtain ⟨rfl, h'⟩ := chain_cons.mp h
      have ih := search_eq key (some i) h' (by simpa using hlen)
        fun j hj => hf j (by simp [hj])
      rw [search, key_eq, next_eq, hf i (by simp)]
      by_cases hk : f i ≤ key
      · rw [if_pos hk, ih]
        simp only [hk, decide_true, List.takeWhile_cons_of_pos, List.getLast?_cons,
          List.dropWhile_cons_of_pos]
        cases (l.takeWhile fun i => decide (f i ≤ key)).getLast? <;> rfl
      · rw [if_neg hk]
        simp [hk]

omit [DecidableEq Q] in
/-- An allocation from a non-empty free list. -/
lemma qnAlloc_eq (h : m.freeQnodes = some i) :
    ∃ m₁, m.qnAlloc = (some i, m₁) ∧ m₁.next = Function.update m.next i none
      ∧ m₁.entry = Function.update m.entry i (0, none) ∧ m₁.freeQnodes = m.next i
      ∧ m₁.queue = m.queue := by
  have halloc : m.qnAlloc = (some i, ((({ m with freeQnodes := m.next i } :
      QMem n Q M α).setNext i none).setData i none).setKey i 0) := by
    rw [qnAlloc, h]
    rfl
  refine ⟨_, halloc, ?_, ?_, rfl, rfl⟩
  · simp only [next_setKey, next_setData, next_setNext]
    rfl
  · simp only [entry_setKey, entry_setData, entry_setNext, Function.update_self,
      Function.update_idem]
    rfl

/-- The key `_q_insert` gives to a new node. -/
def newKey (hashfcn : Option (M → Option α → UInt32)) (mem : M) (data : Option α) : UInt32 :=
  match hashfcn with
  | some hashfcn => hashfcn mem data
  | none => 0

/-- The contents of a queue after an insertion: at the end if the queue has no hash
function, else behind every entry whose key is at most the new one. -/
def insertEntry (hashfcn : Option (M → Option α → UInt32)) (mem : M) (data : Option α)
    (l : List (UInt32 × Option α)) : List (UInt32 × Option α) :=
  match hashfcn with
  | some hashfcn => stableInsert (hashfcn mem data) data l
  | none => l ++ [(0, data)]

/-- An insertion fails exactly when the free list is empty, and then it stores nothing. -/
lemma Rep.qInsert_fail (h : Rep L m [] C) : m.qInsert mem q data = (.allocFail, m) := by
  have hfree : m.freeQnodes = none := h.free
  rw [QMem.qInsert, qnAlloc, hfree]

omit [DecidableEq Q] in
lemma map_update_entry {e : UInt32 × Option α} {l : List (Fin n)} (hl : i ∉ l) :
    l.map (Function.update m.entry i e) = l.map m.entry := by
  refine List.map_congr_left fun j hj => ?_
  rw [Function.update_of_ne]
  rintro rfl
  exact hl hj

lemma splice_update_self (next : Fin n → Option (Fin n)) (v prev curr : Option (Fin n)) :
    splice (Function.update next i v) i prev curr = splice next i prev curr := by
  cases prev <;> simp [splice]

/-- Linking an allocated node, its entry `e` filled in, behind `pre`. -/
lemma Rep.link {pre post : List (Fin n)} {e : UInt32 × Option α} {m₂ : QMem n Q M α}
    (h : Rep L m (i :: F) C) (hq : q ∈ L) (hC : C q = pre ++ post)
    (hn : m₂.next = Function.update m.next i none)
    (he : m₂.entry = Function.update m.entry i e) (hf : m₂.freeQnodes = m.next i)
    (hqueue : m₂.queue = m.queue)
    (hsorted : (m.queue q).hashfcn ≠ none → Sorted ((pre ++ i :: post).map m₂.entry)) :
    Rep L (m₂.link q i pre.getLast? post.head?) F (Function.update C q (pre ++ i :: post)) := by
  refine h.insert (e := e) hq hC ?_ ?_ ?_ ?_ fun hh => ?_
  · rw [next_link, hn, splice_update_self]
  · rw [entry_link, he]
  · rw [freeQnodes_link, hf]
  · rw [queue_link, hqueue]
  · rw [entry_link]
    exact hsorted hh

/-- **An insertion** links the first free node into the chain of `q`. -/
lemma Rep.qInsert (mem : M) (data : Option α) (h : Rep L m (i :: F) C) (hq : q ∈ L) :
    ∃ m' pre post, m.qInsert mem q data = (.success, m') ∧ C q = pre ++ post
      ∧ Rep L m' F (Function.update C q (pre ++ i :: post))
      ∧ m'.entry = Function.update m.entry i (newKey (m.queue q).hashfcn mem data, data)
      ∧ (∀ q', (m'.queue q').hashfcn = (m.queue q').hashfcn)
      ∧ (pre ++ i :: post).map m'.entry
        = insertEntry (m.queue q).hashfcn mem data ((C q).map m.entry) := by
  obtain ⟨m₁, halloc, hn₁, he₁, hf₁, hq₁⟩ := qnAlloc_eq h.free.1
  have hi : i ∉ C q := h.free_disjoint q i (by simp)
  have hhash : ∀ {m₂ : QMem n Q M α} (prev curr : Option (Fin n)), m₂.queue = m.queue →
      ∀ q', ((m₂.link q i prev curr).queue q').hashfcn = (m.queue q').hashfcn := by
    intro m₂ prev curr hm₂ q'
    rw [queue_link, hm₂]
    by_cases hqq : q' = q <;> simp [hqq]
  cases hh : (m.queue q).hashfcn with
  | none =>
      set m₂ := m₁.setData i data with hm₂
      have he₂ : m₂.entry = Function.update m.entry i (0, data) := by simp [hm₂, he₁]
      have hres : m.qInsert mem q data
          = (.success, m₂.link q i (C q).getLast? ([] : List (Fin n)).head?) := by
        rw [QMem.qInsert, halloc]
        simp only [queue_setData, hq₁, hh, h.last q hq]
        rfl
      refine ⟨_, C q, [], hres, by simp, ?_, ?_, hhash _ _ hq₁, ?_⟩
      · exact h.link hq (by simp) (by simpa [hm₂] using hn₁) he₂ hf₁ hq₁ (absurd hh)
      · rw [entry_link, he₂, newKey]
      · rw [entry_link, he₂, List.map_append, map_update_entry hi]
        simp [insertEntry]
  | some f =>
      set key := f mem data with hkey
      set pre := (C q).takeWhile fun j => (m.entry j).1 ≤ key with hpre
      set post := (C q).dropWhile fun j => (m.entry j).1 ≤ key with hpost
      have hC : C q = pre ++ post := List.takeWhile_append_dropWhile.symm
      have hik : i ∉ pre ∧ i ∉ post := by
        rw [hC] at hi
        simpa using hi
      set m₂ := (m₁.setData i data).setKey i key with hm₂
      have hn₂ : m₂.next = Function.update m.next i none := by simp [hm₂, hn₁]
      have he₂ : m₂.entry = Function.update m.entry i (key, data) := by simp [hm₂, he₁]
      have hsearch : m₂.search key n none (m₂.queue q).first = (pre.getLast?, post.head?) := by
        have hchain : Chain m₂.next (m₂.queue q).first (C q) := by
          rw [hn₂, show m₂.queue = m.queue from hq₁]
          exact (h.chain q hq).update hi
        have hlen : (C q).length ≤ n := by simpa using (h.chain q hq).length_le
        have hkeys : ∀ j ∈ C q, (m₂.entry j).1 = (m.entry j).1 := fun j hj => by
          rw [he₂, Function.update_of_ne]
          rintro rfl
          exact hi hj
        rw [search_eq key none hchain hlen hkeys, Option.or_none]
      have hins : (pre ++ i :: post).map m₂.entry
          = stableInsert key data ((C q).map m.entry) := by
        rw [he₂, stableInsert_eq, due, later, List.takeWhile_map, List.dropWhile_map,
          List.map_append, List.map_cons, Function.update_self, map_update_entry hik.1,
          map_update_entry hik.2]
        rfl
      have hres : m.qInsert mem q data
          = (.success, m₂.link q i pre.getLast? post.head?) := by
        have hk : (m₂.qnodes i).key = key := by rw [key_eq, he₂, Function.update_self]
        rw [QMem.qInsert, halloc]
        simp only [queue_setData, hq₁, hh]
        rw [← hkey, ← hm₂, hk, hsearch]
      refine ⟨_, pre, post, hres, hC, ?_, ?_, hhash _ _ hq₁, ?_⟩
      · refine h.link hq hC hn₂ he₂ hf₁ hq₁ fun _ => ?_
        rw [hins]
        exact sorted_stableInsert (h.sorted q hq (by simp [hh]))
      · rw [entry_link, he₂, newKey]
      · rw [entry_link, hins, insertEntry]

/-- A removal from an empty queue returns null and stores nothing. -/
lemma Rep.qRemove_nil (h : Rep L m F C) (hq : q ∈ L) (hC : C q = []) :
    m.qRemove q = (none, m) := by
  have hfirst : (m.queue q).first = none := by rw [(h.chain q hq).head_eq, hC]; rfl
  rw [QMem.qRemove, hfirst]

/-- **A removal** returns the data of the first node and puts the node back on the free
list. -/
lemma Rep.qRemove {r : List (Fin n)} (h : Rep L m F C) (hq : q ∈ L) (hC : C q = i :: r) :
    ∃ m', m.qRemove q = ((m.entry i).2, m') ∧ Rep L m' (i :: F) (Function.update C q r)
      ∧ m'.entry = m.entry ∧ ∀ q', (m'.queue q').hashfcn = (m.queue q').hashfcn := by
  have hchain := h.chain q hq
  rw [hC] at hchain
  have hfirst : (m.queue q).first = some i := hchain.1
  have hnext : m.next i = r.head? := Chain.head_eq hchain.2
  set m₁ := if r.head?.isNone then (m.setFirst q r.head?).setLast q none
    else m.setFirst q r.head? with hm₁
  have hres : m.qRemove q = ((m.entry i).2, m₁.qnDealloc (some i)) := by
    rw [QMem.qRemove, hfirst]
    simp only [next_eq, hnext, queue_setFirst, Function.update_self, data_eq]
    rfl
  have hm₁n : m₁.next = m.next ∧ m₁.entry = m.entry ∧ m₁.freeQnodes = m.freeQnodes := by
    cases hr : r.head? <;> simp [hm₁, hr]
  have hm₁q : m₁.queue = Function.update m.queue q
      ⟨(m.queue q).hashfcn, r.head?, r.getLast?⟩ := by
    have hlast := h.last q hq
    rw [hC] at hlast
    cases r with
    | nil => simp [hm₁]
    | cons j r =>
        have hlast' : (m.queue q).last = (j :: r).getLast? := by
          simpa [List.getLast?_cons] using hlast
        rw [← hlast']
        simp [hm₁]
  refine ⟨_, hres, ?_, ?_, fun q' => ?_⟩
  · refine h.remove hq hC ?_ ?_ rfl ?_
    · calc (m₁.setNext i m₁.freeQnodes).next
          = Function.update m₁.next i m₁.freeQnodes := next_setNext _ _ _
        _ = Function.update m.next i m.freeQnodes := by rw [hm₁n.1, hm₁n.2.2]
    · calc (m₁.setNext i m₁.freeQnodes).entry = m₁.entry := entry_setNext _ _ _
        _ = m.entry := hm₁n.2.1
    · exact hm₁q
  · calc (m₁.setNext i m₁.freeQnodes).entry = m₁.entry := entry_setNext _ _ _
      _ = m.entry := hm₁n.2.1
  · change (m₁.queue q').hashfcn = _
    rw [hm₁q]
    by_cases hqq : q' = q <;> simp [hqq]

/-- A conditional removal is a removal if the first key is at most `key` and nothing
otherwise. -/
lemma Rep.qRemoveIfLe_eq (h : Rep L m F C) (hq : q ∈ L) (key : UInt32) :
    m.qRemoveIfLe q key =
      match C q with
      | [] => (none, m)
      | i :: _ => if (m.entry i).1 ≤ key then m.qRemove q else (none, m) := by
  have hfirst := (h.chain q hq).head_eq
  cases hC : C q with
  | nil => rw [qRemoveIfLe, hfirst, hC]; rfl
  | cons i r => rw [qRemoveIfLe, hfirst, hC]; rfl

/-- A reset of a queue that is not in use yet, or empty, makes it an empty queue in
use. -/
lemma Rep.qReset (h : Rep L m F C) (fcn : Option (M → Option α → UInt32))
    (hC : C q = []) : Rep (Insert.insert q L) (m.qReset q fcn) F C := by
  have hq' : ∀ {q'}, q' ∈ Insert.insert q L → q' ≠ q → q' ∈ L := fun hmem hne =>
    (Set.mem_insert_iff.mp hmem).resolve_left hne
  have hqueue : (m.qReset q fcn).queue = Function.update m.queue q ⟨fcn, none, none⟩ := rfl
  refine ⟨h.free, fun q' hmem => ?_, fun q' hmem => ?_, fun q' hmem => ?_, h.free_disjoint,
    h.disjoint, h.cover, fun q' hmem hh => ?_⟩
  · by_cases hqq : q' = q
    · subst hqq
      rw [hqueue, Function.update_self, hC]
      rfl
    · rw [hqueue, Function.update_of_ne hqq]
      exact h.chain q' (hq' hmem hqq)
  · by_cases hqq : q' = q
    · subst hqq
      rw [hqueue, Function.update_self, hC]
      rfl
    · rw [hqueue, Function.update_of_ne hqq]
      exact h.last q' (hq' hmem hqq)
  · exact h.unused q' fun hL => hmem (Set.mem_insert_of_mem q hL)
  · by_cases hqq : q' = q
    · subst hqq
      rw [hC]
      exact sorted_nil
    · rw [hqueue, Function.update_of_ne hqq] at hh
      exact h.sorted q' (hq' hmem hqq) hh

end Operations

/-! ### Initialisation -/

omit [DecidableEq Q] in
/-- The loop of `_q_init` over the nodes `l`: each of them goes to the head of the free
list. -/
lemma foldl_qnDealloc : ∀ (l : List (Fin n)) (m : QMem n Q M α) (F : List (Fin n)),
    Chain m.next m.freeQnodes F → (l ++ F).Nodup →
    Chain (l.foldl (fun m i => m.qnDealloc (some i)) m).next
      (l.foldl (fun m i => m.qnDealloc (some i)) m).freeQnodes (l.reverse ++ F)
  | [], _, _, h, _ => h
  | i :: l, m, F, h, hnd => by
      obtain ⟨hi, hnd⟩ := List.nodup_cons.mp hnd
      rw [List.foldl_cons, List.reverse_cons, List.append_assoc]
      refine foldl_qnDealloc l _ (i :: F) ⟨rfl, ?_⟩ ?_
      · change Chain (m.setNext i m.freeQnodes).next ((m.setNext i m.freeQnodes).next i) F
        rw [next_setNext, Function.update_self]
        exact h.update fun hF => hi (List.mem_append_right _ hF)
      · exact List.nodup_middle.mpr (List.nodup_cons.mpr ⟨hi, hnd⟩)

omit [DecidableEq Q] in
/-- After `_q_init` every node is on the free list, whatever was in memory. -/
lemma rep_qInit (m : QMem n Q M α) :
    Rep ∅ m.qInit (List.finRange n).reverse fun _ => [] := by
  refine ⟨?_, fun q hq => absurd hq (Set.notMem_empty q), fun q hq => absurd hq
    (Set.notMem_empty q), fun _ _ => rfl, fun _ _ _ => List.not_mem_nil, fun _ _ i hi =>
    absurd hi List.not_mem_nil, fun i => Or.inl (by simp), fun q hq => absurd hq
    (Set.notMem_empty q)⟩
  have h := foldl_qnDealloc (List.finRange n)
    { m with qnodes := fun _ => ⟨0, none, none⟩, freeQnodes := none } [] rfl
    (by simpa using List.nodup_finRange n)
  rw [List.append_nil] at h
  exact h

/-! ### Every sequence of operations -/

/-- The memories reached from `_q_init`, with the set of the queues in use: a queue comes
into use when it is reset, a queue in use is reset only while it is empty, and the other
operations work on queues in use. -/
inductive Reached (m₀ : QMem n Q M α) : Set Q → QMem n Q M α → Prop
  | init : Reached m₀ ∅ m₀.qInit
  | reset {L : Set Q} {m : QMem n Q M α} (h : Reached m₀ L m) (q : Q)
      (fcn : Option (M → Option α → UInt32)) (hempty : q ∈ L → (m.queue q).isEmpty) :
      Reached m₀ (insert q L) (m.qReset q fcn)
  | insert {L : Set Q} {m : QMem n Q M α} (h : Reached m₀ L m) {q : Q} (hq : q ∈ L)
      (mem : M) (data : Option α) : Reached m₀ L (m.qInsert mem q data).2
  | remove {L : Set Q} {m : QMem n Q M α} (h : Reached m₀ L m) {q : Q} (hq : q ∈ L) :
      Reached m₀ L (m.qRemove q).2
  | removeIfLe {L : Set Q} {m : QMem n Q M α} (h : Reached m₀ L m) {q : Q} (hq : q ∈ L)
      (key : UInt32) : Reached m₀ L (m.qRemoveIfLe q key).2

lemma WellFormed.qInsert (h : WellFormed L m) (hq : q ∈ L) (mem : M) (data : Option α) :
    WellFormed L (m.qInsert mem q data).2 := by
  obtain ⟨F, C, h⟩ := h
  cases F with
  | nil =>
      rw [h.qInsert_fail]
      exact ⟨[], C, h⟩
  | cons i F =>
      obtain ⟨m', pre, post, heq, -, h', -⟩ := h.qInsert mem data hq
      rw [heq]
      exact ⟨F, _, h'⟩

lemma WellFormed.qRemove (h : WellFormed L m) (hq : q ∈ L) :
    WellFormed L (m.qRemove q).2 := by
  obtain ⟨F, C, h⟩ := h
  cases hC : C q with
  | nil =>
      rw [h.qRemove_nil hq hC]
      exact ⟨F, C, h⟩
  | cons i r =>
      obtain ⟨m', heq, h', -⟩ := h.qRemove hq hC
      rw [heq]
      exact ⟨i :: F, _, h'⟩

lemma WellFormed.qRemoveIfLe (h : WellFormed L m) (hq : q ∈ L) (key : UInt32) :
    WellFormed L (m.qRemoveIfLe q key).2 := by
  have hrem := h.qRemove hq
  obtain ⟨F, C, h⟩ := h
  rw [h.qRemoveIfLe_eq hq]
  cases C q with
  | nil => exact ⟨F, C, h⟩
  | cons i r =>
      change WellFormed L (if (m.entry i).1 ≤ key then m.qRemove q else (none, m)).2
      split_ifs
      · exact hrem
      · exact ⟨F, C, h⟩

lemma WellFormed.qReset (h : WellFormed L m) (fcn : Option (M → Option α → UInt32))
    (hempty : q ∈ L → (m.queue q).isEmpty) : WellFormed (insert q L) (m.qReset q fcn) := by
  obtain ⟨F, C, h⟩ := h
  refine ⟨F, C, h.qReset fcn ?_⟩
  by_cases hq : q ∈ L
  · have hnone : (m.queue q).first = none := by
      simpa [Queue.isEmpty] using hempty hq
    rw [(h.chain q hq).head_eq] at hnone
    simpa using hnone
  · exact h.unused q hq

lemma Reached.wellFormed {m₀ : QMem n Q M α} (h : Reached m₀ L m) : WellFormed L m := by
  induction h with
  | init => exact ⟨_, _, rep_qInit m₀⟩
  | reset _ q fcn hempty ih => exact ih.qReset fcn hempty
  | insert _ hq mem data ih => exact ih.qInsert hq mem data
  | remove _ hq ih => exact ih.qRemove hq
  | removeIfLe _ hq key ih => exact ih.qRemoveIfLe hq key

/-- **The representation invariant holds after every sequence of operations**: the free
list and the chains of the queues in use are acyclic, meet every node exactly once, and
have the right end pointers and key order. -/
theorem queues_wellFormed {m₀ : QMem n Q M α} (h : Reached m₀ L m) :
    ∃ F C, Rep L m F C ∧ F.Nodup ∧ (∀ q ∈ L, (C q).Nodup)
      ∧ ∀ q ∈ L, ((m.queue q).first = none ↔ (m.queue q).last = none) := by
  obtain ⟨F, C, hrep⟩ := h.wellFormed
  exact ⟨F, C, hrep, hrep.free.nodup, fun q hq => (hrep.chain q hq).nodup,
    fun q hq => hrep.first_eq_none_iff_last hq⟩

/-- The memory of two queues over three nodes before `_q_init`: links and headers hold
rubbish. -/
def rubbish : QMem 3 Bool Unit UInt32 where
  qnodes i := ⟨7, some 7, some i⟩
  freeQnodes := some 2
  queue _ := ⟨none, some 0, some 1⟩

/-- Both queues are reset, one of them to be ordered by its data, and get an entry each. -/
def twoQueues : QMem 3 Bool Unit UInt32 :=
  let m := (rubbish.qInit.qReset true (some fun _ data => data.getD 0)).qReset false none
  ((m.qInsert () true (some 5)).2.qInsert () false (some 3)).2

lemma reached_twoQueues : Reached rubbish (insert false (insert true ∅)) twoQueues :=
  .insert (.insert (.reset (.reset .init true _ fun h => absurd h (Set.notMem_empty _)) false none
    (fun h => absurd h (by simp))) (Or.inr (Or.inl rfl)) () (some 5)) (Or.inl rfl) () (some 3)

theorem queues_wellFormed_twoQueues :
    ∃ F C, Rep (insert false (insert true ∅)) twoQueues F C ∧ F.Nodup
      ∧ (∀ q ∈ (insert false (insert true ∅) : Set Bool), (C q).Nodup)
      ∧ ∀ q ∈ (insert false (insert true ∅) : Set Bool),
        ((twoQueues.queue q).first = none ↔ (twoQueues.queue q).last = none) :=
  queues_wellFormed reached_twoQueues

end QMem

end Sp2
