import Sp2.Kernel.Defs

/-!
The queues of the kernel: one node pool, eleven queue headers, typed entries.

* `QSys`: a queue memory that satisfies the representation invariant, whose ordered queue
  is `_sleeping`, and whose entries point to objects of the kind their queue is for. The
  operations `insert`, `remove`, `removeIfLe` keep all of this, so a broken queue memory
  cannot be built.
* `items` and `avail`: the typed entries of a queue and the number of free nodes, and what
  each operation does to them (`items_insert`, `avail_insert`, `items_remove`, ...).
* `avail_add_length`: the pool equation.
-/

namespace Sp2

open Linked Keyed

/-- The queue memory of the kernel. -/
structure QSys where
  mem : QMem numQnodes QueueName (PcbId → Pcb) Obj
  wellFormed : mem.WellFormed Set.univ
  hash : ∀ q, (mem.queue q).hashfcn = q.hashfcn
  typed : ∀ q, ∀ e ∈ mem.contents q, ∃ x : q.Elem, e.2 = some (q.obj x)

namespace QSys

variable (k : QSys) (pcbs : PcbId → Pcb)

/-- The entries of a queue, first to last. -/
def items (q : QueueName) : List (UInt32 × q.Elem) :=
  (k.mem.contents q).filterMap fun e => (e.2.bind q.elem?).map (e.1, ·)

/-- The number of free nodes. -/
def avail : ℕ := k.mem.freeNodes.length

/-- The key of a new entry. -/
def newKey (q : QueueName) (x : q.Elem) : UInt32 :=
  QMem.newKey q.hashfcn pcbs (some (q.obj x))

/-- The entries of a queue after an insertion. -/
def insertItem (q : QueueName) (x : q.Elem) (l : List (UInt32 × q.Elem)) :
    List (UInt32 × q.Elem) :=
  match q.hashfcn with
  | some hashfcn => stableInsert (hashfcn pcbs (some (q.obj x))) x l
  | none => l ++ [(0, x)]

/-! ### Typed entries and untyped contents -/

/-- The untyped entry of a typed one. -/
def untype {q : QueueName} (e : UInt32 × q.Elem) : UInt32 × Option Obj := (e.1, some (q.obj e.2))

lemma filterMap_untype {q : QueueName} (l : List (UInt32 × q.Elem)) :
    (l.map untype).filterMap (fun e => (e.2.bind q.elem?).map (e.1, ·)) = l := by
  induction l with
  | nil => rfl
  | cons e l ih =>
      rw [List.map_cons, List.filterMap_cons, ih]
      simp [untype]

lemma exists_untype {q : QueueName} {c : List (UInt32 × Option Obj)}
    (h : ∀ e ∈ c, ∃ x : q.Elem, e.2 = some (q.obj x)) :
    ∃ l : List (UInt32 × q.Elem), c = l.map untype := by
  induction c with
  | nil => exact ⟨[], rfl⟩
  | cons e c ih =>
      obtain ⟨x, hx⟩ := h e (by simp)
      obtain ⟨l, rfl⟩ := ih fun e he => h e (by simp [he])
      exact ⟨(e.1, x) :: l, by simp [untype, ← hx]⟩

lemma contents_eq (q : QueueName) : k.mem.contents q = (k.items q).map untype := by
  obtain ⟨l, hl⟩ := exists_untype (k.typed q)
  rw [items, hl, filterMap_untype]

lemma items_of_contents {q : QueueName} {l : List (UInt32 × q.Elem)}
    (h : k.mem.contents q = l.map untype) : k.items q = l := by
  rw [items, h, filterMap_untype]

lemma typed_of_contents {q : QueueName} {l : List (UInt32 × q.Elem)}
    {c : List (UInt32 × Option Obj)} (h : c = l.map untype) :
    ∀ e ∈ c, ∃ x : q.Elem, e.2 = some (q.obj x) := by
  subst h
  intro e he
  obtain ⟨e', -, rfl⟩ := List.mem_map.mp he
  exact ⟨e'.2, rfl⟩

lemma length_items (q : QueueName) : (k.items q).length = (k.mem.contents q).length := by
  rw [k.contents_eq q, List.length_map]

lemma insertEntry_untype (q : QueueName) (x : q.Elem) (l : List (UInt32 × q.Elem)) :
    QMem.insertEntry q.hashfcn pcbs (some (q.obj x)) (l.map untype)
      = (insertItem pcbs q x l).map untype := by
  cases h : q.hashfcn with
  | none => simp [QMem.insertEntry, insertItem, h, untype]
  | some hashfcn =>
      rw [insertItem, h]
      simp only [QMem.insertEntry, stableInsert_eq, due, later, List.takeWhile_map,
        List.dropWhile_map, List.map_append, List.map_cons]
      rfl

/-! ### The operations -/

/-- A memory whose contents differ from those of `k` by typed lists is a queue memory. -/
def ofContents (m : QMem numQnodes QueueName (PcbId → Pcb) Obj)
    (hm : m.WellFormed Set.univ) (hash : ∀ q, (m.queue q).hashfcn = (k.mem.queue q).hashfcn)
    (hitems : ∀ q, ∃ l : List (UInt32 × q.Elem), m.contents q = l.map untype) : QSys where
  mem := m
  wellFormed := hm
  hash q := by rw [hash, k.hash]
  typed q := by
    obtain ⟨l, hl⟩ := hitems q
    exact typed_of_contents hl

/-- What an insertion does to the memory. -/
lemma insert_spec (q : QueueName) (x : q.Elem) :
    ∃ m', k.mem.qInsert pcbs q (some (q.obj x))
        = (if k.avail = 0 then .allocFail else .success, m')
      ∧ m'.WellFormed Set.univ ∧ m'.freeNodes.length = k.avail - 1
      ∧ (∀ q', (m'.queue q').hashfcn = (k.mem.queue q').hashfcn)
      ∧ ∀ q', m'.contents q' = ((if k.avail = 0 then k.items
          else Function.update k.items q (insertItem pcbs q x (k.items q))) q').map untype := by
  by_cases hfree : k.mem.freeNodes = []
  · have havail : k.avail = 0 := by rw [avail, hfree]; rfl
    refine ⟨k.mem, ?_, k.wellFormed, ?_, fun _ => rfl, fun q' => ?_⟩
    · rw [k.wellFormed.insert_fail hfree, if_pos havail]
    · rw [hfree, havail]
      rfl
    · rw [if_pos havail, k.contents_eq q']
  · have havail : k.avail ≠ 0 := by simpa [avail] using hfree
    obtain ⟨m', heq, hm', hF, hc, hh⟩ :=
      k.wellFormed.insert_eq pcbs (some (q.obj x)) (Set.mem_univ q) hfree
    refine ⟨m', by rw [heq, if_neg havail], hm', ?_, hh, fun q' => ?_⟩
    · rw [hF, List.length_tail, avail]
    · rw [if_neg havail, hc q' (Set.mem_univ q')]
      by_cases hqq : q' = q
      · subst hqq
        rw [Function.update_self, Function.update_self, k.hash, k.contents_eq q',
          insertEntry_untype]
      · rw [Function.update_of_ne hqq, Function.update_of_ne hqq, k.contents_eq q']

/-- `_q_insert` of a typed object. -/
def insert (q : QueueName) (x : q.Elem) : Stat × QSys :=
  let r := k.mem.qInsert pcbs q (some (q.obj x))
  (r.1, k.ofContents r.2
    (by
      obtain ⟨m', heq, hm', -⟩ := k.insert_spec pcbs q x
      simpa only [r, heq] using hm')
    (by
      obtain ⟨m', heq, -, -, hh, -⟩ := k.insert_spec pcbs q x
      simpa only [r, heq] using hh)
    (by
      obtain ⟨m', heq, -, -, -, hc⟩ := k.insert_spec pcbs q x
      exact fun q' => ⟨_, by simpa only [r, heq] using hc q'⟩))

/-- What a removal does to the memory. -/
lemma remove_spec (q : QueueName) :
    ∃ m', k.mem.qRemove q = ((k.items q).head?.map fun e => q.obj e.2, m')
      ∧ m'.WellFormed Set.univ
      ∧ m'.freeNodes.length = k.avail + (if k.items q = [] then 0 else 1)
      ∧ (∀ q', (m'.queue q').hashfcn = (k.mem.queue q').hashfcn)
      ∧ ∀ q', m'.contents q' = (Function.update k.items q (k.items q).tail q').map untype := by
  have hc := k.contents_eq q
  cases hi : k.items q with
  | nil =>
      rw [hi] at hc
      refine ⟨k.mem, k.wellFormed.remove_nil (Set.mem_univ q) hc, k.wellFormed, rfl,
        fun _ => rfl, fun q' => ?_⟩
      rw [List.tail_nil, ← hi, Function.update_eq_self, k.contents_eq q']
  | cons e r =>
      rw [hi, List.map_cons] at hc
      obtain ⟨m', heq, hm', hF, hc', hh⟩ := k.wellFormed.remove_eq (Set.mem_univ q) hc
      refine ⟨m', heq, hm', hF, hh, fun q' => ?_⟩
      rw [hc' q' (Set.mem_univ q')]
      by_cases hqq : q' = q
      · subst hqq
        rw [Function.update_self, Function.update_self, List.tail_cons]
      · rw [Function.update_of_ne hqq, Function.update_of_ne hqq, k.contents_eq q']

/-- `_q_remove`, with the result cast back. -/
def remove (q : QueueName) : Option q.Elem × QSys :=
  let r := k.mem.qRemove q
  (r.1.bind q.elem?, k.ofContents r.2
    (by
      obtain ⟨m', heq, hm', -⟩ := k.remove_spec q
      simpa only [r, heq] using hm')
    (by
      obtain ⟨m', heq, -, -, hh, -⟩ := k.remove_spec q
      simpa only [r, heq] using hh)
    (by
      obtain ⟨m', heq, -, -, -, hc⟩ := k.remove_spec q
      exact fun q' => ⟨_, by simpa only [r, heq] using hc q'⟩))

/-- A conditional removal is a removal if the first key is at most `key` and nothing
otherwise. -/
lemma removeIfLe_spec (q : QueueName) (key : UInt32) :
    k.mem.qRemoveIfLe q key
      = if ∃ e ∈ (k.items q).head?, e.1 ≤ key then k.mem.qRemove q else (none, k.mem) := by
  rw [k.wellFormed.removeIfLe_eq (Set.mem_univ q), k.contents_eq q]
  cases k.items q with
  | nil => simp
  | cons e r =>
      change (if e.1 ≤ key then k.mem.qRemove q else (none, k.mem)) = _
      simp

/-- `_q_remove_if_le`, with the result cast back. -/
def removeIfLe (q : QueueName) (key : UInt32) : Option q.Elem × QSys :=
  let r := k.mem.qRemoveIfLe q key
  (r.1.bind q.elem?, k.ofContents r.2
    (by
      obtain ⟨m', heq, hm', -⟩ := k.remove_spec q
      simp only [r, removeIfLe_spec]
      split_ifs
      · simpa only [heq] using hm'
      · exact k.wellFormed)
    (by
      obtain ⟨m', heq, -, -, hh, -⟩ := k.remove_spec q
      simp only [r, removeIfLe_spec]
      split_ifs
      · simpa only [heq] using hh
      · exact fun _ => rfl)
    (by
      obtain ⟨m', heq, -, -, -, hc⟩ := k.remove_spec q
      simp only [r, removeIfLe_spec]
      split_ifs
      · exact fun q' => ⟨_, by simpa only [heq] using hc q'⟩
      · exact fun q' => ⟨_, k.contents_eq q'⟩))

/-- `_q_isempty`. -/
def isEmpty (q : QueueName) : Bool := (k.mem.queue q).isEmpty

/-! ### What the operations do to the entries -/

section Entries

variable (q : QueueName) (x : q.Elem) (key : UInt32)

lemma isEmpty_eq : k.isEmpty q = (k.items q).isEmpty := by
  rw [Bool.eq_iff_iff, isEmpty, k.wellFormed.isEmpty_iff (Set.mem_univ q), k.contents_eq q,
    List.map_eq_nil_iff, List.isEmpty_iff]

/-- An insertion fails exactly when no node is free. -/
lemma insert_fst : (k.insert pcbs q x).1 = if k.avail = 0 then .allocFail else .success := by
  obtain ⟨m', heq, -⟩ := k.insert_spec pcbs q x
  change (k.mem.qInsert pcbs q (some (q.obj x))).1 = _
  rw [heq]

lemma avail_insert : (k.insert pcbs q x).2.avail = k.avail - 1 := by
  obtain ⟨m', heq, -, hF, -⟩ := k.insert_spec pcbs q x
  change (k.mem.qInsert pcbs q (some (q.obj x))).2.freeNodes.length = _
  rw [heq, hF]

lemma items_insert : (k.insert pcbs q x).2.items = if k.avail = 0 then k.items
    else Function.update k.items q (insertItem pcbs q x (k.items q)) := by
  obtain ⟨m', heq, -, -, -, hc⟩ := k.insert_spec pcbs q x
  funext q'
  refine items_of_contents _ ?_
  change (k.mem.qInsert pcbs q (some (q.obj x))).2.contents q' = _
  rw [heq, hc q']

lemma remove_fst : (k.remove q).1 = (k.items q).head?.map Prod.snd := by
  obtain ⟨m', heq, -⟩ := k.remove_spec q
  change (k.mem.qRemove q).1.bind q.elem? = _
  rw [heq]
  cases (k.items q).head? <;> simp

lemma avail_remove :
    (k.remove q).2.avail = k.avail + (if k.items q = [] then 0 else 1) := by
  obtain ⟨m', heq, -, hF, -⟩ := k.remove_spec q
  change (k.mem.qRemove q).2.freeNodes.length = _
  rw [heq, hF]

lemma items_remove : (k.remove q).2.items = Function.update k.items q (k.items q).tail := by
  obtain ⟨m', heq, -, -, -, hc⟩ := k.remove_spec q
  funext q'
  refine items_of_contents _ ?_
  change (k.mem.qRemove q).2.contents q' = _
  rw [heq, hc q']

/-- A conditional removal looks at the first key only. -/
lemma removeIfLe_eq : k.removeIfLe q key
    = if ∃ e ∈ (k.items q).head?, e.1 ≤ key then k.remove q else (none, k) := by
  have h := k.removeIfLe_spec q key
  split_ifs at h ⊢
  · simp only [removeIfLe, remove, h]
  · simp only [removeIfLe, h, ofContents, Option.bind_none]

end Entries

/-- The keys of `_sleeping` never decrease along it. -/
lemma sorted_sleeping : Sorted (k.items (.pcbs .sleeping)) := by
  have h := k.wellFormed.sorted (Set.mem_univ (.pcbs .sleeping))
    (by rw [k.hash]; simp [QueueName.hashfcn])
  rw [k.contents_eq, Sorted, List.pairwise_map] at h
  exact h

/-- **The pool equation**: every node is free or holds one entry of one queue. -/
lemma avail_add_length : k.avail + ∑ q, (k.items q).length = numQnodes := by
  rw [← k.wellFormed.length_add, avail]
  exact congrArg _ (Finset.sum_congr rfl fun q _ => k.length_items q)

/-! ### Initialisation -/

/-- The kernel data segment as it is loaded: all zeros. -/
def loaded : QMem numQnodes QueueName (PcbId → Pcb) Obj :=
  ⟨fun _ => ⟨0, none, none⟩, none, fun _ => ⟨none, none, none⟩⟩

/-- The queue headers. All but `_blocked_requests`, which stays as it is loaded, are
reset before their first use by the module they belong to. -/
def headers : List QueueName :=
  [.pcbs (.ready 0), .pcbs (.ready 1), .pcbs (.ready 2), .pcbs .sleeping, .pcbs .reading,
    .pcbs .freePcbs, .freeStacks, .freeShms, .ramdiskIoPending, .ataIoPending,
    .blockedRequests]

/-- `_q_init` and the resets of the headers. -/
def initMem : QMem numQnodes QueueName (PcbId → Pcb) Obj :=
  headers.foldl (fun m q => m.qReset q q.hashfcn) loaded.qInit

lemma mem_headers : ∀ q : QueueName, q ∈ headers := by decide

/-- Resetting queues one after the other: they are in use and empty. -/
lemma foldl_qReset {F : List (Fin numQnodes)} : ∀ (l : List QueueName) (L : Set QueueName)
    (m : QMem numQnodes QueueName (PcbId → Pcb) Obj), QMem.Rep L m F (fun _ => []) →
    (∀ q ∈ L, (m.queue q).hashfcn = q.hashfcn) →
    QMem.Rep (L ∪ {q | q ∈ l}) (l.foldl (fun m q => m.qReset q q.hashfcn) m) F (fun _ => [])
      ∧ ∀ q, q ∈ L ∨ q ∈ l →
        ((l.foldl (fun m q => m.qReset q q.hashfcn) m).queue q).hashfcn = q.hashfcn
  | [], L, m, h, hh => ⟨by simpa using h, fun q hq => hh q (by simpa using hq)⟩
  | q₀ :: l, L, m, h, hh => by
      obtain ⟨h', hh'⟩ := foldl_qReset l (Insert.insert q₀ L) (m.qReset q₀ q₀.hashfcn)
        (h.qReset q₀.hashfcn rfl) fun q hq => by
          change (Function.update m.queue q₀ ⟨q₀.hashfcn, none, none⟩ q).hashfcn = _
          by_cases hqq : q = q₀
          · subst hqq
            rw [Function.update_self]
          · rw [Function.update_of_ne hqq, hh q (hq.resolve_left hqq)]
      refine ⟨?_, fun q hq => hh' q ?_⟩
      · have hset : Insert.insert q₀ L ∪ {q | q ∈ l} = L ∪ {q | q ∈ q₀ :: l} := by
          ext q
          simp only [Set.mem_union, Set.mem_insert_iff, Set.mem_ofPred_eq, List.mem_cons]
          tauto
        rwa [hset] at h'
      · simp only [List.mem_cons] at hq
        simp only [Set.mem_insert_iff]
        tauto

lemma rep_initMem : QMem.Rep Set.univ initMem (List.finRange numQnodes).reverse (fun _ => []) ∧
    ∀ q, (initMem.queue q).hashfcn = q.hashfcn := by
  obtain ⟨h, hh⟩ := foldl_qReset headers ∅ loaded.qInit (QMem.rep_qInit loaded)
    fun q hq => absurd hq (Set.notMem_empty q)
  refine ⟨?_, fun q => hh q (Or.inr (mem_headers q))⟩
  have hset : (∅ : Set QueueName) ∪ {q | q ∈ headers} = Set.univ := by
    ext q
    simp [mem_headers q]
  rwa [hset] at h

lemma contents_initMem (q : QueueName) : initMem.contents q = [] :=
  rep_initMem.1.contents_eq (Set.mem_univ q)

/-- The queue memory after `_q_init` and the resets. -/
def init : QSys where
  mem := initMem
  wellFormed := ⟨_, _, rep_initMem.1⟩
  hash := rep_initMem.2
  typed q e he := absurd he (by rw [contents_initMem]; exact List.not_mem_nil)

lemma items_init (q : QueueName) : init.items q = [] :=
  items_of_contents (l := []) _ (contents_initMem q)

lemma avail_init : init.avail = numQnodes := by
  change initMem.freeNodes.length = _
  rw [rep_initMem.1.freeNodes_eq, List.length_reverse, List.length_finRange]

end QSys

end Sp2
