import Sp2.Lib.Linked
import Sp2.Lib.Keyed

/-!
The queue module (`queues.c`): queues of pointers built from one shared pool of nodes.

The nodes are the `n` elements of `_qnodes`, the queues are named by a type `Q`, and
`void *` is `Option α`, `none` being the null pointer. A hash function reads the memory
`M` of the rest of the kernel (`_hash_sleep` reads a PCB).

* `QNode`, `Queue`, `QMem`: `qnode_t`, `queue_t`, and the memory of the module, that is
  `_qnodes`, `_free_qnodes` and the queue headers.
* `qnAlloc`, `qnDealloc`, `qInsert`, `qRemove`, `qRemoveIfLe`, `qReset`, `qInit`: the
  functions of the module. `qInsert` is cut at its two joints, the search for the
  insertion point (`search`) and the linking of the node (`link`).
* `contents` and `freeNodes`: what a reader of the chains sees, the keyed data of a queue
  and the nodes of the free list.
-/

namespace Sp2

open Linked Keyed

/-- The status return values of `defs.h`. -/
inductive Stat where
  | success
  | allocFail
  | badLevel
  deriving DecidableEq, Repr

/-- `qnode_t`. -/
structure QNode (n : ℕ) (α : Type*) where
  key : UInt32
  data : Option α
  next : Option (Fin n)

/-- `queue_t`: the hash function of an ordered queue, or null, and the two ends. -/
structure Queue (n : ℕ) (M α : Type*) where
  hashfcn : Option (M → Option α → UInt32)
  first : Option (Fin n)
  last : Option (Fin n)

/-- `_q_isempty`. -/
def Queue.isEmpty {n : ℕ} {M α : Type*} (queue : Queue n M α) : Bool := queue.first.isNone

/-- The memory of the queue module. -/
structure QMem (n : ℕ) (Q M α : Type*) where
  qnodes : Fin n → QNode n α
  freeQnodes : Option (Fin n)
  queue : Q → Queue n M α

namespace QMem

variable {n : ℕ} {Q M α : Type*}

/-- The link stored in each node. -/
def next (m : QMem n Q M α) (i : Fin n) : Option (Fin n) := (m.qnodes i).next

/-- The key and the data stored in each node. -/
def entry (m : QMem n Q M α) (i : Fin n) : UInt32 × Option α :=
  ((m.qnodes i).key, (m.qnodes i).data)

/-- The keyed data of a queue, first to last. -/
def contents (m : QMem n Q M α) (q : Q) : List (UInt32 × Option α) :=
  (walk m.next n (m.queue q).first).map m.entry

/-- The nodes of the free list. -/
def freeNodes (m : QMem n Q M α) : List (Fin n) := walk m.next n m.freeQnodes

/-! ### Stores into nodes and headers -/

/-- `qnode->key = key`. -/
def setKey (i : Fin n) (key : UInt32) (m : QMem n Q M α) : QMem n Q M α :=
  { m with qnodes := Function.update m.qnodes i { m.qnodes i with key := key } }

/-- `qnode->data = data`. -/
def setData (i : Fin n) (data : Option α) (m : QMem n Q M α) : QMem n Q M α :=
  { m with qnodes := Function.update m.qnodes i { m.qnodes i with data := data } }

/-- `qnode->next = next`. -/
def setNext (i : Fin n) (next : Option (Fin n)) (m : QMem n Q M α) : QMem n Q M α :=
  { m with qnodes := Function.update m.qnodes i { m.qnodes i with next := next } }

variable [DecidableEq Q]

/-- `queue->first = first`. -/
def setFirst (q : Q) (first : Option (Fin n)) (m : QMem n Q M α) : QMem n Q M α :=
  { m with queue := Function.update m.queue q { m.queue q with first := first } }

/-- `queue->last = last`. -/
def setLast (q : Q) (last : Option (Fin n)) (m : QMem n Q M α) : QMem n Q M α :=
  { m with queue := Function.update m.queue q { m.queue q with last := last } }

/-! ### The functions of the module -/

omit [DecidableEq Q] in
/-- `_qn_alloc`: allocate a queue node. -/
def qnAlloc (m : QMem n Q M α) : Option (Fin n) × QMem n Q M α :=
  match m.freeQnodes with
  | none => (none, m)
  | some qnode =>
      let m := { m with freeQnodes := (m.qnodes qnode).next }
      (some qnode, ((m.setNext qnode none).setData qnode none).setKey qnode 0)

omit [DecidableEq Q] in
/-- `_qn_dealloc`: return a queue node to the free list. -/
def qnDealloc (qnode : Option (Fin n)) (m : QMem n Q M α) : QMem n Q M α :=
  match qnode with
  | none => m
  | some i => { m.setNext i m.freeQnodes with freeQnodes := some i }

omit [DecidableEq Q] in
/-- The loop of `_q_insert` that locates the insertion point of an ordered queue; the
fuel bounds the nodes it passes. -/
def search (m : QMem n Q M α) (key : UInt32) :
    ℕ → Option (Fin n) → Option (Fin n) → Option (Fin n) × Option (Fin n)
  | 0, prev, curr => (prev, curr)
  | _ + 1, prev, none => (prev, none)
  | fuel + 1, prev, some curr =>
      if (m.qnodes curr).key ≤ key then search m key fuel (some curr) (m.qnodes curr).next
      else (prev, some curr)

/-- The second half of `_q_insert`: `prev` points to the predecessor of the new node and
`curr` to its successor. -/
def link (q : Q) (qnode : Fin n) (prev curr : Option (Fin n)) (m : QMem n Q M α) :
    QMem n Q M α :=
  let m := m.setNext qnode curr
  let m := match prev with
    | some prev => m.setNext prev (some qnode)
    | none => m.setFirst q (some qnode)
  match curr with
  | none => m.setLast q (some qnode)
  | some _ => m

/-- `_q_insert`: add `data` to `queue`. -/
def qInsert (mem : M) (q : Q) (data : Option α) (m : QMem n Q M α) : Stat × QMem n Q M α :=
  match m.qnAlloc with
  | (none, m) => (.allocFail, m)
  | (some qnode, m) =>
      let m := m.setData qnode data
      match (m.queue q).hashfcn with
      | some hashfcn =>
          let m := m.setKey qnode (hashfcn mem data)
          let at_ := m.search (m.qnodes qnode).key n none (m.queue q).first
          (.success, m.link q qnode at_.1 at_.2)
      | none => (.success, m.link q qnode (m.queue q).last none)

/-- `_q_remove`: remove the first element from `queue`. -/
def qRemove (q : Q) (m : QMem n Q M α) : Option α × QMem n Q M α :=
  match (m.queue q).first with
  | some qnode =>
      let data := (m.qnodes qnode).data
      let m := m.setFirst q (m.qnodes qnode).next
      let m := if (m.queue q).first.isNone then m.setLast q none else m
      (data, m.qnDealloc (some qnode))
  | none => (none, m)

/-- `_q_remove_if_le`: remove the first element if its key is at most `key`. -/
def qRemoveIfLe (q : Q) (key : UInt32) (m : QMem n Q M α) : Option α × QMem n Q M α :=
  match (m.queue q).first with
  | some qnode => if (m.qnodes qnode).key ≤ key then m.qRemove q else (none, m)
  | none => (none, m)

/-- `_q_reset`: reset `queue` to its empty state, with `fcn` as its hash function. -/
def qReset (q : Q) (fcn : Option (M → Option α → UInt32)) (m : QMem n Q M α) : QMem n Q M α :=
  { m with queue := Function.update m.queue q ⟨fcn, none, none⟩ }

omit [DecidableEq Q] in
/-- `_q_init`: clear the nodes and put each of them on the free list. -/
def qInit (m : QMem n Q M α) : QMem n Q M α :=
  (List.finRange n).foldl (fun m i => m.qnDealloc (some i))
    { m with qnodes := fun _ => ⟨0, none, none⟩, freeQnodes := none }

end QMem

end Sp2
