import Mathlib.Logic.Function.Basic
import Mathlib.Data.List.Nodup
import Mathlib.Data.Fintype.Card
import Mathlib.Tactic.Common

/-!
Singly linked lists threaded through a table of links.

Nodes are the elements of a type `ι`, and `next : ι → Option ι` holds the link
stored in each node, `none` being the null link.

* `Seg next a l b`: starting from the link `a`, the nodes `l` are met in order and
  the last of them holds the link `b`; `Chain next a l` is the null-terminated case.
* `Chain.unique` and `Chain.nodup`: a link determines its chain, and a chain never
  meets a node twice, so it is acyclic.
* `Chain.mem_of_next` and `Chain.head_unique`: a chain is closed under its links, and
  its nodes determine which comes first.
* `Seg.congr` and `Seg.update`: writing a node off the segment leaves it alone.
* `Chain.push`, `Chain.push_all`: linking nodes in at the head.
* `splice`, `spliceHead` and `Chain.splice`: linking one fresh node between a prefix
  and a suffix, whether the prefix is empty (the head link moves) or not (the link in
  the last node of the prefix does).
* `walk`: the chain read off with a bound on its length, and `Chain.walk_eq`.
-/

namespace Linked

variable {ι : Type*} {next next' : ι → Option ι} {a b c : Option ι} {i : ι}
  {l l₁ l₂ : List ι}

/-- The nodes `l` are threaded from the link `a` to the link `b`. -/
def Seg (next : ι → Option ι) : Option ι → List ι → Option ι → Prop
  | a, [], b => a = b
  | a, i :: l, b => a = some i ∧ Seg next (next i) l b

/-- The nodes `l` are threaded from the link `a` and end with a null link. -/
def Chain (next : ι → Option ι) (a : Option ι) (l : List ι) : Prop := Seg next a l none

/-! ### Segments -/

@[simp] lemma seg_nil : Seg next a [] b ↔ a = b := Iff.rfl

@[simp] lemma seg_cons : Seg next a (i :: l) b ↔ a = some i ∧ Seg next (next i) l b := Iff.rfl

/-- A segment over an append passes through an intermediate link. -/
lemma seg_append : Seg next a (l₁ ++ l₂) c ↔ ∃ b, Seg next a l₁ b ∧ Seg next b l₂ c := by
  induction l₁ generalizing a with
  | nil => simp
  | cons i l ih =>
      simp only [List.cons_append, seg_cons, ih]
      constructor
      · rintro ⟨rfl, b, h₁, h₂⟩
        exact ⟨b, ⟨rfl, h₁⟩, h₂⟩
      · rintro ⟨b, ⟨rfl, h₁⟩, h₂⟩
        exact ⟨rfl, b, h₁, h₂⟩

/-- Only the links of the nodes on the segment matter. -/
lemma Seg.congr (h : Seg next a l b) (heq : ∀ i ∈ l, next i = next' i) : Seg next' a l b := by
  induction l generalizing a with
  | nil => exact h
  | cons i l ih =>
      obtain ⟨rfl, h⟩ := h
      refine ⟨rfl, ?_⟩
      rw [← heq i (by simp)]
      exact ih h fun j hj => heq j (by simp [hj])

/-- Writing a node off the segment leaves the segment alone. -/
lemma Seg.update [DecidableEq ι] (h : Seg next a l b) (hi : i ∉ l) :
    Seg (Function.update next i c) a l b :=
  h.congr fun j hj => by
    rw [Function.update_of_ne]
    rintro rfl
    exact hi hj

/-- Writing the last node of a segment redirects the end of the segment. -/
lemma Seg.relink [DecidableEq ι] (h : Seg next a (l ++ [i]) b) (hi : i ∉ l) :
    Seg (Function.update next i c) a (l ++ [i]) c := by
  obtain ⟨x, h₁, rfl, -⟩ := seg_append.mp h
  exact seg_append.mpr ⟨some i, h₁.update hi, by simp⟩

/-! ### Null-terminated chains -/

@[simp] lemma chain_none : Chain next none l ↔ l = [] := by
  cases l <;> simp [Chain]

lemma chain_some : Chain next (some i) l ↔ ∃ r, l = i :: r ∧ Chain next (next i) r := by
  cases l with
  | nil => simp [Chain]
  | cons j r =>
      constructor
      · rintro ⟨hij, h⟩
        obtain rfl := Option.some.inj hij
        exact ⟨r, rfl, h⟩
      · rintro ⟨r', hr, h⟩
        obtain ⟨rfl, rfl⟩ := List.cons.inj hr
        exact ⟨rfl, h⟩

@[simp] lemma chain_nil : Chain next a [] ↔ a = none := Iff.rfl

lemma chain_cons : Chain next a (i :: l) ↔ a = some i ∧ Chain next (next i) l := Iff.rfl

/-- The head link of a chain is its first node. -/
lemma Chain.head_eq (h : Chain next a l) : a = l.head? := by
  cases l with
  | nil => exact h
  | cons i l => exact h.1

/-- A link determines its chain. -/
lemma Chain.unique (h₁ : Chain next a l₁) (h₂ : Chain next a l₂) : l₁ = l₂ := by
  induction l₁ generalizing a l₂ with
  | nil =>
      rw [chain_nil.mp h₁] at h₂
      exact (chain_none.mp h₂).symm
  | cons i l ih =>
      obtain ⟨rfl, h₁'⟩ := chain_cons.mp h₁
      obtain ⟨r, rfl, h₂'⟩ := chain_some.mp h₂
      rw [ih h₁' h₂']

/-- The tail of a chain from one of its nodes. -/
lemma Chain.suffix (l₁ : List ι) (h : Chain next a (l₁ ++ i :: l₂)) :
    Chain next (some i) (i :: l₂) := by
  obtain ⟨b, -, rfl, h₂⟩ := seg_append.mp h
  exact ⟨rfl, h₂⟩

/-- A chain is acyclic: were a node met twice, the two tails hanging from it would be
one chain of two different lengths. -/
lemma Chain.nodup (h : Chain next a l) : l.Nodup := by
  induction l generalizing a with
  | nil => exact List.nodup_nil
  | cons i l ih =>
      refine List.nodup_cons.mpr ⟨fun hi => ?_, ih h.2⟩
      obtain ⟨l₁, l₂, rfl⟩ := List.append_of_mem hi
      have hlong : Chain next (some i) (i :: (l₁ ++ i :: l₂)) := ⟨rfl, h.2⟩
      have hshort : Chain next (some i) (i :: l₂) := Chain.suffix (i :: l₁) h
      have hlen := congrArg List.length (hlong.unique hshort)
      simp at hlen
      omega

/-- The node that a node of a chain is linked to is one of the chain. -/
lemma Chain.mem_of_next (h : Chain next a l) {j : ι} (hi : i ∈ l) (hj : next i = some j) :
    j ∈ l := by
  obtain ⟨l₁, l₂, rfl⟩ := List.append_of_mem hi
  have hnext : Chain next (next i) l₂ := (Chain.suffix l₁ h).2
  rw [hj] at hnext
  obtain ⟨r, rfl, -⟩ := chain_some.mp hnext
  simp

/-- Two chains of the same nodes begin with the same one: a node before it would be met by neither
of them. -/
lemma Chain.head_unique (h₁ : Chain next a l₁) (h₂ : Chain next b l₂)
    (hmem : ∀ i, i ∈ l₁ ↔ i ∈ l₂) : a = b := by
  cases l₁ with
  | nil =>
      have hnil : l₂ = [] := List.eq_nil_iff_forall_not_mem.mpr fun i hi => by
        simpa using (hmem i).mpr hi
      subst hnil
      rw [chain_nil.mp h₁, chain_nil.mp h₂]
  | cons i r =>
      obtain ⟨rfl, hr⟩ := chain_cons.mp h₁
      obtain ⟨pre, post, rfl⟩ := List.append_of_mem ((hmem i).mp List.mem_cons_self)
      have htail : i :: r = i :: post := h₁.unique (Chain.suffix pre h₂)
      cases pre with
      | nil => exact (chain_cons.mp h₂).1.symm
      | cons j pre =>
          have hj : j ∈ i :: post := htail ▸ (hmem j).mpr List.mem_cons_self
          have hnd := List.nodup_cons.mp h₂.nodup
          exact absurd (List.mem_append_right pre hj) hnd.1

/-- A chain has at most as many nodes as there are. -/
lemma Chain.length_le [Fintype ι] (h : Chain next a l) : l.length ≤ Fintype.card ι :=
  h.nodup.length_le_card

lemma Chain.congr (h : Chain next a l) (heq : ∀ i ∈ l, next i = next' i) : Chain next' a l :=
  Seg.congr h heq

lemma Chain.update [DecidableEq ι] (h : Chain next a l) (hi : i ∉ l) :
    Chain (Function.update next i c) a l :=
  Seg.update h hi

/-- A node that is not met is linked in at the head. -/
lemma Chain.push [DecidableEq ι] (h : Chain next a l) (hi : i ∉ l) :
    Chain (Function.update next i a) (some i) (i :: l) := by
  refine ⟨rfl, ?_⟩
  rw [Function.update_self]
  exact h.update hi

/-- So are several, one after the other. -/
lemma Chain.push_all [DecidableEq ι] {σ : Type*} (next : σ → ι → Option ι) (head : σ → Option ι)
    (push : σ → ι → σ) (hpush : ∀ s i, next (push s i) = Function.update (next s) i (head s)
      ∧ head (push s i) = some i) (is : List ι) {s : σ} (h : Chain (next s) (head s) l)
    (hnd : (is ++ l).Nodup) :
    Chain (next (is.foldl push s)) (head (is.foldl push s)) (is.reverse ++ l) := by
  induction is generalizing s l with
  | nil => exact h
  | cons i is ih =>
      obtain ⟨hi, -⟩ := List.nodup_cons.mp hnd
      have hl : i ∉ l := fun hmem => hi (List.mem_append_right is hmem)
      have hperm : (i :: (is ++ l)).Perm (is ++ i :: l) := List.perm_middle.symm
      obtain ⟨hnext, hhead⟩ := hpush s i
      have hpushed : Chain (next (push s i)) (head (push s i)) (i :: l) := by
        rw [hnext, hhead]
        exact h.push hl
      simpa using ih hpushed (hperm.nodup_iff.mp hnd)

/-- The links after the node `i` is linked in between the link out of `prev` and the
link `curr`. -/
def splice [DecidableEq ι] (next : ι → Option ι) (i : ι) (prev curr : Option ι) :
    ι → Option ι :=
  match prev with
  | none => Function.update next i curr
  | some p => Function.update (Function.update next i curr) p (some i)

/-- The head link after the node `i` is linked in behind `prev`. -/
def spliceHead (a : Option ι) (i : ι) (prev : Option ι) : Option ι :=
  match prev with
  | none => some i
  | some _ => a

/-- Splicing leaves the chains alone that meet neither the node nor its predecessor. -/
lemma Chain.splice_of_notMem [DecidableEq ι] {prev curr : Option ι} (h : Chain next a l)
    (hi : i ∉ l) (hp : ∀ p ∈ prev, p ∉ l) : Chain (splice next i prev curr) a l := by
  cases prev with
  | none => exact h.update hi
  | some p => exact (h.update hi).update (hp p rfl)

/-- **Splicing one node in**: the fresh node is linked to the suffix, and the link that
pointed at the suffix, in the last node of the prefix or at the head, is moved to it. -/
lemma Chain.splice [DecidableEq ι] {pre post : List ι} (h : Chain next a (pre ++ post))
    (hi : i ∉ pre ++ post) :
    Chain (splice next i pre.getLast? post.head?) (spliceHead a i pre.getLast?)
      (pre ++ i :: post) := by
  obtain ⟨b, hpre, hpost⟩ := seg_append.mp h
  obtain ⟨hi₁, hi₂⟩ : i ∉ pre ∧ i ∉ post := by simpa using hi
  have hb : b = post.head? := Chain.head_eq hpost
  have hsuf : Chain (Function.update next i post.head?) (some i) (i :: post) := by
    refine ⟨rfl, ?_⟩
    rw [Function.update_self, ← hb]
    exact Seg.update hpost hi₂
  rcases List.eq_nil_or_concat pre with rfl | ⟨l, p, rfl⟩
  · exact hsuf
  · rw [List.concat_eq_append] at *
    have hnd := h.nodup
    have hp : p ∉ l ∧ p ∉ post ∧ p ≠ i := by
      simp only [List.nodup_append, List.mem_append, List.mem_singleton] at hnd hi₁
      exact ⟨fun hl => hnd.1.2.2 p hl p rfl rfl, fun hq => hnd.2.2 p (Or.inr rfl) p hq rfl,
        fun hpi => hi₁ (Or.inr hpi.symm)⟩
    rw [List.getLast?_concat]
    refine seg_append.mpr ⟨some i, Seg.relink (hpre.update hi₁) hp.1, ?_⟩
    exact Seg.update hsuf (by simp [hp.2.1, hp.2.2])

/-! ### Reading a chain off -/

/-- The nodes met from a link, at most `n` of them. -/
def walk (next : ι → Option ι) : ℕ → Option ι → List ι
  | 0, _ => []
  | _ + 1, none => []
  | n + 1, some i => i :: walk next n (next i)

/-- With enough fuel the walk reads off the whole chain. -/
lemma Chain.walk_eq (h : Chain next a l) : ∀ {n}, l.length ≤ n → walk next n a = l := by
  induction l generalizing a with
  | nil =>
      intro n _
      rw [chain_nil.mp h]
      cases n <;> rfl
  | cons i l ih =>
      intro n hn
      obtain ⟨rfl, h'⟩ := chain_cons.mp h
      cases n with
      | zero => simp at hn
      | succ n =>
          rw [walk, ih h']
          simpa using hn

end Linked
