import Mathlib.Data.Finset.Max
import Mathlib.Data.Fintype.Basic

/-!
A pair of interrupt controllers of the 8259A kind, the slave on a line of the master.

* `first`: the first line of a set.
* `Chip`: one controller with its command words, its requests and the lines in service;
  `Chip.outCommand` and `Chip.outData` are writes to its two ports.
* `Chip.next`: the line that the controller requests service for, in fully nested mode.
* `Pair.accept`: the processor takes an interrupt; the vector is that of the master or, for the line
  of the slave, that of the slave.

Requests are edge-triggered. Rotation of priorities, special mask mode, polling and reading back are
not modelled: their command words do nothing.
-/

namespace I8259

/-! ### The first line of a set -/

section First

variable {α : Type*} [LinearOrder α] {s : Finset α} {a : α}

/-- The least element of a set. -/
def first (s : Finset α) : Option α := if h : s.Nonempty then some (s.min' h) else none

@[simp] lemma first_empty : first (∅ : Finset α) = none := rfl

@[simp] lemma first_singleton : first {a} = some a := by
  rw [first, dif_pos (Finset.singleton_nonempty a), Finset.min'_singleton]

lemma first_eq_none : first s = none ↔ s = ∅ := by
  rcases s.eq_empty_or_nonempty with rfl | h
  · simp
  · simp [first, h, h.ne_empty]

lemma first_eq_some : first s = some a ↔ a ∈ s ∧ ∀ b ∈ s, a ≤ b := by
  rcases s.eq_empty_or_nonempty with rfl | h
  · simp
  · rw [first, dif_pos h, Option.some_inj]
    constructor
    · rintro rfl
      exact ⟨s.min'_mem h, fun b hb => s.min'_le b hb⟩
    · rintro ⟨ha, hle⟩
      exact le_antisymm (s.min'_le a ha) (hle _ (s.min'_mem h))

lemma isSome_first : (first s).isSome ↔ s ≠ ∅ := by
  rw [← not_iff_not, Bool.not_eq_true, Option.isSome_eq_false_iff, Option.isNone_iff_eq_none,
    first_eq_none, not_not]

end First

/-! ### One controller -/

/-- A request line. -/
abbrev Line := Fin 8

/-- What the next write to the data port is. -/
inductive Phase where
  | icw2 (single needIcw4 : Bool)
  | icw3 (needIcw4 : Bool)
  | icw4
  | ready
deriving DecidableEq

/-- A controller. -/
structure Chip where
  phase : Phase
  /-- The vector of line 0, from the second command word. -/
  base : UInt8
  /-- The third command word: the lines of slaves for a master, the number of a slave. -/
  link : UInt8
  /-- The fourth command word. -/
  mode : UInt8
  /-- The interrupt mask register. -/
  mask : UInt8
  /-- The interrupt request register. -/
  requests : Finset Line
  /-- The in-service register. -/
  service : Finset Line

namespace Chip

variable (c : Chip)

/-- The end of the interrupt of the highest priority. -/
def endFirst : Chip :=
  match first c.service with
  | some i => { c with service := c.service.erase i }
  | none => c

/-- A write to the command port: the first command word, or an end of interrupt. -/
def outCommand (b : UInt8) : Chip :=
  if b.toNat.testBit 4 then
    { c with
      phase := .icw2 (b.toNat.testBit 1) (b.toNat.testBit 0)
      mode := if b.toNat.testBit 0 then c.mode else 0
      mask := 0
      requests := ∅
      service := ∅ }
  else if b &&& 0xf8 = 0x20 then c.endFirst
  else if b &&& 0xf8 = 0x60 then
    { c with service := c.service.filter fun i => i.val ≠ (b &&& 7).toNat }
  else c

/-- A write to the data port: the next command word, or the mask. -/
def outData (b : UInt8) : Chip :=
  match c.phase with
  | .icw2 single needIcw4 =>
      { c with
        base := b &&& 0xf8
        phase := if single then (if needIcw4 then .icw4 else .ready) else .icw3 needIcw4 }
  | .icw3 needIcw4 => { c with link := b, phase := if needIcw4 then .icw4 else .ready }
  | .icw4 => { c with mode := b, phase := .ready }
  | .ready => { c with mask := b }

/-- The requests that are not masked and precede all lines in service. -/
def offers : Finset Line :=
  c.requests.filter fun i => ¬ c.mask.toNat.testBit i.val ∧ ∀ j ∈ c.service, i < j

/-- The line that service is requested for. -/
def next : Option Line := first c.offers

/-- The line is taken into service, if ends of interrupts are not automatic. -/
def take (i : Line) : Chip :=
  { c with
    requests := c.requests.erase i
    service := if c.mode.toNat.testBit 1 then c.service else insert i c.service }

/-- The line requests service. -/
def raise (i : Line) : Chip := { c with requests := insert i c.requests }

variable {c}

lemma offers_of_idle (hmask : c.mask = 0) (hidle : c.service = ∅) : c.offers = c.requests := by
  rw [offers, hmask, hidle]
  simp

lemma endFirst_of_idle (h : c.service = ∅) : c.endFirst = c := by
  rw [endFirst, h, first_empty]

lemma endFirst_of_single {i : Line} (h : c.service = {i}) :
    c.endFirst = { c with service := ∅ } := by
  rw [endFirst, h, first_singleton]
  simp

end Chip

/-! ### Master and slave -/

/-- A request line of the pair; the line of the master that the slave is on is none. -/
inductive Irq where
  | master (i : Line)
  | slave (j : Line)
deriving DecidableEq

/-- Two controllers, whose slave is wired to a line of the master. -/
structure Pair where
  master : Chip
  slave : Chip

namespace Pair

variable (wire : Line) (p : Pair)

/-- The master with the output of the slave on its line. -/
def wired : Chip :=
  { p.master with
    requests := if p.slave.next.isSome then insert wire p.master.requests
      else p.master.requests.erase wire }

/-- The processor takes the interrupt that the master requests: the vector, and the controllers
after it. For a line of slaves it is the slave with the number of the line that puts out the
vector. -/
def accept : Option (UInt8 × Pair) := do
  let i ← (p.wired wire).next
  if p.master.link.toNat.testBit i.val then
    let j ← p.slave.next
    if (p.slave.link &&& 7).toNat = i.val then
      some (p.slave.base + UInt8.ofNat j.val, ⟨p.master.take i, p.slave.take j⟩)
    else none
  else some (p.master.base + UInt8.ofNat i.val, ⟨p.master.take i, p.slave⟩)

/-- A device requests an interrupt. -/
def raise : Irq → Pair
  | .master i => { p with master := p.master.raise i }
  | .slave j => { p with slave := p.slave.raise j }

/-- The line has a request. -/
def Pending : Irq → Prop
  | .master i => i ∈ p.master.requests
  | .slave j => j ∈ p.slave.requests

instance (q : Irq) : Decidable (p.Pending q) := by
  cases q <;> exact inferInstanceAs (Decidable (_ ∈ _))

end Pair

namespace Irq

/-- The priorities of the lines: the lines of the slave are where the slave is. -/
def rank (wire : Line) : Irq → ℕ
  | .master i => 8 * i.val
  | .slave j => 8 * wire.val + j.val

/-- The vector of a line, from those of the two lines 0. -/
def vector (base base' : UInt8) : Irq → UInt8
  | .master i => base + UInt8.ofNat i.val
  | .slave j => base' + UInt8.ofNat j.val

end Irq

/-! ### A pair that is set up -/

namespace Pair

/-- Both controllers are set up with these vectors: they know where the slave is, ends of interrupts
are not automatic, nothing is masked, and no device is on the line of the slave. -/
structure SetUp (wire : Line) (base base' : UInt8) (p : Pair) : Prop where
  master_phase : p.master.phase = .ready
  slave_phase : p.slave.phase = .ready
  master_base : p.master.base = base
  slave_base : p.slave.base = base'
  master_link : ∀ i : Line, p.master.link.toNat.testBit i.val ↔ i = wire
  slave_link : (p.slave.link &&& 7).toNat = wire.val
  master_mode : p.master.mode.toNat.testBit 1 = false
  slave_mode : p.slave.mode.toNat.testBit 1 = false
  master_mask : p.master.mask = 0
  slave_mask : p.slave.mask = 0
  wire_free : wire ∉ p.master.requests

/-- Nothing is in service. -/
def Idle (p : Pair) : Prop := p.master.service = ∅ ∧ p.slave.service = ∅

/-- The line is in service, and nothing else. -/
def Serving (wire : Line) (p : Pair) : Irq → Prop
  | .master i => p.master.service = {i} ∧ p.slave.service = ∅
  | .slave j => p.master.service = {wire} ∧ p.slave.service = {j}

/-- The line is taken into service. -/
def deliver (wire : Line) (p : Pair) : Irq → Pair
  | .master i => { p with master := p.master.take i }
  | .slave j => ⟨p.master.take wire, p.slave.take j⟩

variable {wire : Line} {base base' : UInt8} {p p' : Pair} {q q' : Irq}

lemma pending_raise : (p.raise q').Pending q ↔ q = q' ∨ p.Pending q := by
  cases q <;> cases q' <;> simp [raise, Pending, Chip.raise]

lemma SetUp.raise (h : p.SetUp wire base base') (hq : q ≠ .master wire) :
    (p.raise q).SetUp wire base base' := by
  cases q with
  | slave j => exact { h with }
  | master i =>
      refine { h with wire_free := ?_ }
      simp only [Pair.raise, Chip.raise, Finset.mem_insert, not_or]
      exact ⟨fun heq => hq (heq ▸ rfl), h.wire_free⟩

lemma SetUp.deliver (h : p.SetUp wire base base') : (p.deliver wire q).SetUp wire base base' := by
  have herase (i : Line) : wire ∉ p.master.requests.erase i := fun hmem =>
    h.wire_free (Finset.mem_of_mem_erase hmem)
  cases q <;> exact { h with wire_free := herase _ }

lemma SetUp.serving_deliver (h : p.SetUp wire base base') (hidle : p.Idle) :
    (p.deliver wire q).Serving wire q := by
  cases q <;> simp [Pair.deliver, Serving, Chip.take, h.master_mode, h.slave_mode, hidle.1, hidle.2]

/-- Only the request of the line taken is gone. -/
lemma pending_deliver (hq : q' ≠ .master wire) :
    (p.deliver wire q).Pending q' ↔ q' ≠ q ∧ p.Pending q' := by
  cases q <;> cases q' <;> simp_all [Pair.deliver, Pending, Chip.take]

/-- The slave asks for service if it has a request. -/
lemma SetUp.slave_next (h : p.SetUp wire base base') (hidle : p.Idle) :
    p.slave.next = first p.slave.requests := by
  rw [Chip.next, Chip.offers_of_idle h.slave_mask hidle.2]

lemma SetUp.mem_wired (h : p.SetUp wire base base') (hidle : p.Idle) {i : Line} :
    i ∈ (p.wired wire).requests ↔ i = wire ∧ p.slave.requests ≠ ∅ ∨ i ∈ p.master.requests := by
  rw [wired, h.slave_next hidle]
  by_cases hempty : p.slave.requests = ∅
  · simp only [hempty, first_empty, Option.isSome_none, Bool.false_eq_true, if_false,
      Finset.mem_erase, ne_eq, not_true_eq_false, and_false, false_or]
    exact and_iff_right_of_imp fun hmem heq => h.wire_free (heq ▸ hmem)
  · simp only [isSome_first.mpr hempty, if_true, Finset.mem_insert, ne_eq, hempty,
      not_false_eq_true, and_true]

lemma SetUp.master_next (h : p.SetUp wire base base') (hidle : p.Idle) :
    (p.wired wire).next = first (p.wired wire).requests :=
  congrArg first (Chip.offers_of_idle (c := p.wired wire) h.master_mask hidle.1)

/-- **The first request is accepted**: with nothing in service the processor is given the vector of
the pending line with the highest priority. -/
theorem SetUp.accept_eq (h : p.SetUp wire base base') (hidle : p.Idle) (hq : p.Pending q)
    (hfirst : ∀ q', p.Pending q' → q.rank wire ≤ q'.rank wire) :
    p.accept wire = some (q.vector base base', p.deliver wire q) := by
  cases q with
  | master i =>
      have hne : i ≠ wire := fun heq => h.wire_free (heq ▸ hq)
      have hnext : (p.wired wire).next = some i := by
        rw [h.master_next hidle, first_eq_some]
        refine ⟨(h.mem_wired hidle).mpr (.inr hq), fun b hb => ?_⟩
        rcases (h.mem_wired hidle).mp hb with ⟨rfl, hempty⟩ | hmem
        · obtain ⟨j, hj⟩ := Finset.nonempty_iff_ne_empty.mpr hempty
          have hle : 8 * i.val ≤ 8 * b.val + j.val := hfirst (.slave j) hj
          exact Fin.le_def.mpr (by omega)
        · have hle : 8 * i.val ≤ 8 * b.val := hfirst (.master b) hmem
          exact Fin.le_def.mpr (by omega)
      rw [accept, hnext]
      simp [(h.master_link i).not.mpr hne, Irq.vector, h.master_base, Pair.deliver]
  | slave j =>
      have hnext : (p.wired wire).next = some wire := by
        rw [h.master_next hidle, first_eq_some]
        refine ⟨(h.mem_wired hidle).mpr (.inl ⟨rfl, Finset.ne_empty_of_mem hq⟩), fun b hb => ?_⟩
        rcases (h.mem_wired hidle).mp hb with ⟨rfl, -⟩ | hmem
        · exact le_rfl
        · have hle : 8 * wire.val + j.val ≤ 8 * b.val := hfirst (.master b) hmem
          exact Fin.le_def.mpr (by omega)
      have hslave : p.slave.next = some j := by
        rw [h.slave_next hidle, first_eq_some]
        refine ⟨hq, fun b hb => ?_⟩
        have hle : 8 * wire.val + j.val ≤ 8 * wire.val + b.val := hfirst (.slave b) hb
        exact Fin.le_def.mpr (by omega)
      rw [accept, hnext, hslave]
      simp [(h.master_link wire).mpr rfl, h.slave_link, Irq.vector, h.slave_base, Pair.deliver]

/-- Without a request no interrupt is accepted. -/
lemma SetUp.accept_none (h : p.SetUp wire base base') (hidle : p.Idle)
    (hnone : ∀ q, ¬ p.Pending q) : p.accept wire = none := by
  have hempty : (p.wired wire).requests = ∅ := by
    refine Finset.eq_empty_of_forall_notMem fun i hi => ?_
    rcases (h.mem_wired hidle).mp hi with ⟨-, hslave⟩ | hmem
    · obtain ⟨j, hj⟩ := Finset.nonempty_iff_ne_empty.mpr hslave
      exact hnone (.slave j) hj
    · exact hnone (.master i) hmem
  rw [accept, h.master_next hidle, hempty, first_empty]
  rfl

/-- One of the pending lines has the highest priority. -/
lemma exists_first (hq : p.Pending q) :
    ∃ q', p.Pending q' ∧ ∀ q'', p.Pending q'' → q'.rank wire ≤ q''.rank wire := by
  obtain ⟨q', hq', hmin⟩ := (measure (Irq.rank wire)).wf.has_min {q | p.Pending q} ⟨q, hq⟩
  exact ⟨q', hq', fun q'' hq'' => not_lt.mp (hmin q'' hq'')⟩

end Pair

end I8259
