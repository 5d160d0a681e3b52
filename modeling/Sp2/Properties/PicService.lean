import Sp2.Lib.Flow
import Sp2.Machine.Pic
import Sp2.Properties.Vectors

/-!
What the interrupt controllers do over a run.

* `readyPics`, `initPic_eq`: `init_pic` sets the controllers up, whatever they were before.
* `outPic_serving`: the ends of interrupts of a line take it out of service.
* `PicSound`, `step_picSound`: outside of handlers nothing is in service, and in a handler the line
  of its vector is, if it is no system call.
* `requests_served_once`: **every request is served once, the first one first**. Over any run the
  requests that were latched are those that were handled and those that are pending, and in a
  process the next interrupt is that of the pending line of the highest priority.
* `line8_deafens`: why this does not hold of every vector that the handlers provide for.
-/

namespace Sp2

open I8259 Transition

/-! ### Setting up and ending interrupts -/

section Controllers

variable {p : Pair} {q q' : Irq} {i j : Line}

/-- The vector of a line after `init_pic`. -/
def irqVector (q : Irq) : UInt8 := q.vector 0x20 0x28

/-- What a handler of the line is to write at its end. -/
def irqEnds : Irq → List (UInt16 × UInt8)
  | .master _ => [(picMasterCmdPort, picEoi)]
  | .slave _ => [(picMasterCmdPort, picEoi), (picSlaveCmdPort, picEoi)]

/-- The controllers after `init_pic`. -/
def readyPics : Pair :=
  ⟨⟨.ready, 0x20, picMasterSlaveLine, pic86Mode, 0, ∅, ∅⟩,
    ⟨.ready, 0x28, picSlaveId, pic86Mode, 0, ∅, ∅⟩⟩

/-- `init_pic` does not depend on what the controllers were before. -/
lemma initPic_eq (p : Pair) : initPic.foldl outPic p = readyPics := rfl

lemma readyPics_setUp : readyPics.SetUp slaveLine 0x20 0x28 := by
  constructor <;> decide

lemma readyPics_pending : ¬ readyPics.Pending q := by
  cases q <;> exact Finset.notMem_empty _

lemma irqVector_inj (hq : q ≠ .master slaveLine) (h : irqVector q = irqVector q') : q = q' := by
  have hmm : ∀ i i' : Line, irqVector (.master i) = irqVector (.master i') → i = i' := by decide
  have hms : ∀ i j : Line, irqVector (.master i) ≠ irqVector (.slave j) := by decide
  have hss : ∀ j j' : Line, irqVector (.slave j) = irqVector (.slave j') → j = j' := by decide
  cases q <;> cases q'
  · exact congrArg _ (hmm _ _ h)
  · exact absurd h (hms _ _)
  · exact absurd h.symm (hms _ _)
  · exact congrArg _ (hss _ _ h)

/-- Nothing is in service any more. -/
def atRest (p : Pair) : Pair :=
  ⟨{ p.master with service := ∅ }, { p.slave with service := ∅ }⟩

lemma atRest_of_idle (h : p.Idle) : atRest p = p := by
  obtain ⟨⟨⟩, ⟨⟩⟩ := p
  obtain ⟨rfl, rfl⟩ := h
  rfl

lemma outPic_master (p : Pair) :
    outPic p (picMasterCmdPort, picEoi) = { p with master := p.master.endFirst } := rfl

lemma outPic_slave (p : Pair) :
    outPic p (picSlaveCmdPort, picEoi) = { p with slave := p.slave.endFirst } := rfl

/-- The ends of interrupts of a line take it out of service. -/
lemma outPic_serving (h : p.Serving slaveLine q) : (irqEnds q).foldl outPic p = atRest p := by
  cases q with
  | master i =>
      obtain ⟨hmaster, hslave⟩ := h
      rw [irqEnds, List.foldl_cons, List.foldl_nil, outPic_master,
        Chip.endFirst_of_single hmaster, atRest, ← hslave]
  | slave j =>
      obtain ⟨hmaster, hslave⟩ := h
      rw [irqEnds, List.foldl_cons, List.foldl_cons, List.foldl_nil, outPic_master, outPic_slave,
        Chip.endFirst_of_single hmaster, Chip.endFirst_of_single hslave, atRest]

/-- With nothing in service an end of an interrupt does nothing. -/
lemma outPic_idle (h : p.Idle) : [(picMasterCmdPort, picEoi)].foldl outPic p = p := by
  rw [List.foldl_cons, List.foldl_nil, outPic_master, Chip.endFirst_of_idle h.1]

end Controllers

/-! ### Runs -/

section Runs

variable {table : UInt8 → Isr} {s s' : PicState} {e : PicEvent} {es : List PicEvent} {p : Pair}
  {q : Irq}

/-- The handlers end the interrupts they are installed for, or panic. -/
structure Proper (table : UInt8 → Isr) : Prop where
  line : ∀ q ≠ .master slaveLine, (table (irqVector q)).ends (irqVector q) = none
    ∨ (table (irqVector q)).ends (irqVector q) = some (irqEnds q)
  call : (table intVecSyscall).ends intVecSyscall = none
    ∨ (table intVecSyscall).ends intVecSyscall = some [(picMasterCmdPort, picEoi)]

/-- The handlers that `_init` leaves installed end their interrupts. -/
lemma proper_systemIsr : Proper systemIsr where
  line q _ := by
    cases q with
    | master i => revert i; decide
    | slave j => revert j; decide
  call := .inr rfl

/-- They are those of the table of handlers. -/
lemma address_systemIsr (l : Linkage) (v : UInt8) :
    (systemIsr v).address l = l.systemHandler v := by
  rw [systemIsr, Linkage.systemHandler]
  split_ifs <;> rfl

/-- Outside of handlers nothing is in service, and in a handler the line of its vector is, or
nothing in a system call. -/
structure PicSound (s : PicState) : Prop where
  setUp : s.pics.SetUp slaveLine 0x20 0x28
  idle : s.handling = none → s.pics.Idle
  handled : ∀ v, s.handling = some v → v = intVecSyscall ∧ s.pics.Idle
    ∨ ∃ q ≠ .master slaveLine, v = irqVector q ∧ s.pics.Serving slaveLine q

/-- What the processor is given in a process. -/
lemma PicSound.accept (hs : PicSound s) (hidle : s.handling = none) (hq : s.pics.Pending q)
    (hfirst : ∀ q', s.pics.Pending q' → q.rank slaveLine ≤ q'.rank slaveLine) :
    picStep table s .accept = .ok ⟨s.pics.deliver slaveLine q, some (irqVector q)⟩ := by
  simp only [picStep, hidle, hs.setUp.accept_eq (hs.idle hidle) hq hfirst, irqVector]

lemma PicSound.accept_none (hs : PicSound s) (hidle : s.handling = none)
    (hnone : ∀ q, ¬ s.pics.Pending q) : picStep table s .accept = .ok s := by
  simp only [picStep, hidle, hs.setUp.accept_none (hs.idle hidle) hnone]

/-- An interrupt is that of the first pending line. -/
lemma PicSound.accept_cases (hs : PicSound s) (h : picStep table s .accept = .ok s') :
    s' = s ∧ (s.handling = none → ∀ q, ¬ s.pics.Pending q)
      ∨ s.handling = none ∧ ∃ q ≠ .master slaveLine, s.pics.Pending q
        ∧ s.pics.accept slaveLine = some (irqVector q, s.pics.deliver slaveLine q)
        ∧ s' = ⟨s.pics.deliver slaveLine q, some (irqVector q)⟩ := by
  cases hhandling : s.handling with
  | some v =>
      rw [picStep, hhandling] at h
      exact .inl ⟨(Except.ok.inj h).symm, nofun⟩
  | none =>
      by_cases hex : ∃ q, s.pics.Pending q
      · obtain ⟨q, hq⟩ := hex
        obtain ⟨q', hq', hfirst⟩ : ∃ q', s.pics.Pending q'
            ∧ ∀ q'', s.pics.Pending q'' → q'.rank slaveLine ≤ q''.rank slaveLine :=
          Pair.exists_first hq
        rw [hs.accept hhandling hq' hfirst] at h
        refine .inr ⟨rfl, q', ?_, hq', hs.setUp.accept_eq (hs.idle hhandling) hq' hfirst,
          (Except.ok.inj h).symm⟩
        rintro rfl
        exact hs.setUp.wire_free hq'
      · have hnone : ∀ q, ¬ s.pics.Pending q := fun q hq => hex ⟨q, hq⟩
        rw [hs.accept_none hhandling hnone] at h
        exact .inl ⟨(Except.ok.inj h).symm, fun _ => hnone⟩

/-- What a handler does when it returns. -/
lemma PicSound.finish_eq (hs : PicSound s) (ht : Proper table)
    (h : picStep table s .finish = .ok s') : s' = ⟨atRest s.pics, none⟩ := by
  cases hhandling : s.handling with
  | none =>
      rw [picStep, hhandling] at h
      obtain rfl := Except.ok.inj h
      rw [atRest_of_idle (hs.idle hhandling), ← hhandling]
  | some v =>
      simp only [picStep, hhandling] at h
      rcases hs.handled v hhandling with ⟨rfl, hidle⟩ | ⟨q, hq, rfl, hserving⟩
      · rcases ht.call with hends | hends <;> rw [hends] at h
        · exact absurd h (by simp)
        · rw [← Except.ok.inj h, outPic_idle hidle, atRest_of_idle hidle]
      · rcases ht.line q hq with hends | hends <;> rw [hends] at h
        · exact absurd h (by simp)
        · rw [← Except.ok.inj h, outPic_serving hserving]

lemma atRest_setUp (h : p.SetUp slaveLine 0x20 0x28) : (atRest p).SetUp slaveLine 0x20 0x28 :=
  { h with }

lemma setUp_endFirst (h : p.SetUp slaveLine 0x20 0x28) :
    Pair.SetUp slaveLine 0x20 0x28 { p with master := p.master.endFirst } := by
  cases hfirst : first p.master.service <;> simp only [Chip.endFirst, hfirst] <;> exact { h with }

/-- **What one step preserves.** -/
lemma step_picSound (ht : Proper table) (hs : PicSound s) (hline : OnLines s e)
    (h : picStep table s e = .ok s') : PicSound s' := by
  cases e with
  | raise q =>
      obtain rfl := Except.ok.inj h
      have hq : q ≠ .master slaveLine := fun heq => hline (heq ▸ rfl)
      refine ⟨hs.setUp.raise hq, fun hidle => ?_, fun v hv => ?_⟩
      · cases q <;> exact hs.idle hidle
      · rcases hs.handled v hv with ⟨rfl, hidle⟩ | ⟨q', hq', rfl, hserving⟩
        · refine .inl ⟨rfl, ?_⟩
          cases q <;> exact hidle
        · refine .inr ⟨q', hq', rfl, ?_⟩
          cases q <;> cases q' <;> exact hserving
  | accept =>
      rcases hs.accept_cases h with ⟨rfl, -⟩ | ⟨hidle, q, hq, -, -, rfl⟩
      · exact hs
      · refine ⟨hs.setUp.deliver, nofun, fun v hv => .inr ⟨q, hq, ?_, ?_⟩⟩
        · exact (Option.some_inj.mp hv).symm
        · exact hs.setUp.serving_deliver (hs.idle hidle)
  | call =>
      obtain rfl := Except.ok.inj h
      cases hhandling : s.handling with
      | some v =>
          have hsame : (⟨s.pics, some v⟩ : PicState) = s := by rw [← hhandling]
          exact hsame ▸ hs
      | none =>
          refine ⟨hs.setUp, nofun, fun v hv => .inl ⟨?_, hs.idle hhandling⟩⟩
          simpa [eq_comm] using hv
  | finish =>
      rw [hs.finish_eq ht h]
      exact ⟨atRest_setUp hs.setUp, fun _ => ⟨rfl, rfl⟩, nofun⟩

/-! ### Requests -/

/-- The request that a step latches at a line. -/
def latchedAt (q : Irq) (s : PicState) (e : PicEvent) : List Irq :=
  if e = .raise q ∧ ¬ s.pics.Pending q then [q] else []

/-- The interrupt of a line that the processor takes in a step. -/
def acceptedAt (q : Irq) (s : PicState) (e : PicEvent) : List Irq :=
  if e = .accept ∧ s.handling = none
    ∧ (s.pics.accept slaveLine).map Prod.fst = some (irqVector q) then [q] else []

/-- What is pending at a line. -/
def pendingAt (q : Irq) (s : PicState) : List Irq := if s.pics.Pending q then [q] else []

/-- **What is latched is accepted or pending.** -/
lemma step_requests (ht : Proper table) (hs : PicSound s) (hq : q ≠ .master slaveLine)
    (h : picStep table s e = .ok s') :
    acceptedAt q s e ++ pendingAt q s' = pendingAt q s ++ latchedAt q s e := by
  cases e with
  | raise q' =>
      obtain rfl := Except.ok.inj h
      by_cases heq : q' = q
      · subst heq
        by_cases hp : s.pics.Pending q' <;>
          simp [acceptedAt, latchedAt, pendingAt, Pair.pending_raise, hp]
      · simp [acceptedAt, latchedAt, pendingAt, Pair.pending_raise, heq, Ne.symm heq]
  | accept =>
      rcases hs.accept_cases h with ⟨hsame, hnone⟩ | ⟨hidle, q', hq', hp, haccept, rfl⟩
      · have hno : acceptedAt q s .accept = [] := if_neg fun ⟨_, hidle, heq⟩ => by
          rw [hs.setUp.accept_none (hs.idle hidle) (hnone hidle)] at heq
          exact absurd heq (by simp)
        simp [hno, latchedAt, hsame]
      · have hleft : (s.pics.deliver slaveLine q').Pending q ↔ q ≠ q' ∧ s.pics.Pending q :=
          Pair.pending_deliver hq
        by_cases heq : q = q'
        · subst heq
          simp [acceptedAt, latchedAt, pendingAt, hleft, hidle, haccept, hp]
        · have hvector : irqVector q' ≠ irqVector q := fun hv => heq (irqVector_inj hq' hv).symm
          simp [acceptedAt, latchedAt, pendingAt, hleft, haccept, heq, hvector]
  | call =>
      obtain rfl := Except.ok.inj h
      simp [acceptedAt, latchedAt, pendingAt]
  | finish =>
      rw [hs.finish_eq ht h]
      have hsame : pendingAt q ⟨atRest s.pics, none⟩ = pendingAt q s := by cases q <;> rfl
      simp [acceptedAt, latchedAt, hsame]

/-- The kernel after `init_pic`. -/
lemma picSound_init (p : Pair) : PicSound ⟨initPic.foldl outPic p, none⟩ := by
  rw [initPic_eq]
  exact ⟨readyPics_setUp, fun _ => ⟨rfl, rfl⟩, nofun⟩

/-- **Every request is served once, the first one first**: after `init_pic`, whatever the
controllers were before, and any requests of devices, interrupts, returns of handlers and system
calls, the requests latched at a line are those that the processor has accepted and the one that is
pending, if any. Outside of handlers nothing is in service, and the processor is given the vector of
the pending line with the highest priority. -/
theorem requests_served_once
    (h : Transition.Run (picStep systemIsr) OnLines ⟨initPic.foldl outPic p, none⟩ es s) :
    (∀ q ≠ .master slaveLine,
        gather (picStep systemIsr) (acceptedAt q) ⟨initPic.foldl outPic p, none⟩ es ++ pendingAt q s
          = gather (picStep systemIsr) (latchedAt q) ⟨initPic.foldl outPic p, none⟩ es)
      ∧ (s.handling = none → s.pics.Idle ∧
        ∀ q, s.pics.Pending q → ∃ q', s.pics.Pending q'
          ∧ (∀ q'', s.pics.Pending q'' → q'.rank slaveLine ≤ q''.rank slaveLine)
          ∧ picStep systemIsr s .accept
            = .ok ⟨s.pics.deliver slaveLine q', some (irqVector q')⟩) := by
  have ht := proper_systemIsr
  have hs := h.invariant (I := PicSound) (picSound_init p) fun _ _ _ hs hline hstep =>
    step_picSound ht hs hline hstep
  refine ⟨fun q hq => ?_, fun hidle => ⟨hs.idle hidle, fun q hpending => ?_⟩⟩
  · have hflow := (h.conserves (I := PicSound) (acceptedAt q) (latchedAt q) (pendingAt q)
      (picSound_init p) fun _ _ _ hs hline hstep =>
        ⟨step_picSound ht hs hline hstep, step_requests ht hs hq hstep⟩).2
    have hnone : pendingAt q ⟨initPic.foldl outPic p, none⟩ = [] := if_neg readyPics_pending
    rwa [hnone, List.nil_append] at hflow
  · obtain ⟨q', hq', hfirst⟩ : ∃ q', s.pics.Pending q'
        ∧ ∀ q'', s.pics.Pending q'' → q'.rank slaveLine ≤ q''.rank slaveLine :=
      Pair.exists_first hpending
    exact ⟨q', hq', hfirst, hs.accept hidle hq' hfirst⟩

/-- The clock is served before the serial line, which asked first. -/
def serialThenClock : List PicEvent :=
  [.raise serialIrq, .raise clockIrq, .accept, .finish]

/-- The serial line is next. -/
theorem requests_served_once_clock : ∃ s,
    Transition.Run (picStep systemIsr) OnLines ⟨initPic.foldl outPic readyPics, none⟩
      serialThenClock s
    ∧ ∃ q, picStep systemIsr s .accept = .ok ⟨s.pics.deliver slaveLine q, some (irqVector q)⟩ := by
  obtain ⟨s, hrun, hs⟩ := exists_run (picStep systemIsr) OnLines
    ⟨initPic.foldl outPic readyPics, none⟩ serialThenClock
    (f := fun s => (s.handling, decide (s.pics.Pending serialIrq))) (b := (none, true))
    (by decide +kernel)
  obtain ⟨hidle, hpending⟩ := Prod.mk.inj hs
  obtain ⟨q, -, -, haccept⟩ :=
    ((requests_served_once hrun).2 hidle).2 serialIrq (of_decide_eq_true hpending)
  exact ⟨s, hrun, q, haccept⟩

/-! ### The slave's line 0 -/

/-- Line 0 of the slave is in service, and no handler of another line of the slave is running. -/
structure Deaf (s : PicState) : Prop where
  setUp : s.pics.SetUp slaveLine 0x20 0x28
  stuck : 0 ∈ s.pics.slave.service
  handled : ∀ v, s.handling = some v → v.toNat ≤ 0x28 ∨ 0x30 ≤ v.toNat

/-- A handler of no line of the slave but line 0 leaves the slave alone. -/
lemma ends_master {isr : Isr} {v : UInt8} {writes : List (UInt16 × UInt8)}
    (hv : v.toNat ≤ 0x28 ∨ 0x30 ≤ v.toNat) (h : isr.ends v = some writes) :
    writes = [] ∨ writes = [(picMasterCmdPort, picEoi)] := by
  have heoi : isPicVector v → endOfInterrupt v = [(picMasterCmdPort, picEoi)] := fun hpic => by
    have hnot : ¬ v > 0x28 := fun hgt => by
      simp only [isPicVector, Bool.and_eq_true, decide_eq_true_eq] at hpic
      have hlow : 0x28 < v.toNat := UInt8.lt_iff_toNat_lt.mp hgt
      have hhigh : v.toNat < 0x30 := UInt8.lt_iff_toNat_lt.mp hpic.2
      omega
    rw [endOfInterrupt, if_neg hnot]
  cases isr <;> simp only [Isr.ends, reduceCtorEq, Option.some.injEq] at h
  case expected =>
    by_cases hpic : isPicVector v
    · rw [if_pos hpic, heoi hpic, Option.some_inj] at h
      exact .inr h.symm
    · rw [if_neg hpic] at h
      exact absurd h (by simp)
  case ata =>
    by_cases hpic : isPicVector v
    · rw [if_pos hpic, heoi hpic] at h
      exact .inr h.symm
    · rw [if_neg hpic] at h
      exact .inl h.symm
  all_goals exact .inr h.symm

/-- With its line 0 in service the slave asks for nothing. -/
lemma Deaf.next_eq (hs : Deaf s) : s.pics.slave.next = none := by
  refine first_eq_none.mpr (Finset.eq_empty_of_forall_notMem fun j hj => ?_)
  obtain ⟨-, -, hbefore⟩ := Finset.mem_filter.mp hj
  exact absurd (hbefore 0 hs.stuck) (by simp)

/-- An interrupt is that of a line of the master. -/
lemma Deaf.accept_eq (hs : Deaf s) {v : UInt8} (h : s.pics.accept slaveLine = some (v, p)) :
    ∃ i ≠ slaveLine, v = irqVector (.master i)
      ∧ p = { s.pics with master := s.pics.master.take i } := by
  cases hnext : (s.pics.wired slaveLine).next with
  | none =>
      rw [Pair.accept, hnext] at h
      exact absurd h (by simp)
  | some i =>
      have hmem : i ∈ (s.pics.wired slaveLine).requests :=
        (Finset.mem_filter.mp (first_eq_some.mp hnext).1).1
      rw [Pair.wired, hs.next_eq] at hmem
      have hne : i ≠ slaveLine := (Finset.mem_erase.mp hmem).1
      have hlink := (hs.setUp.master_link i).not.mpr hne
      rw [Pair.accept, hnext, Option.bind_eq_bind, Option.bind_some, if_neg hlink, Option.some_inj,
        Prod.mk.injEq, hs.setUp.master_base] at h
      exact ⟨i, hne, h.1.symm, h.2.symm⟩

lemma step_deaf (hs : Deaf s) (hline : OnLines s e) (h : picStep table s e = .ok s') :
    Deaf s' ∧ ∀ j, acceptedAt (.slave j) s e = [] := by
  have hmaster : ∀ i : Line, i ≠ slaveLine → (irqVector (.master i)).toNat ≤ 0x28 := by decide
  have hvectors : ∀ i j : Line, irqVector (.master i) ≠ irqVector (.slave j) := by decide
  cases e with
  | raise q =>
      obtain rfl := Except.ok.inj h
      have hq : q ≠ .master slaveLine := fun heq => hline (heq ▸ rfl)
      refine ⟨⟨hs.setUp.raise hq, ?_, hs.handled⟩, fun j => if_neg nofun⟩
      cases q <;> exact hs.stuck
  | accept =>
      constructor
      · rw [picStep] at h
        split at h
        · rename_i v p hhandling haccept
          obtain rfl := Except.ok.inj h
          obtain ⟨i, hi, rfl, rfl⟩ := hs.accept_eq haccept
          refine ⟨hs.setUp.deliver (q := .master i), hs.stuck, fun v hv => .inl ?_⟩
          exact Option.some_inj.mp hv ▸ hmaster i hi
        · exact Except.ok.inj h ▸ hs
      · refine fun j => if_neg fun ⟨_, _, heq⟩ => ?_
        obtain ⟨⟨v, p⟩, haccept, rfl⟩ := Option.map_eq_some_iff.mp heq
        obtain ⟨i, -, hv, -⟩ := hs.accept_eq haccept
        exact hvectors i j hv.symm
  | call =>
      obtain rfl := Except.ok.inj h
      refine ⟨⟨hs.setUp, hs.stuck, fun v hv => ?_⟩, fun j => if_neg nofun⟩
      cases hhandling : s.handling with
      | some w =>
          rw [hhandling] at hv
          exact hs.handled v (hhandling.trans hv)
      | none =>
          rw [hhandling] at hv
          exact Option.some_inj.mp hv ▸ .inr (by decide)
  | finish =>
      refine ⟨?_, fun j => if_neg nofun⟩
      rw [picStep] at h
      split at h
      · exact Except.ok.inj h ▸ hs
      · rename_i v hhandling
        split at h
        · exact absurd h (by simp)
        · rename_i writes hends
          rw [← Except.ok.inj h]
          rcases ends_master (hs.handled v hhandling) hends with rfl | rfl
          · exact ⟨hs.setUp, hs.stuck, nofun⟩
          · exact ⟨setUp_endFirst hs.setUp, hs.stuck, nofun⟩

/-- **The slave's line 0 deafens the slave**: once the handler for ATA, or the default one, has run
for vector 0x28, no interrupt of the slave is accepted any more, whatever happens. -/
theorem line8_deafens (hs : PicSound s) (hhandling : s.handling = some (irqVector (.slave 0)))
    (hisr : table (irqVector (.slave 0)) = .expected ∨ table (irqVector (.slave 0)) = .ata)
    (h : Transition.Run (picStep table) OnLines s (.finish :: es) s') (j : Line) :
    gather (picStep table) (acceptedAt (.slave j)) s (.finish :: es) = [] := by
  obtain ⟨s₁, -, hfinish, hrun⟩ := run_cons.mp h
  have hends : (table (irqVector (.slave 0))).ends (irqVector (.slave 0))
      = some [(picMasterCmdPort, picEoi)] := by
    rcases hisr with hisr | hisr <;> rw [hisr] <;> decide
  have hstuck : s.pics.slave.service = {0} := by
    rcases hs.handled _ hhandling with ⟨hcall, -⟩ | ⟨q, hq, heq, hserving⟩
    · exact absurd hcall (by decide)
    · obtain rfl := irqVector_inj hq heq.symm
      exact hserving.2
  have hdeaf : Deaf s₁ := by
    simp only [picStep, hhandling, hends] at hfinish
    obtain rfl := Except.ok.inj hfinish
    exact ⟨setUp_endFirst hs.setUp, hstuck ▸ Finset.mem_singleton_self 0, nofun⟩
  have hnone : gather (picStep table) (acceptedAt (.slave j)) s₁ es = [] := by
    have hflow := (hrun.accumulates (I := Deaf) (acceptedAt (.slave j)) (fun _ => []) hdeaf
      fun _ _ _ hs hline hstep => by simp [step_deaf hs hline hstep]).2
    simpa using hflow.symm
  rw [gather_cons hfinish, hnone, List.append_nil]
  exact if_neg nofun

/-- The default handler has been entered for line 0 of the slave. -/
def clockLine8 : PicState :=
  ⟨(readyPics.raise rtcIrq).deliver slaveLine rtcIrq, some (irqVector rtcIrq)⟩

/-- The disk asks for an interrupt and does not get it. -/
theorem line8_deafens_disk : ∃ s',
    Transition.Run (picStep fun _ => .expected) OnLines clockLine8
      [.finish, .raise diskIrq, .accept] s'
    ∧ s'.pics.Pending diskIrq
    ∧ gather (picStep fun _ => .expected) (acceptedAt diskIrq) clockLine8
      [.finish, .raise diskIrq, .accept] = [] := by
  have hraised : (readyPics.raise rtcIrq).SetUp slaveLine 0x20 0x28 :=
    readyPics_setUp.raise nofun
  have hs : PicSound clockLine8 :=
    ⟨hraised.deliver (q := rtcIrq), nofun, fun v hv => .inr ⟨rtcIrq, nofun,
      (Option.some_inj.mp hv).symm, hraised.serving_deliver (q := rtcIrq) ⟨rfl, rfl⟩⟩⟩
  obtain ⟨s', hrun, hpending⟩ := exists_run (picStep fun _ => .expected) OnLines clockLine8
    [.finish, .raise diskIrq, .accept] (f := fun s => decide (s.pics.Pending diskIrq))
    (b := true) (by decide +kernel)
  exact ⟨s', hrun, of_decide_eq_true hpending, line8_deafens hs rfl (.inl rfl) hrun 6⟩

end Runs

end Sp2
