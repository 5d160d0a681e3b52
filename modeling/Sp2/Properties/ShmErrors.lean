import Sp2.Shared.Calls

/-!
The errors of the calls of the shared memory.

* `LiveId`, `LiveRecord`: an identifier or a record designates a live segment.
* `Graceful`: the kernel does not stop in the call, refuses what designates no live segment
  and lets a process attach to every live one.
* `Handled`: what the calls need for this, a current segment above all.
* `shared_calls_graceful_iff`: **a call is graceful exactly when** it is handled so.
* `shmat_panics`: an attach to a live segment after another one has been made stops the
  kernel.
-/

namespace Sp2

open ProcTable Transition

/-- The element of `_shms` is a live segment with the identifier. -/
def HasId (cfg : Config) (s : KState) (id : UInt32) (i : Fin maxShms) : Prop :=
  s.Live cfg i ∧ (s.shm.segments (cfg.shm i)).id.toUInt32 = id

/-- The identifier is that of a live segment. -/
def LiveId (cfg : Config) (s : KState) (id : UInt32) : Prop := ∃ i, HasId cfg s id i

/-- The record at the address is a live segment, or one of the caller's own with the identifier
of a live segment. -/
def LiveRecord (cfg : Config) (s : KState) (a : UInt32) : Prop :=
  (∃ i, cfg.shm i = a ∧ s.Live cfg i)
    ∨ (∀ i, cfg.shm i ≠ a) ∧ LiveId cfg s (s.shm.segments a).id.toUInt32

/-- The call gives the failure value and changes nothing of the shared memory. -/
structure Refuses (v : UInt32) (s s' : KState) : Prop where
  answer : s.answer s' = some v
  shared : SameShared s s'
  mem : s'.mem = s.mem

/-- The caller is one more member of the segment and gets its address. -/
structure Joins (cfg : Config) (s s' : KState) (i : Fin maxShms) : Prop where
  num : (s'.shm.segments (cfg.shm i)).numMembers = (s.shm.segments (cfg.shm i)).numMembers + 1
  member : (s'.shm.segments (cfg.shm i)).hasMember s.callerPid = true
  answer : s.answer s' = some (s.shm.segments (cfg.shm i)).address

/-- The segment has as many members as it may have. -/
def SegmentFull (cfg : Config) (s : KState) (i : Fin maxShms) : Prop :=
  maxMembers ≤ (s.shm.segments (cfg.shm i)).numMembers.toNat

/-- The caller joins a live segment with the identifier, or is told that it is full. -/
def Accepts (cfg : Config) (s s' : KState) (id : UInt32) : Prop :=
  ∃ i, HasId cfg s id i ∧ (¬ SegmentFull cfg s i → Joins cfg s s' i)
    ∧ (SegmentFull cfg s i → Refuses 0 s s')

/-- The kernel does not stop, what designates no live segment is refused, and the identifier
of a live one is accepted. -/
def Graceful (cfg : Config) (s : KState) (e : Event) : Prop :=
  ∃ s', step cfg s e = .ok s' ∧
    match e.call with
    | some .shmat =>
        (¬ LiveId cfg s (e.args 0) → Refuses 0 s s')
          ∧ (LiveId cfg s (e.args 0) → Accepts cfg s s' (e.args 0))
    | some .shmdt => ¬ LiveRecord cfg s (e.args 0) → Refuses minusOne s s'
    | some .shmrm => ¬ LiveRecord cfg s (e.args 0) → Refuses minusOne s s'
    | _ => True

/-- What the calls need to be graceful. -/
def Handled (cfg : Config) (s : KState) (e : Event) : Prop :=
  match e.call with
  | some .shmat =>
      s.shm.currentShms ≠ 0 ∧ e.args 0 = s.shm.current.id.toUInt32
        ∧ ((∃ i, cfg.shm i = s.shm.currentShms ∧ s.Live cfg i)
          ∨ maxMembers ≤ s.shm.current.numMembers.toNat
            ∧ (LiveId cfg s (e.args 0) → ∃ i, HasId cfg s (e.args 0) i ∧ SegmentFull cfg s i))
  | some .shmdt =>
      (s.shm.segments (e.args 0)).hasMember s.callerPid = false
        ∨ (s.shm.currentShms ≠ 0 ∧ (s.shm.segments (e.args 0)).id = s.shm.current.id
          ∧ (LiveRecord cfg s (e.args 0)
            ∨ s.shm.current.numMembers ≠ 0 ∧ s.shm.current.hasMember s.callerPid = false))
  | some .shmrm =>
      s.shm.currentShms ≠ 0 ∧ (s.shm.segments (e.args 0)).id = s.shm.current.id
        ∧ (LiveRecord cfg s (e.args 0)
          ∨ s.procs.queues.avail = 0 ∧ (s.shm.segments (e.args 0)).status = 0)
  | _ => True

section Steps

variable {cfg : Config} {s s' : KState} {e : Event} {p : PcbId} {v : UInt32}

lemma slot_eq_none_iff {r : SharedmemSegment} :
    r.slot = none ↔ maxMembers ≤ r.numMembers.toNat := by
  constructor
  · intro h
    by_contra hlt
    obtain ⟨k, hk⟩ := exists_slot (not_le.mp hlt)
    exact absurd (h.symm.trans hk) (by simp)
  · intro h
    cases hslot : r.slot with
    | none => rfl
    | some k => exact absurd (slot_num hslot) (not_lt.mpr h)

lemma place_eq_none_iff {r : SharedmemSegment} {pid : UInt16} :
    r.place pid = none ↔ r.hasMember pid = false := by
  refine ⟨place_none, fun h => ?_⟩
  cases hplace : r.place pid with
  | none => rfl
  | some k => exact absurd (h.symm.trans (hasMember_iff.mpr ⟨k, place_spec hplace⟩)) (by simp)

/-- The state after a `shmat` that finds a place is not the one before. -/
lemma not_same_of_join {k : Fin maxMembers}
    (hshm : s'.shm = s.shm.setSegment s.shm.currentShms (·.join k (s.pidOf p))) :
    ¬ SameShared s s' := by
  intro hsame
  have hnum : (s'.shm.segments s.shm.currentShms).numMembers
      = (s.shm.segments s.shm.currentShms).numMembers + 1 := by
    rw [hshm, setSegment_self]
    rfl
  rw [hsame.shm] at hnum
  exact absurd hnum (by simp)

/-- Only the current segment is joined. -/
lemma current_of_joins {k : Fin maxMembers} {i : Fin maxShms}
    (hshm : s'.shm = s.shm.setSegment s.shm.currentShms (·.join k (s.pidOf p)))
    (hjoins : Joins cfg s s' i) : s.shm.currentShms = cfg.shm i := by
  by_contra hne
  have hnum := hjoins.num
  rw [hshm, setSegment_of_ne (Ne.symm hne)] at hnum
  exact absurd hnum (by simp)

lemma graceful_shmat_iff (hs : Sound s) (hcall : e.call = some .shmat) :
    Graceful cfg s e ↔ Handled cfg s e := by
  obtain ⟨p, hcur⟩ := hs.exists_cur
  have hpid := callerPid_eq hcur
  have hanswer : ∀ s', s.answer s' = s'.eax p := fun _ => answer_eq hcur
  have hok := step_shmat_ok_iff cfg hcur hcall
  rw [Graceful, Handled, hcall]
  constructor
  · rintro ⟨s', hstep, hrefuse, haccept⟩
    obtain ⟨hcurrent, hid⟩ := hok.mp ⟨s', hstep⟩
    refine ⟨hcurrent, hid, ?_⟩
    obtain ⟨-, ⟨k, hslot, hshm, heax⟩ | ⟨hnone, hsame, heax⟩⟩ :=
      (step_shared hs hcur hstep).shmat_cases hcall
    · refine Or.inl ?_
      by_cases hlive : LiveId cfg s (e.args 0)
      · obtain ⟨i, hi, hjoins, hfull⟩ := haccept hlive
        by_cases hroom : SegmentFull cfg s i
        · exact absurd (hfull hroom).shared (not_same_of_join hshm)
        · exact ⟨i, (current_of_joins hshm (hjoins hroom)).symm, hi.1⟩
      · exact absurd (hrefuse hlive).shared (not_same_of_join hshm)
    · refine Or.inr ⟨slot_eq_none_iff.mp hnone, fun hlive => ?_⟩
      obtain ⟨i, hi, hjoins, -⟩ := haccept hlive
      refine ⟨i, hi, ?_⟩
      by_contra hroom
      have hnum := (hjoins hroom).num
      rw [hsame.shm] at hnum
      exact absurd hnum (by simp)
  · rintro ⟨hcurrent, hid, hcase⟩
    obtain ⟨s', hstep⟩ := hok.mpr ⟨hcurrent, hid⟩
    have hmem := step_shared_mem hcur hcall rfl hstep
    refine ⟨s', hstep, ?_⟩
    obtain ⟨-, ⟨k, hslot, hshm, heax⟩ | ⟨hnone, hsame, heax⟩⟩ :=
      (step_shared hs hcur hstep).shmat_cases hcall
    · rcases hcase with ⟨i, hi, hlive⟩ | ⟨hfull, -⟩
      · have hHas : HasId cfg s (e.args 0) i := ⟨hlive, by rw [hi, hid]; rfl⟩
        refine ⟨fun hno => absurd ⟨i, hHas⟩ hno, fun _ => ⟨i, hHas, fun _ => ?_, fun hfull => ?_⟩⟩
        · rw [← hi] at hshm
          refine ⟨by rw [hshm, setSegment_self]; rfl, ?_, ?_⟩
          · rw [hshm, setSegment_self, hpid]
            exact hasMember_iff.mpr ⟨k, Function.update_self ..⟩
          · rw [hanswer, heax, Shm.current, ← hi]
        · rw [SegmentFull, hi] at hfull
          exact absurd hfull (not_le.mpr (slot_num hslot))
      · exact absurd (slot_num hslot) (not_lt.mpr hfull)
    · have hrefuses : Refuses 0 s s' := ⟨(hanswer s').trans heax, hsame, hmem⟩
      refine ⟨fun _ => hrefuses, fun hlive => ?_⟩
      rcases hcase with ⟨i, hi, hlive'⟩ | ⟨-, hfull⟩
      · refine ⟨i, ⟨hlive', by rw [hi, hid]; rfl⟩, fun hroom => ?_, fun _ => hrefuses⟩
        rw [SegmentFull, hi] at hroom
        exact absurd (slot_eq_none_iff.mp hnone) hroom
      · obtain ⟨i, hi, hfull⟩ := hfull hlive
        exact ⟨i, hi, fun hroom => absurd hfull hroom, fun _ => hrefuses⟩

lemma graceful_shmdt_iff (hs : Sound s) (hcall : e.call = some .shmdt) :
    Graceful cfg s e ↔ Handled cfg s e := by
  obtain ⟨p, hcur⟩ := hs.exists_cur
  have hpid := callerPid_eq hcur
  have hanswer : ∀ s', s.answer s' = s'.eax p := fun _ => answer_eq hcur
  have hok := step_shmdt_ok_iff cfg hs hcur hcall
  rw [Graceful, Handled, hcall, hpid]
  constructor
  · rintro ⟨s', hstep, hrefuse⟩
    by_cases hmember : (s.shm.segments (e.args 0)).hasMember (s.pidOf p) = false
    · exact Or.inl hmember
    obtain ⟨hcurrent, hid⟩ := (hok.mp ⟨s', hstep⟩).resolve_left hmember
    refine Or.inr ⟨hcurrent, hid, ?_⟩
    by_cases hlive : LiveRecord cfg s (e.args 0)
    · exact Or.inl hlive
    rcases (step_shared hs hcur hstep).shmdt_cases hcall with
      ⟨hno | ⟨hnum, hplace⟩, -⟩ | ⟨-, -, heax⟩
    · exact absurd hno hmember
    · exact Or.inr ⟨hnum, place_none hplace⟩
    · have hfail := (hrefuse hlive).answer
      rw [hanswer, heax] at hfail
      exact absurd hfail (by decide)
  · intro hcase
    obtain ⟨s', hstep⟩ := hok.mpr (hcase.imp_right fun h => ⟨h.1, h.2.1⟩)
    have hmem := step_shared_mem hcur hcall rfl hstep
    refine ⟨s', hstep, fun hlive => ?_⟩
    rcases (step_shared hs hcur hstep).shmdt_cases hcall with
      ⟨-, hsame, heax⟩ | ⟨hmember, hin, heax⟩
    · exact ⟨(hanswer s').trans heax, hsame, hmem⟩
    · rcases hcase with hno | ⟨-, -, hlive' | ⟨hnum, hout⟩⟩
      · exact absurd (hmember.symm.trans hno) (by simp)
      · exact absurd hlive' hlive
      · rcases hin with hzero | ⟨k, hplace⟩
        · exact absurd hzero hnum
        · exact absurd (hplace.symm.trans (place_eq_none_iff.mpr hout)) (by simp)

lemma graceful_shmrm_iff (hs : Sound s) (hcall : e.call = some .shmrm) :
    Graceful cfg s e ↔ Handled cfg s e := by
  obtain ⟨p, hcur⟩ := hs.exists_cur
  have hanswer : ∀ s', s.answer s' = s'.eax p := fun _ => answer_eq hcur
  have hok := step_shmrm_ok_iff cfg hcur hcall
  rw [Graceful, Handled, hcall]
  constructor
  · rintro ⟨s', hstep, hrefuse⟩
    obtain ⟨hcurrent, hid⟩ := hok.mp ⟨s', hstep⟩
    refine ⟨hcurrent, hid, ?_⟩
    by_cases hlive : LiveRecord cfg s (e.args 0)
    · exact Or.inl hlive
    obtain ⟨hshm, hpool, heax⟩ := (step_shared hs hcur hstep).shmrm_cases hcall
    have hfail := hrefuse hlive
    refine Or.inr ⟨?_, ?_⟩
    · by_contra havail
      have hvalue := hfail.answer
      rw [hanswer, heax, if_neg havail] at hvalue
      exact absurd hvalue (by decide)
    · rw [← hfail.shared.shm, hshm, setSegment_self]
  · rintro ⟨hcurrent, hid, hcase⟩
    obtain ⟨s', hstep⟩ := hok.mpr ⟨hcurrent, hid⟩
    have hmem := step_shared_mem hcur hcall rfl hstep
    obtain ⟨hshm, hpool, heax⟩ := (step_shared hs hcur hstep).shmrm_cases hcall
    refine ⟨s', hstep, fun hlive => ?_⟩
    obtain ⟨havail, hfree⟩ := hcase.resolve_left hlive
    rw [if_pos havail] at hpool heax
    refine ⟨(hanswer s').trans heax, ⟨?_, hpool⟩, hmem⟩
    -- the record is marked free already
    rw [hshm, Shm.setSegment, ← hfree, Function.update_eq_self]

end Steps

section Reachable

variable {cfg : Config} {P : KState → Event → Prop} {s : KState} {e : Event} {call : SysCall}

/-- **A call of the shared memory is graceful exactly when** it is handled so: an attach needs
the identifier of a current segment that is live, a removal the record of a live segment with
this identifier, and a detach by a member too. -/
theorem shared_calls_graceful_iff (h : Reachable cfg P s) (hcall : e.call = some call)
    (hmoves : call.movesShared = true) : Graceful cfg s e ↔ Handled cfg s e := by
  have hs := reachable_sound h
  cases call with
  | shmget =>
      obtain ⟨p, hcur⟩ := hs.exists_cur
      obtain ⟨context, args, rfl, -, heq⟩ := step_call cfg hcur hcall
      obtain ⟨s', v, hres, -⟩ := sysShmget_ok cfg args (s.isrSave context) p
      rw [Graceful, Handled, hcall]
      exact ⟨fun _ => trivial, fun _ => ⟨s', heq.trans hres, trivial⟩⟩
  | shmat => exact graceful_shmat_iff hs hcall
  | shmdt => exact graceful_shmdt_iff hs hcall
  | shmrm => exact graceful_shmrm_iff hs hcall
  | _ => exact absurd hmoves (by simp [SysCall.movesShared])

end Reachable

/-! ### An attach that stops the kernel -/

theorem shared_calls_graceful_iff_attach : ∃ s, Reachable demoConfig (fun _ _ => True) s
    ∧ Graceful demoConfig s (call 12 [0]) := by
  obtain ⟨s, hrun, hs⟩ := exists_run (step demoConfig) (fun _ _ => True) bootState
    [call 11 [96, 2]]
    (f := fun s =>
      (s.shm.currentShms, s.shm.current.id, (s.shm.segments (demoConfig.shm 0)).status))
    (b := (demoConfig.shm 0, 0, 1)) (by decide +kernel)
  have hreach : Reachable demoConfig (fun _ _ => True) s :=
    Transition.Reachable.run (.of_init initial_bootState) hrun
  obtain ⟨hcurrent, hid, hlive⟩ : s.shm.currentShms = demoConfig.shm 0 ∧ s.shm.current.id = 0
      ∧ s.Live demoConfig 0 := by simpa [KState.Live] using hs
  refine ⟨s, hreach, (shared_calls_graceful_iff hreach rfl rfl).mpr ⟨?_, ?_, Or.inl ⟨0, ?_⟩⟩⟩
  · rw [hcurrent]
    decide
  · rw [hid]
    rfl
  · exact ⟨hcurrent.symm, hlive⟩

/-- **An attach to a live segment stops the kernel** when another segment has been made since:
`_sys_shmat` knows the current segment only. -/
theorem shmat_panics : ∃ s, Reachable demoConfig (fun _ _ => True) s
    ∧ LiveId demoConfig s 0 ∧ ¬ Graceful demoConfig s (call 12 [0]) := by
  obtain ⟨s, hrun, hs⟩ := exists_run (step demoConfig) (fun _ _ => True) bootState
    [call 11 [96, 2], call 11 [96, 2]]
    (f := fun s => ((s.shm.segments (demoConfig.shm 0)).status,
      (s.shm.segments (demoConfig.shm 0)).id, (step demoConfig s (call 12 [0])).isOk))
    (b := (1, 0, false)) (by decide +kernel)
  obtain ⟨hlive, hid, hstop⟩ : s.Live demoConfig 0 ∧ (s.shm.segments (demoConfig.shm 0)).id = 0
      ∧ (step demoConfig s (call 12 [0])).isOk = false := by simpa [KState.Live] using hs
  refine ⟨s, Transition.Reachable.run (.of_init initial_bootState) hrun,
    ⟨0, hlive, by rw [hid]; rfl⟩, ?_⟩
  rintro ⟨s', hstep, -⟩
  rw [hstep] at hstop
  exact Bool.noConfusion hstop

end Sp2
