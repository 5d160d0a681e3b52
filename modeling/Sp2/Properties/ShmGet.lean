import Sp2.Shared.Calls

/-!
What a `shmget` takes.

* `Fits`, `Overlaps`: the requested size against what is left of the arena, and against the
  segments that are there.
* `AllOrNothing`: a `shmget` fails exactly when a segment or the memory for it is missing,
  and then changes nothing; otherwise it makes a segment with memory of its own.
* `Grantable`: both are there, and the free pointer is where it should be.
* `shmget_all_or_nothing_iff`: **`shmget` is all-or-nothing exactly when** it can grant the
  request, or has no segment and there is no current one. Nothing gives the segment back
  when the memory is missing.
-/

namespace Sp2

open ProcTable Transition Arena

/-- The size fits in what is left of the arena. -/
def Fits (cfg : Config) (s : KState) (size : UInt32) : Prop :=
  s.shm.freePtr.toNat + size.toNat ≤ cfg.memoryEnd

/-- The next block of the arena has bytes of another live segment. -/
def Overlaps (cfg : Config) (s : KState) (i : Fin maxShms) (size : UInt32) : Prop :=
  ∃ j ≠ i, s.Live cfg j ∧ (s.shm.segments (cfg.shm j)).address ≠ 0 ∧
    ¬ (s.shm.segments (cfg.shm j)).block.Disjoint ⟨s.shm.freePtr.toNat, size.toNat⟩

/-- After the step the segment is a new one, the current one, without members: its range of
the requested size was free before the step and is reserved after it. -/
structure NewSegment (cfg : Config) (s s' : KState) (i : Fin maxShms) (size : UInt32) : Prop where
  current : s'.shm.currentShms = cfg.shm i
  live : s'.Live cfg i
  answer : s.answer s' = some s'.shm.current.id.toUInt32
  not_null : s'.shm.current.address ≠ 0
  size : s'.shm.current.block.size = size.toNat
  within : s'.shm.current.block.Within cfg.memory.toNat cfg.memoryEnd
  reserved : s'.shm.current.block.Within s.shm.freePtr.toNat s'.shm.freePtr.toNat
  apart : ∀ j ≠ i, s'.Live cfg j → (s'.shm.segments (cfg.shm j)).address ≠ 0 →
    (s'.shm.segments (cfg.shm j)).block.Disjoint s'.shm.current.block
  no_members : s'.shm.current.numMembers = 0 ∧ ∀ k, s'.shm.current.currentPids k = 0

/-- The step fails exactly when a segment or the memory is missing, it changes nothing when it
fails, and otherwise makes a new segment. -/
structure AllOrNothing (cfg : Config) (s s' : KState) (size : UInt32) : Prop where
  fails_iff : s.answer s' = some minusOne ↔ s.pool = [] ∨ ¬ Fits cfg s size
  nothing : s.answer s' = some minusOne → SameShared s s'
  all : s.answer s' ≠ some minusOne → ∃ i, NewSegment cfg s s' i size

/-- The first segment of the pool is an element of `_shms`, and what is left of the arena has
room for the size, which no other segment uses. -/
def Grantable (cfg : Config) (s : KState) (size : UInt32) : Prop :=
  ∃ i, s.pool.head? = some (cfg.shm i) ∧ cfg.memory.toNat ≤ s.shm.freePtr.toNat
    ∧ Fits cfg s size ∧ ¬ Overlaps cfg s i size

instance (cfg : Config) (s : KState) (size : UInt32) : Decidable (Fits cfg s size) :=
  inferInstanceAs (Decidable (s.shm.freePtr.toNat + size.toNat ≤ cfg.memoryEnd))

instance (cfg : Config) (s : KState) (i : Fin maxShms) (size : UInt32) :
    Decidable (Overlaps cfg s i size) :=
  inferInstanceAs (Decidable (∃ j ≠ i, s.Live cfg j ∧ (s.shm.segments (cfg.shm j)).address ≠ 0 ∧
    ¬ (s.shm.segments (cfg.shm j)).block.Disjoint ⟨s.shm.freePtr.toNat, size.toNat⟩))

instance (cfg : Config) (s : KState) (size : UInt32) : Decidable (Grantable cfg s size) :=
  inferInstanceAs (Decidable (∃ i, s.pool.head? = some (cfg.shm i)
    ∧ cfg.memory.toNat ≤ s.shm.freePtr.toNat ∧ Fits cfg s size ∧ ¬ Overlaps cfg s i size))

section Steps

variable {cfg : Config} {s s' : KState} {e : Event} {p : PcbId} {i : Fin maxShms}
  {size mode : UInt32}

/-- A `shmget` returns. -/
lemma step_shmget_ok (cfg : Config) (hcur : s.procs.current = some p)
    (hcall : e.call = some .shmget) : ∃ s', step cfg s e = .ok s' := by
  obtain ⟨context, args, -, -, heq⟩ := step_call cfg hcur hcall
  obtain ⟨s', v, hres, -⟩ := sysShmget_ok cfg args (s.isrSave context) p
  exact ⟨s', heq.trans hres⟩

/-- A segment made of the first of the pool and of the next block of the arena is new if the
block lies inside and is used by no other. -/
lemma newSegment_of_created (hl : cfg.Linked)
    (hshm : s'.shm = s.shm.created cfg.memory (cfg.shm i) size mode)
    (hanswer : s.answer s' = some s.shm.nextShm.toUInt32)
    (hptr : cfg.memory.toNat ≤ s.shm.freePtr.toNat) (hfits : Fits cfg s size)
    (hfree : ¬ Overlaps cfg s i size) : NewSegment cfg s s' i size := by
  have hsum : s.shm.freePtr.toNat + size.toNat < 2 ^ 32 := lt_of_le_of_lt hfits hl.memory_end
  have hmalloc := (shmMalloc_eq hl hsum).trans (if_pos hfits)
  have hcurrent : s'.shm.current
      = ⟨s.shm.freePtr, 0, size, mode, s.shm.nextShm, fun _ => 0, 1⟩ := by
    rw [hshm]
    change (s.shm.created cfg.memory (cfg.shm i) size mode).segments (cfg.shm i) = _
    rw [created_self, hmalloc]
  have hend : s'.shm.freePtr.toNat = s.shm.freePtr.toNat + size.toNat := by
    rw [hshm, Shm.created, hmalloc, UInt32.toNat_add, Nat.mod_eq_of_lt hsum]
  have hnull : s.shm.freePtr ≠ 0 := by
    intro h0
    rw [h0] at hptr
    exact hl.memory_ne (UInt32.toNat_inj.mp (Nat.le_zero.mp hptr))
  have hold : ∀ j ≠ i, s'.shm.segments (cfg.shm j) = s.shm.segments (cfg.shm j) := by
    intro j hj
    rw [hshm, created_of_ne fun h => hj (cfg.shm_injective h)]
  refine ⟨by rw [hshm]; rfl, ?_, ?_, ?_, ?_, ?_, ?_, ?_, ?_⟩
  · rw [KState.Live, hshm, created_self]
  · rw [hcurrent]
    exact hanswer
  · rw [hcurrent]
    exact hnull
  · rw [hcurrent]
    rfl
  · rw [hcurrent]
    exact ⟨hptr, hfits⟩
  · rw [hcurrent, hend]
    exact ⟨le_rfl, le_rfl⟩
  · intro j hj hlive haddress
    rw [KState.Live, hold j hj] at hlive
    rw [hold j hj] at haddress ⊢
    rw [hcurrent]
    by_contra hapart
    exact hfree ⟨j, hj, hlive, haddress, hapart⟩
  · rw [hcurrent]
    exact ⟨rfl, fun _ => rfl⟩

/-- A new segment was made of what could be granted. -/
lemma grantable_of_newSegment (hl : cfg.Linked) {a : UInt32} (hpool : s.pool = a :: s'.pool)
    (hshm : s'.shm = s.shm.created cfg.memory a size mode) (hfits : Fits cfg s size)
    (hnew : NewSegment cfg s s' i size) : Grantable cfg s size := by
  obtain rfl : a = cfg.shm i := by
    have hcurrent := hnew.current
    rw [hshm] at hcurrent
    exact hcurrent
  have hmalloc := (shmMalloc_eq hl (lt_of_le_of_lt hfits hl.memory_end)).trans (if_pos hfits)
  have hblock : s'.shm.current.block = ⟨s.shm.freePtr.toNat, size.toNat⟩ := by
    rw [hshm]
    change ((s.shm.created cfg.memory (cfg.shm i) size mode).segments (cfg.shm i)).block = _
    rw [created_self, hmalloc]
    rfl
  have hwithin := hnew.within
  rw [hblock] at hwithin
  refine ⟨i, by rw [hpool]; rfl, hwithin.1, hfits, ?_⟩
  rintro ⟨j, hj, hlive, haddress, hnot⟩
  have hold : s'.shm.segments (cfg.shm j) = s.shm.segments (cfg.shm j) := by
    rw [hshm, created_of_ne fun h => hj (cfg.shm_injective h)]
  have hapart := hnew.apart j hj
  rw [KState.Live, hold, hblock] at hapart
  exact hnot (hapart hlive haddress)

end Steps

section Reachable

variable {cfg : Config} {P : KState → Event → Prop} {s : KState} {e : Event}

/-- **`shmget` is all-or-nothing exactly when** the request can be granted, or there are
neither segments in the pool nor a current segment. -/
theorem shmget_all_or_nothing_iff (hl : cfg.Linked) (h : Reachable cfg P s)
    (hcall : e.call = some .shmget) :
    (∃ s', step cfg s e = .ok s' ∧ AllOrNothing cfg s s' (e.args 0))
      ↔ s.pool = [] ∧ s.shm.currentShms = 0 ∨ Grantable cfg s (e.args 0) := by
  have hs := reachable_sound h
  obtain ⟨p, hcur⟩ := hs.exists_cur
  obtain ⟨s', hstep⟩ := step_shmget_ok cfg hcur hcall
  have hanswer : s.answer s' = s'.eax p := answer_eq hcur
  have hcases := (step_shared hs hcur hstep).shmget_cases hcall
  constructor
  · rintro ⟨t, hstep', hall⟩
    obtain rfl : t = s' := Except.ok.inj (hstep'.symm.trans hstep)
    rcases hcases with ⟨-, hshm, hpool, heax⟩ | ⟨a, ha, hpool, hshm, heax⟩
    · -- the first entry is lost, and so is the current segment
      have hsame := hall.nothing (hanswer.trans heax)
      refine Or.inl ⟨?_, ?_⟩
      · have hlen := congrArg List.length (hsame.pool.symm.trans hpool)
        rw [List.length_tail] at hlen
        exact List.length_eq_zero_iff.mp (by omega)
      · have hcurrent := congrArg Shm.currentShms (hsame.shm.symm.trans hshm)
        exact hcurrent
    · have hok : s.answer t ≠ some minusOne := by
        rw [hanswer, heax]
        exact fun h => toUInt32_ne_minusOne _ (Option.some.inj h)
      have hfits : Fits cfg s (e.args 0) := by
        by_contra hnot
        exact hok (hall.fails_iff.mpr (Or.inr hnot))
      obtain ⟨i, hnew⟩ := hall.all hok
      exact Or.inr (grantable_of_newSegment hl hpool hshm hfits hnew)
  · rintro (⟨hnil, hnull⟩ | ⟨i, hhead, hptr, hfits, hfree⟩)
    · rcases hcases with ⟨-, hshm, hpool, heax⟩ | ⟨a, -, hpool, -⟩
      · refine ⟨s', hstep, ?_, fun _ => ?_, fun hne => absurd (hanswer.trans heax) hne⟩
        · exact ⟨fun _ => Or.inl hnil, fun _ => hanswer.trans heax⟩
        · refine ⟨?_, by rw [hpool, hnil]; rfl⟩
          rw [hshm, ← hnull]
      · rw [hnil] at hpool
        exact absurd hpool (by simp)
    · rcases hcases with ⟨hnone, -⟩ | ⟨a, -, hpool, hshm, heax⟩
      · rw [List.headD_eq_head?_getD, hhead] at hnone
        exact absurd hnone (hl.shm_ne i)
      · obtain rfl : a = cfg.shm i := by
          rw [hpool] at hhead
          exact Option.some.inj hhead
        have hok : s.answer s' ≠ some minusOne := by
          rw [hanswer, heax]
          exact fun h => toUInt32_ne_minusOne _ (Option.some.inj h)
        refine ⟨s', hstep, ?_, fun hfail => absurd hfail hok, fun _ => ⟨i, ?_⟩⟩
        · refine ⟨fun hfail => absurd hfail hok, ?_⟩
          rintro (hnil | hnot)
          · rw [hpool] at hnil
            exact absurd hnil (by simp)
          · exact absurd hfits hnot
        · exact newSegment_of_created hl hshm (hanswer.trans heax) hptr hfits hfree

end Reachable

/-! ### More than there is -/

theorem shmget_all_or_nothing_iff_boot :
    (∃ s', step demoConfig bootState (call 11 [96, 2]) = .ok s'
      ∧ AllOrNothing demoConfig bootState s' 96) ∧ Grantable demoConfig bootState 96 := by
  have hgrant : Grantable demoConfig bootState 96 := by decide +kernel
  have hreach : Reachable demoConfig (fun _ _ => True) bootState := .of_init initial_bootState
  exact ⟨(shmget_all_or_nothing_iff demoConfig_linked hreach rfl).mpr (Or.inr hgrant), hgrant⟩

/-- **A request for more than the arena has does not fail**: `_sys_shmget` does not look at
what `_shm_malloc` returns. -/
theorem shmget_takes_part : Initial demoConfig bootState ∧
    ∃ s', step demoConfig bootState (call 11 [600, 2]) = .ok s'
      ∧ ¬ AllOrNothing demoConfig bootState s' 600 := by
  obtain ⟨s', hrun, hanswer⟩ := exists_run (step demoConfig) (fun _ _ => True) bootState
    [call 11 [600, 2]] (f := fun s' => bootState.answer s') (b := some 0) (by decide +kernel)
  obtain ⟨s₁, -, hstep, hnil⟩ := run_cons.mp hrun
  obtain rfl := run_nil.mp hnil
  refine ⟨initial_bootState, s', hstep, fun hall => ?_⟩
  have hfail := hall.fails_iff.mpr (Or.inr (by decide +kernel))
  rw [hanswer] at hfail
  exact absurd hfail (by decide)

end Sp2
