import Sp2.Shared.Calls

/-!
The arena of the segments.

* `grant`: the bytes a `shmget` gave to a segment, if it gave any.
* `SizeFits`: the sum that `_shm_malloc` compares is not cut to 32 bits.
* `arena_packed`: in every run whose sizes are such, the free pointer stays inside `_memory`,
  and so do all bytes ever given, no byte being given twice.
* `shmget_rewinds`: a size of almost `2 ^ 32` moves the free pointer back.
-/

namespace Sp2

open ProcTable Transition Arena

/-- The bytes that a `shmget` gave to a segment, if it gave it a non-null address. -/
def grant (t : Taken KState Event) : Option Block :=
  if t.event.call = some .shmget ∧ t.after.shm.currentShms ≠ 0 ∧ t.after.shm.current.address ≠ 0
  then some t.after.shm.current.block else none

/-- The bytes given to segments by the steps taken. -/
def grants (l : List (Taken KState Event)) : List Block := l.filterMap grant

/-- If the event is a `shmget` that finds a segment, the free pointer and the size have a sum
of 32 bits. -/
def SizeFits (s : KState) (e : Event) : Prop :=
  e.call = some .shmget → s.pool.headD 0 ≠ 0 →
    s.shm.freePtr.toNat + (e.args 0).toNat < 2 ^ 32

instance (s : KState) (e : Event) : Decidable (SizeFits s e) :=
  inferInstanceAs (Decidable (e.call = some .shmget → s.pool.headD 0 ≠ 0 →
    s.shm.freePtr.toNat + (e.args 0).toNat < 2 ^ 32))

/-- The blocks given so far fill the arena up to the free pointer, and every record in `_shms`
with a non-null address has one of them for itself. -/
structure ArenaKept (cfg : Config) (l : List (Taken KState Event)) (s : KState) : Prop
    extends Sound s where
  packed : Packed cfg.memory.toNat s.shm.freePtr.toNat (grants l)
  ptr_le : s.shm.freePtr.toNat ≤ cfg.memoryEnd
  granted : ∀ i, (s.shm.segments (cfg.shm i)).address ≠ 0 →
    (s.shm.segments (cfg.shm i)).block ∈ grants l
  apart : ∀ i j, i ≠ j → (s.shm.segments (cfg.shm i)).address ≠ 0 →
    (s.shm.segments (cfg.shm j)).address ≠ 0 →
    (s.shm.segments (cfg.shm i)).block.Disjoint (s.shm.segments (cfg.shm j)).block

section Steps

variable {cfg : Config} {l : List (Taken KState Event)} {s s' : KState} {e : Event} {p : PcbId}
  {a : UInt32}

lemma grant_of_ne (he : e.call ≠ some .shmget) : grant ⟨s, e, s'⟩ = none := if_neg fun h => he h.1

lemma grants_none {t : Taken KState Event} (h : grant t = none) : grants (l ++ [t]) = grants l := by
  rw [grants, List.filterMap_append, List.filterMap_cons_none h, List.filterMap_nil,
    List.append_nil, grants]

lemma grants_some {t : Taken KState Event} {b : Block} (h : grant t = some b) :
    grants (l ++ [t]) = grants l ++ [b] := by
  rw [grants, List.filterMap_append, List.filterMap_cons_some h, List.filterMap_nil, grants]

/-- What a `shmget` that takes a segment gives. -/
lemma grant_created (hcall : e.call = some .shmget) (ha : a ≠ 0) {mode size : UInt32}
    (hshm : s'.shm = s.shm.created cfg.memory a size mode) : grant ⟨s, e, s'⟩
      = if (s'.shm.segments a).address = 0 then none else some (s'.shm.segments a).block := by
  have hcurrent : s'.shm.currentShms = a := by
    rw [hshm]
    rfl
  rw [grant, Shm.current, hcurrent]
  by_cases hnull : (s'.shm.segments a).address = 0
  · rw [if_pos hnull, if_neg fun h => h.2.2 hnull]
  · rw [if_neg hnull, if_pos ⟨hcall, ha, hnull⟩]

/-- No byte belongs to two segments. -/
lemma ArenaKept.not_has {i j : Fin maxShms} {x : UInt32} (hl : cfg.Linked) (h : ArenaKept cfg l s)
    (hij : i ≠ j) (hx : (s.shm.segments (cfg.shm i)).Has x) :
    ¬ (s.shm.segments (cfg.shm j)).Has x := by
  have hends : ∀ i, (s.shm.segments (cfg.shm i)).address ≠ 0 →
      (s.shm.segments (cfg.shm i)).address.toNat + (s.shm.segments (cfg.shm i)).size.toNat
        < 2 ^ 32 := fun i hi =>
    lt_of_le_of_lt ((h.packed.within _ (h.granted i hi)).2.trans h.ptr_le) hl.memory_end
  intro hx'
  have hbyte := ((has_iff_block (hends i hx.1)).mp hx).2
  exact (h.apart i j hij hx.1 hx'.1).not_has hbyte ((has_iff_block (hends j hx'.1)).mp hx').2

/-- A step that makes no segment keeps the arena as it is. -/
lemma ArenaKept.other (h : ArenaKept cfg l s) (hs : Sound s')
    (hgrant : grant ⟨s, e, s'⟩ = none) (hptr : s'.shm.freePtr = s.shm.freePtr)
    (haddress : ∀ i, (s'.shm.segments (cfg.shm i)).address = (s.shm.segments (cfg.shm i)).address)
    (hsize : ∀ i, (s'.shm.segments (cfg.shm i)).size = (s.shm.segments (cfg.shm i)).size) :
    ArenaKept cfg (l ++ [⟨s, e, s'⟩]) s' := by
  have hlist := grants_none (l := l) hgrant
  have hblock : ∀ i, (s'.shm.segments (cfg.shm i)).block = (s.shm.segments (cfg.shm i)).block :=
    fun i => by rw [SharedmemSegment.block, haddress, hsize, SharedmemSegment.block]
  refine ⟨hs, by rw [hlist, hptr]; exact h.packed, by rw [hptr]; exact h.ptr_le, ?_, ?_⟩
  · intro i hi
    rw [haddress] at hi
    rw [hblock, hlist]
    exact h.granted i hi
  · intro i j hij hi hj
    rw [haddress] at hi hj
    rw [hblock, hblock]
    exact h.apart i j hij hi hj

/-- A segment that gets no bytes has a null address. -/
lemma ArenaKept.get_none (h : ArenaKept cfg l s) (hs : Sound s') (hcall : e.call = some .shmget)
    (ha : a ≠ 0) {mode size : UInt32} (hmalloc : s.shm.shmMalloc cfg.memory size = (0, s.shm))
    (hshm : s'.shm = s.shm.created cfg.memory a size mode) :
    ArenaKept cfg (l ++ [⟨s, e, s'⟩]) s' := by
  have hself : (s'.shm.segments a).address = 0 := by rw [hshm, created_self, hmalloc]
  have hptr : s'.shm.freePtr = s.shm.freePtr := by rw [hshm, Shm.created, hmalloc]
  have hgrant : grant ⟨s, e, s'⟩ = none := by rw [grant_created hcall ha hshm, if_pos hself]
  have hlist := grants_none (l := l) hgrant
  have hold : ∀ i, (s'.shm.segments (cfg.shm i)).address ≠ 0 →
      s'.shm.segments (cfg.shm i) = s.shm.segments (cfg.shm i) := by
    intro i hi
    have hne : cfg.shm i ≠ a := fun hia => hi (hia ▸ hself)
    rw [hshm, created_of_ne hne]
  refine ⟨hs, by rw [hlist, hptr]; exact h.packed, by rw [hptr]; exact h.ptr_le, ?_, ?_⟩
  · intro i hi
    have hrecord := hold i hi
    rw [hrecord] at hi
    rw [hrecord, hlist]
    exact h.granted i hi
  · intro i j hij hi hj
    have hrecord := hold i hi
    have hrecord' := hold j hj
    rw [hrecord] at hi
    rw [hrecord'] at hj
    rw [hrecord, hrecord']
    exact h.apart i j hij hi hj

/-- A segment that gets bytes gets those from the free pointer on. -/
lemma ArenaKept.get_some (hl : cfg.Linked) (h : ArenaKept cfg l s) (hs : Sound s')
    (hcall : e.call = some .shmget) (ha : a ≠ 0) {mode size : UInt32}
    (hmalloc : s.shm.shmMalloc cfg.memory size
      = (s.shm.freePtr, { s.shm with freePtr := s.shm.freePtr + size }))
    (hfits : s.shm.freePtr.toNat + size.toNat ≤ cfg.memoryEnd)
    (hshm : s'.shm = s.shm.created cfg.memory a size mode) :
    ArenaKept cfg (l ++ [⟨s, e, s'⟩]) s' := by
  have hself : (s'.shm.segments a).block = ⟨s.shm.freePtr.toNat, size.toNat⟩ := by
    rw [hshm, created_self, hmalloc]
    rfl
  have hptr : s'.shm.freePtr.toNat = s.shm.freePtr.toNat + size.toNat := by
    rw [hshm, Shm.created, hmalloc, UInt32.toNat_add, Nat.mod_eq_of_lt]
    exact lt_of_le_of_lt hfits hl.memory_end
  have hne : s.shm.freePtr ≠ 0 := by
    have hpos := UInt32.pos_iff_ne_zero.mpr hl.memory_ne
    have hle := h.packed.le
    rw [UInt32.lt_iff_toNat_lt] at hpos
    rw [← UInt32.pos_iff_ne_zero, UInt32.lt_iff_toNat_lt]
    omega
  have hgrant : grant ⟨s, e, s'⟩ = some ⟨s.shm.freePtr.toNat, size.toNat⟩ := by
    have haddress : (s'.shm.segments a).address ≠ 0 := by rwa [hshm, created_self, hmalloc]
    rw [grant_created hcall ha hshm, if_neg haddress, hself]
  have hlist := grants_some (l := l) hgrant
  have hold : ∀ i, cfg.shm i ≠ a →
      s'.shm.segments (cfg.shm i) = s.shm.segments (cfg.shm i) := fun i hi => by
    rw [hshm, created_of_ne hi]
  -- the new block is apart from the records that have blocks given before
  have hnew : ∀ i, cfg.shm i ≠ a → (s.shm.segments (cfg.shm i)).address ≠ 0 →
      (s.shm.segments (cfg.shm i)).block.Disjoint (s'.shm.segments a).block := by
    intro i hi haddress
    rw [hself]
    exact (h.packed.within _ (h.granted i haddress)).apart
  refine ⟨hs, by rw [hlist, hptr]; exact h.packed.push _, by rw [hptr]; exact hfits, ?_, ?_⟩
  · intro i hi
    rw [hlist]
    by_cases hia : cfg.shm i = a
    · rw [hia, hself]
      exact List.mem_append_right _ (List.mem_singleton.mpr rfl)
    · rw [hold i hia] at hi ⊢
      exact List.mem_append_left _ (h.granted i hi)
  · intro i j hij hi hj
    by_cases hia : cfg.shm i = a
    · have hja : cfg.shm j ≠ a := fun hja => hij (cfg.shm_injective (hia.trans hja.symm))
      rw [hold j hja] at hj ⊢
      rw [hia]
      exact (hnew j hja hj).symm
    · rw [hold i hia] at hi ⊢
      by_cases hja : cfg.shm j = a
      · rw [hja]
        exact hnew i hia hi
      · rw [hold j hja] at hj ⊢
        exact h.apart i j hij hi hj

/-- **One step**: only a `shmget` takes bytes of the arena. -/
lemma ArenaKept.step (hl : cfg.Linked) (h : ArenaKept cfg l s) (hok : SizeFits s e)
    (hstep : step cfg s e = .ok s') : ArenaKept cfg (l ++ [⟨s, e, s'⟩]) s' := by
  obtain ⟨p, hcur⟩ := h.exists_cur
  have hs' := step_sound h.toSound hstep
  cases step_shared h.toSound hcur hstep with
  | other no_call shared =>
      exact h.other hs' (grant_of_ne (call_ne_of_not_moves no_call rfl)) (by rw [shared.shm])
        (fun i => by rw [shared.shm]) fun i => by rw [shared.shm]
  | record own shm pool =>
      have hsame : ∀ i, s'.shm.segments (cfg.shm i) = s.shm.segments (cfg.shm i) := fun i => by
        rw [shm, setSegment_of_ne (own i)]
      exact h.other hs' (grant_of_ne (by simp [Event.call])) (by rw [shm]; rfl)
        (fun i => by rw [hsame]) fun i => by rw [hsame]
  | getNone is_call no_segment shm pool eax =>
      refine h.other hs' (if_neg fun hg => ?_) (by rw [shm]) (fun i => by rw [shm])
        fun i => by rw [shm]
      have hcurrent := hg.2.1
      rw [shm] at hcurrent
      exact hcurrent rfl
  | @get context args s' a is_call is_first not_null shm eax =>
      have hsum := hok (call_syscall _ is_call) (by rw [is_first]; exact not_null)
      have hmalloc := shmMalloc_eq hl hsum
      split_ifs at hmalloc with hfits
      · exact h.get_some hl hs' (call_syscall _ is_call) not_null hmalloc hfits shm
      · exact h.get_none hs' (call_syscall _ is_call) not_null hmalloc shm
  | full is_call is_current is_id no_slot shared eax
  | stranger is_call no_member shared eax
  | empty is_call is_member is_current is_id no_members shared eax =>
      exact h.other hs' (grant_of_ne (by simp [call_syscall _ is_call])) (by rw [shared.shm])
        (fun i => by rw [shared.shm]) fun i => by rw [shared.shm]
  | attach is_call is_current is_id is_slot shm pool eax
  | detach is_call is_member is_current is_id has_members is_place shm pool eax
  | remove is_call is_current is_id shm pool eax =>
      refine h.other hs' (grant_of_ne (by simp [call_syscall _ is_call])) (by rw [shm]; rfl)
        (fun i => ?_) fun i => ?_
      · rw [shm]
        exact setSegment_field (·.address) rfl _
      · rw [shm]
        exact setSegment_field (·.size) rfl _

end Steps

section Runs

variable {cfg : Config} {s s' : KState} {es : List Event}

lemma initial_arenaKept (h : Initial cfg s) : ArenaKept cfg [] s := by
  have hfresh := initial_shared h
  have hnull : ∀ i, (s.shm.segments (cfg.shm i)).address = 0 := fun i => by
    rw [hfresh.segments]
    rfl
  refine ⟨initial_sound h, by rw [hfresh.freePtr]; exact packed_nil _, ?_, ?_, ?_⟩
  · rw [hfresh.freePtr]
    exact Nat.le_add_right _ _
  · exact fun i hi => absurd (hnull i) hi
  · exact fun i j _ hi => absurd (hnull i) hi

/-- **The arena of the segments**, in every run whose sizes make sums of 32 bits: the free
pointer stays inside `_memory`, all bytes ever given lie inside and no byte is given twice,
and the segments of `_shms` have such bytes, different ones. -/
theorem arena_packed (hl : cfg.Linked) (h₀ : Initial cfg s) (h : Run cfg SizeFits s es s') :
    cfg.memory ≤ s'.shm.freePtr ∧ s'.shm.freePtr ≤ cfg.memory + maxMemSize
      ∧ Packed cfg.memory.toNat cfg.memoryEnd (grants (trace (step cfg) s es))
      ∧ (∀ i, (s'.shm.segments (cfg.shm i)).address ≠ 0 →
        (s'.shm.segments (cfg.shm i)).block ∈ grants (trace (step cfg) s es))
      ∧ ∀ i j, i ≠ j → (s'.shm.segments (cfg.shm i)).address ≠ 0 →
        (s'.shm.segments (cfg.shm j)).address ≠ 0 →
        (s'.shm.segments (cfg.shm i)).block.Disjoint (s'.shm.segments (cfg.shm j)).block := by
  have hkept := h.history (ArenaKept cfg) (initial_arenaKept h₀)
    fun l s e s' hJ hok hstep => hJ.step hl hok hstep
  refine ⟨?_, ?_, hkept.packed.mono hkept.ptr_le, hkept.granted, hkept.apart⟩
  · rw [UInt32.le_iff_toNat_le]
    exact hkept.packed.le
  · rw [UInt32.le_iff_toNat_le, memoryEnd_eq hl]
    exact hkept.ptr_le

end Runs

/-! ### A size of almost `2 ^ 32` -/

/-- Three processes' worth of segments: two that fit, one that does not. -/
def requests : List Event := [call 11 [96, 2], call 11 [400, 2], call 11 [64, 2]]

theorem arena_packed_requests : ∃ s', Run demoConfig SizeFits bootState requests s'
    ∧ demoConfig.memory ≤ s'.shm.freePtr ∧ s'.shm.freePtr ≤ demoConfig.memory + maxMemSize
    ∧ Packed demoConfig.memory.toNat demoConfig.memoryEnd
      (grants (trace (step demoConfig) bootState requests))
    ∧ (∀ i, (s'.shm.segments (demoConfig.shm i)).address ≠ 0 →
      (s'.shm.segments (demoConfig.shm i)).block
        ∈ grants (trace (step demoConfig) bootState requests))
    ∧ ∀ i j, i ≠ j → (s'.shm.segments (demoConfig.shm i)).address ≠ 0 →
      (s'.shm.segments (demoConfig.shm j)).address ≠ 0 →
      (s'.shm.segments (demoConfig.shm i)).block.Disjoint
        (s'.shm.segments (demoConfig.shm j)).block := by
  obtain ⟨s', hrun, -⟩ := exists_run (step demoConfig) SizeFits bootState requests
    (f := fun _ => ()) (b := ()) (by decide +kernel)
  exact ⟨s', hrun, arena_packed demoConfig_linked initial_bootState hrun⟩

/-- **A size of almost `2 ^ 32` moves the free pointer back**, below the arena: the sum that
`_shm_malloc` compares is cut to 32 bits. -/
theorem shmget_rewinds : Initial demoConfig bootState ∧
    ∃ s, Run demoConfig (fun _ _ => True) bootState [call 11 [0xfffffff8, 2]] s
      ∧ ¬ demoConfig.memory ≤ s.shm.freePtr := by
  obtain ⟨s, hrun, hptr⟩ := exists_run (step demoConfig) (fun _ _ => True) bootState
    [call 11 [0xfffffff8, 2]] (f := fun s => s.shm.freePtr) (b := demoConfig.memory - 8)
    (by decide +kernel)
  refine ⟨initial_bootState, s, hrun, ?_⟩
  rw [hptr]
  decide

end Sp2
