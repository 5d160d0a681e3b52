import Sp2.Shared.Calls

/-!
The members of a segment.

* `Attaches`, `Leaves`: a process got a segment's address from `shmat`, and what ends that.
* `JoinsFreePlace`: the place that `shmat` finds from the number of members is free, and the
  segment has an address.
* `LeavesCurrent`: the record that `shmdt` checks is the one it changes.
* `members_recorded`: in every run of such calls by processes with PIDs other than zero, the
  members recorded are those that have attached and not left, and an attach succeeds while
  there are fewer than two.
* `shmat_evicts`: when the first of two members leaves, the next one takes the place of the
  second.
-/

namespace Sp2

open ProcTable Transition

/-- The step is a `shmat` that gave the process with a PID the address of a segment. -/
def Attaches (a : UInt32) (pid : UInt16) (t : Taken KState Event) : Prop :=
  t.event.call = some .shmat ∧ t.before.shm.currentShms = a ∧ t.before.callerPid = pid
    ∧ t.before.answer t.after ≠ some 0

/-- The step is a `shmdt` of a segment that succeeded for the process with a PID, or a
`shmget` that made the segment a new one. -/
def Leaves (cfg : Config) (a : UInt32) (pid : UInt16) (t : Taken KState Event) : Prop :=
  (Detaches cfg a t ∧ t.before.callerPid = pid) ∨ Gets a t

/-- After the steps taken, the process with a PID is attached to a segment. -/
abbrev Attached (cfg : Config) (a : UInt32) (pid : UInt16) (l : List (Taken KState Event)) : Prop :=
  Since (Attaches a pid) (Leaves cfg a pid) l

/-- If the event is a `shmat` or a `shmdt`, the PID of the caller is not zero. -/
def CallerHasPid (s : KState) (e : Event) : Prop :=
  e.call = some .shmat ∨ e.call = some .shmdt → s.callerPid ≠ 0

/-- If the event is a `shmat` of an element of `_shms` that finds a place, the place is free,
the caller is not recorded yet and the segment has an address. -/
def JoinsFreePlace (cfg : Config) (s : KState) (e : Event) : Prop :=
  e.call = some .shmat → (∃ i, cfg.shm i = s.shm.currentShms) →
    e.args 0 = s.shm.current.id.toUInt32 → ∀ k, s.shm.current.slot = some k →
    s.shm.current.currentPids k = 0 ∧ s.shm.current.hasMember s.callerPid = false
      ∧ s.shm.current.address ≠ 0

/-- If the event is a `shmdt` that passes its checks with an element of `_shms`, this is the
current segment, or the call fails. -/
def LeavesCurrent (cfg : Config) (s : KState) (e : Event) : Prop :=
  e.call = some .shmdt → (∃ i, cfg.shm i = e.args 0) →
    (s.shm.segments (e.args 0)).hasMember s.callerPid = true →
    s.shm.currentShms ≠ 0 → (s.shm.segments (e.args 0)).id = s.shm.current.id →
    e.args 0 = s.shm.currentShms
      ∨ s.shm.current.numMembers ≠ 0 ∧ s.shm.current.hasMember s.callerPid = false

/-- The steps of the runs. -/
def MembersMove (cfg : Config) (s : KState) (e : Event) : Prop :=
  CallerHasPid s e ∧ JoinsFreePlace cfg s e ∧ LeavesCurrent cfg s e

instance (s : KState) (e : Event) : Decidable (CallerHasPid s e) :=
  inferInstanceAs (Decidable (e.call = some .shmat ∨ e.call = some .shmdt → s.callerPid ≠ 0))

instance (cfg : Config) (s : KState) (e : Event) : Decidable (JoinsFreePlace cfg s e) :=
  inferInstanceAs (Decidable (e.call = some .shmat → (∃ i, cfg.shm i = s.shm.currentShms) →
    e.args 0 = s.shm.current.id.toUInt32 → ∀ k, s.shm.current.slot = some k →
    s.shm.current.currentPids k = 0 ∧ s.shm.current.hasMember s.callerPid = false
      ∧ s.shm.current.address ≠ 0))

instance (cfg : Config) (s : KState) (e : Event) : Decidable (LeavesCurrent cfg s e) :=
  inferInstanceAs (Decidable (e.call = some .shmdt → (∃ i, cfg.shm i = e.args 0) →
    (s.shm.segments (e.args 0)).hasMember s.callerPid = true →
    s.shm.currentShms ≠ 0 → (s.shm.segments (e.args 0)).id = s.shm.current.id →
    e.args 0 = s.shm.currentShms
      ∨ s.shm.current.numMembers ≠ 0 ∧ s.shm.current.hasMember s.callerPid = false))

instance (cfg : Config) (s : KState) (e : Event) : Decidable (MembersMove cfg s e) :=
  inferInstanceAs (Decidable (CallerHasPid s e ∧ JoinsFreePlace cfg s e ∧ LeavesCurrent cfg s e))

/-- What the record at an address says is what has happened. -/
structure MembersKept (cfg : Config) (a : UInt32) (l : List (Taken KState Event)) (s : KState) :
    Prop where
  num : (s.shm.segments a).numMembers.toNat = (s.shm.segments a).recorded.length
  nodup : (s.shm.segments a).recorded.Nodup
  members : ∀ pid, pid ∈ (s.shm.segments a).recorded ↔ Attached cfg a pid l

section Steps

variable {cfg : Config} {l : List (Taken KState Event)} {s s' : KState} {e : Event} {p : PcbId}
  {a : UInt32} {pid : UInt16} {k : Fin maxMembers}

lemma attached_concat {t : Taken KState Event} : Attached cfg a pid (l ++ [t])
    ↔ Attaches a pid t ∨ Attached cfg a pid l ∧ ¬ Leaves cfg a pid t := since_concat

lemma not_attaches (he : e.call ≠ some .shmat) : ¬ Attaches a pid ⟨s, e, s'⟩ := fun h => he h.1

lemma not_leaves (hdt : e.call ≠ some .shmdt) (hget : ¬ Gets a ⟨s, e, s'⟩) :
    ¬ Leaves cfg a pid ⟨s, e, s'⟩ := by
  rintro (h | h)
  · exact hdt h.1.1
  · exact hget h

/-- A step that leaves the members of a record as they are, and in which none comes or goes. -/
lemma MembersKept.keep (h : MembersKept cfg a l s)
    (hnum : (s'.shm.segments a).numMembers = (s.shm.segments a).numMembers)
    (hpids : (s'.shm.segments a).currentPids = (s.shm.segments a).currentPids)
    (hattach : ∀ pid, ¬ Attaches a pid ⟨s, e, s'⟩)
    (hleave : ∀ pid ∈ (s.shm.segments a).recorded, ¬ Leaves cfg a pid ⟨s, e, s'⟩) :
    MembersKept cfg a (l ++ [⟨s, e, s'⟩]) s' := by
  have hrecorded : (s'.shm.segments a).recorded = (s.shm.segments a).recorded := by
    rw [SharedmemSegment.recorded, hpids, SharedmemSegment.recorded]
  refine ⟨by rw [hnum, hrecorded]; exact h.num, by rw [hrecorded]; exact h.nodup, fun pid => ?_⟩
  rw [hrecorded, attached_concat, or_iff_right (hattach pid), ← h.members pid]
  exact (and_iff_left_of_imp (hleave pid)).symm

/-- A step by which nobody attaches or detaches, and that makes no new segment of the record. -/
lemma MembersKept.other (h : MembersKept cfg a l s)
    (hnum : (s'.shm.segments a).numMembers = (s.shm.segments a).numMembers)
    (hpids : (s'.shm.segments a).currentPids = (s.shm.segments a).currentPids)
    (hat : e.call ≠ some .shmat) (hdt : e.call ≠ some .shmdt) (hget : ¬ Gets a ⟨s, e, s'⟩) :
    MembersKept cfg a (l ++ [⟨s, e, s'⟩]) s' :=
  h.keep hnum hpids (fun _ => not_attaches hat) fun _ _ => not_leaves hdt hget

/-- A new segment has no members. -/
lemma MembersKept.get (hcall : e.call = some .shmget) (ha : a ≠ 0) {size mode : UInt32}
    (hshm : s'.shm = s.shm.created cfg.memory a size mode) :
    MembersKept cfg a (l ++ [⟨s, e, s'⟩]) s' := by
  have hnil : (s'.shm.segments a).recorded = [] := by
    rw [hshm, created_self]
    rfl
  refine ⟨?_, by rw [hnil]; exact List.nodup_nil, fun pid => ?_⟩
  · rw [hnil, hshm, created_self]
    rfl
  · rw [hnil, attached_concat]
    constructor
    · exact fun h => absurd h List.not_mem_nil
    · rintro (hattach | ⟨-, hleave⟩)
      · exact absurd hattach (not_attaches (by simp [hcall]))
      · exact absurd (Or.inr ⟨hcall, by rw [hshm]; rfl, ha⟩) hleave

/-- A process that attaches is recorded, and nobody else is affected. -/
lemma MembersKept.join (h : MembersKept cfg a l s) (hcall : e.call = some .shmat)
    (hcurrent : s.shm.currentShms = a) (hpid : s.callerPid ≠ 0)
    (hslot : (s.shm.segments a).slot = some k) (hfree : (s.shm.segments a).currentPids k = 0)
    (hnew : (s.shm.segments a).hasMember s.callerPid = false)
    (hshm : s'.shm = s.shm.setSegment a (·.join k s.callerPid))
    (hanswer : s.answer s' ≠ some 0) : MembersKept cfg a (l ++ [⟨s, e, s'⟩]) s' := by
  have hperm : (s'.shm.segments a).recorded.Perm
      (s.callerPid :: (s.shm.segments a).recorded) := by
    rw [hshm, setSegment_self]
    exact recorded_join hfree hpid
  have hnot : s.callerPid ∉ (s.shm.segments a).recorded := by
    rw [mem_recorded_iff hpid, hnew]
    simp
  refine ⟨?_, hperm.nodup_iff.mpr (List.nodup_cons.mpr ⟨hnot, h.nodup⟩), fun pid => ?_⟩
  · rw [hperm.length_eq, List.length_cons, ← h.num, hshm, setSegment_self]
    change ((s.shm.segments a).numMembers + 1).toNat = _
    have hlt := slot_num hslot
    rw [UInt32.toNat_add, UInt32.toNat_one, Nat.mod_eq_of_lt (by change _ < 2 at hlt; omega)]
  · rw [hperm.mem_iff, List.mem_cons, attached_concat, h.members]
    have hleave : ¬ Leaves cfg a pid ⟨s, e, s'⟩ :=
      not_leaves (by simp [hcall]) (not_gets (by simp [hcall]))
    rw [and_iff_left hleave]
    refine or_congr ?_ Iff.rfl
    exact ⟨fun hp => ⟨hcall, hcurrent, hp.symm, hanswer⟩, fun hp => hp.2.2.1.symm⟩

/-- A process that leaves is recorded no more, and nobody else is affected. -/
lemma MembersKept.leave (h : MembersKept cfg a l s) (hcall : e.call = some .shmdt)
    (harg : e.args 0 = a ∨ (∀ i, cfg.shm i ≠ e.args 0) ∧ s.shm.currentShms = a)
    (hpid : s.callerPid ≠ 0)
    (hplace : (s.shm.segments a).place s.callerPid = some k)
    (hshm : s'.shm = s.shm.setSegment a (·.leave k)) (hanswer : s.answer s' = some 1) :
    MembersKept cfg a (l ++ [⟨s, e, s'⟩]) s' := by
  have hperm : (s.shm.segments a).recorded.Perm
      (s.callerPid :: (s'.shm.segments a).recorded) := by
    rw [hshm, setSegment_self]
    exact recorded_leave (place_spec hplace) hpid
  have hnodup := List.nodup_cons.mp (hperm.nodup_iff.mp h.nodup)
  refine ⟨?_, hnodup.2, fun pid => ?_⟩
  · have hlen := hperm.length_eq
    rw [List.length_cons, ← h.num] at hlen
    rw [hshm, setSegment_self]
    change ((s.shm.segments a).numMembers - 1).toNat = _
    rw [UInt32.toNat_sub_of_le _ _ (by rw [UInt32.le_iff_toNat_le]; change 1 ≤ _; omega)]
    rw [hshm, setSegment_self] at hlen
    change _ - 1 = _
    omega
  · have hattach : ¬ Attaches a pid ⟨s, e, s'⟩ := not_attaches (by simp [hcall])
    rw [attached_concat, or_iff_right hattach, ← h.members, hperm.mem_iff, List.mem_cons]
    constructor
    · intro hmem
      refine ⟨Or.inr hmem, ?_⟩
      rintro (⟨-, hp⟩ | ⟨hget, -⟩)
      · exact hnodup.1 (hp ▸ hmem)
      · exact absurd (hcall.symm.trans hget) (by simp)
    · rintro ⟨rfl | hmem, hleave⟩
      · exact absurd (Or.inl ⟨⟨hcall, hanswer, harg⟩, rfl⟩) hleave
      · exact hmem

/-- An element that passes the checks of a `shmdt` is the current segment, if this has no
members or the caller is one of them. -/
lemma LeavesCurrent.eq_current (hleave : LeavesCurrent cfg s e) (hcall : e.call = some .shmdt)
    (hmember : (s.shm.segments (e.args 0)).hasMember s.callerPid = true)
    (hcurrent : s.shm.currentShms ≠ 0) (hid : (s.shm.segments (e.args 0)).id = s.shm.current.id)
    (hin : s.shm.current.numMembers = 0 ∨ s.shm.current.hasMember s.callerPid = true)
    (helement : ∃ i, cfg.shm i = e.args 0) : e.args 0 = s.shm.currentShms := by
  rcases hleave hcall helement hmember hcurrent hid with hsame | ⟨hnum, hout⟩
  · exact hsame
  · rcases hin with hzero | hin
    · exact absurd hzero hnum
    · exact absurd (hin.symm.trans hout) (by simp)

section Current

/- The element passed, if it is one, is the current segment. -/
variable {i : Fin maxShms} (helement : (∃ i, cfg.shm i = e.args 0) → e.args 0 = s.shm.currentShms)

include helement

/-- What is detached is then the current segment. -/
lemma current_of_detaches (h : Detaches cfg (cfg.shm i) ⟨s, e, s'⟩) :
    s.shm.currentShms = cfg.shm i := by
  obtain ⟨-, -, harg | ⟨-, hcurrent⟩⟩ := h
  · exact (helement ⟨i, harg.symm⟩).symm.trans harg
  · exact hcurrent

/-- A detach from a current segment without members changes nothing. -/
lemma MembersKept.empty (h : MembersKept cfg (cfg.shm i) l s) (hcall : e.call = some .shmdt)
    (hnum : s.shm.current.numMembers = 0) (hshared : SameShared s s') :
    MembersKept cfg (cfg.shm i) (l ++ [⟨s, e, s'⟩]) s' := by
  refine h.keep (by rw [hshared.shm]) (by rw [hshared.shm])
    (fun pid => not_attaches (by simp [hcall])) fun pid hmem => ?_
  rintro (⟨hdetach, -⟩ | ⟨hget, -⟩)
  · -- nobody is recorded in the current segment
    rw [Shm.current, current_of_detaches helement hdetach] at hnum
    have hlen := h.num
    rw [hnum] at hlen
    exact absurd (List.length_pos_of_mem hmem) (by rw [← hlen]; decide)
  · exact absurd hget (by simp [hcall])

/-- A detach takes the caller out of the current segment. -/
lemma MembersKept.detach (h : MembersKept cfg (cfg.shm i) l s) (hcall : e.call = some .shmdt)
    (hpid : s.callerPid ≠ 0) (hplace : s.shm.current.place s.callerPid = some k)
    (hshm : s'.shm = s.shm.setSegment s.shm.currentShms (·.leave k))
    (hanswer : s.answer s' = some 1) : MembersKept cfg (cfg.shm i) (l ++ [⟨s, e, s'⟩]) s' := by
  by_cases ha : s.shm.currentShms = cfg.shm i
  · rw [Shm.current, ha] at hplace
    rw [ha] at hshm
    refine h.leave hcall ?_ hpid hplace hshm hanswer
    by_cases hown : ∃ i, cfg.shm i = e.args 0
    · exact Or.inl ((helement hown).trans ha)
    · exact Or.inr ⟨not_exists.mp hown, ha⟩
  · have hsame : s'.shm.segments (cfg.shm i) = s.shm.segments (cfg.shm i) := by
      rw [hshm, setSegment_of_ne (Ne.symm ha)]
    refine h.keep (by rw [hsame]) (by rw [hsame])
      (fun pid => not_attaches (by simp [hcall])) fun pid _ => ?_
    rintro (⟨hdetach, -⟩ | ⟨hget, -⟩)
    · exact ha (current_of_detaches helement hdetach)
    · exact absurd hget (by simp [hcall])

end Current

/-- An attach records the caller in the current segment. -/
lemma MembersKept.attach {i : Fin maxShms} (h : MembersKept cfg (cfg.shm i) l s)
    (hcall : e.call = some .shmat) (hpid : s.callerPid ≠ 0) (hjoin : JoinsFreePlace cfg s e)
    (hid : e.args 0 = s.shm.current.id.toUInt32) (hslot : s.shm.current.slot = some k)
    (hshm : s'.shm = s.shm.setSegment s.shm.currentShms (·.join k s.callerPid))
    (hanswer : s.answer s' = some s.shm.current.address) :
    MembersKept cfg (cfg.shm i) (l ++ [⟨s, e, s'⟩]) s' := by
  by_cases ha : s.shm.currentShms = cfg.shm i
  · obtain ⟨hfree, hnew, haddress⟩ := hjoin hcall ⟨i, ha.symm⟩ hid k hslot
    rw [Shm.current, ha] at hslot hfree hnew
    rw [ha] at hshm
    refine h.join hcall ha hpid hslot hfree hnew hshm ?_
    rw [hanswer]
    exact fun hz => haddress (Option.some.inj hz)
  · have hsame : s'.shm.segments (cfg.shm i) = s.shm.segments (cfg.shm i) := by
      rw [hshm, setSegment_of_ne (Ne.symm ha)]
    exact h.keep (by rw [hsame]) (by rw [hsame]) (fun pid hattach => ha hattach.2.1)
      fun pid _ => not_leaves (by simp [hcall]) (not_gets (by simp [hcall]))

/-- **One step** keeps the record of an element of `_shms` true. -/
lemma membersKept_step {i : Fin maxShms} (hs : Sound s) (h : MembersKept cfg (cfg.shm i) l s)
    (hok : MembersMove cfg s e) (hstep : step cfg s e = .ok s') :
    MembersKept cfg (cfg.shm i) (l ++ [⟨s, e, s'⟩]) s' := by
  obtain ⟨hcaller, hjoin, hleave⟩ := hok
  obtain ⟨p, hcur⟩ := hs.exists_cur
  have hanswer : s.answer s' = s'.eax p := answer_eq hcur
  have hpid := callerPid_eq hcur
  cases step_shared hs hcur hstep with
  | other no_call shared =>
      exact h.other (by rw [shared.shm]) (by rw [shared.shm]) (call_ne_of_not_moves no_call rfl)
        (call_ne_of_not_moves no_call rfl) (not_gets (call_ne_of_not_moves no_call rfl))
  | record own shm pool =>
      have hsame : s'.shm.segments (cfg.shm i) = s.shm.segments (cfg.shm i) := by
        rw [shm, setSegment_of_ne (own i)]
      exact h.other (by rw [hsame]) (by rw [hsame]) (by simp [Event.call]) (by simp [Event.call])
        (not_gets (by simp [Event.call]))
  | getNone is_call no_segment shm pool eax =>
      exact h.other (by rw [shm]) (by rw [shm]) (by simp [call_syscall _ is_call])
        (by simp [call_syscall _ is_call]) (not_gets_null (by rw [shm]))
  | @get context args s' a is_call is_first not_null shm eax =>
      by_cases ha : cfg.shm i = a
      · subst ha
        exact .get (call_syscall _ is_call) not_null shm
      · have hsame : s'.shm.segments (cfg.shm i) = s.shm.segments (cfg.shm i) := by
          rw [shm, created_of_ne ha]
        refine h.other (by rw [hsame]) (by rw [hsame]) (by simp [call_syscall _ is_call])
          (by simp [call_syscall _ is_call]) ?_
        rintro ⟨-, hcurrent, -⟩
        rw [shm] at hcurrent
        exact ha hcurrent.symm
  | attach is_call is_current is_id is_slot shm pool eax =>
      rw [← hpid] at shm
      exact h.attach (call_syscall _ is_call) (hcaller (Or.inl (call_syscall _ is_call))) hjoin
        is_id is_slot shm (hanswer.trans eax)
  | full is_call is_current is_id no_slot shared eax =>
      refine h.keep (by rw [shared.shm]) (by rw [shared.shm]) (fun pid hattach => ?_)
        fun pid _ => not_leaves (by simp [call_syscall _ is_call])
          (not_gets (by simp [call_syscall _ is_call]))
      exact hattach.2.2.2 (hanswer.trans eax)
  | stranger is_call no_member shared eax =>
      refine h.keep (by rw [shared.shm]) (by rw [shared.shm])
        (fun pid => not_attaches (by simp [call_syscall _ is_call])) fun pid _ => ?_
      rintro (⟨⟨-, hone, -⟩, -⟩ | ⟨hget, -⟩)
      · exact absurd (hone.symm.trans (hanswer.trans eax)) (by decide)
      · exact absurd hget (by simp [call_syscall _ is_call])
  | empty is_call is_member is_current is_id no_members shared eax =>
      rw [← hpid] at is_member
      exact h.empty (hleave.eq_current (call_syscall _ is_call) is_member is_current is_id
        (Or.inl no_members)) (call_syscall _ is_call) no_members shared
  | @detach _ _ s' k is_call is_member is_current is_id has_members is_place shm pool eax =>
      rw [← hpid] at is_member is_place
      have hin : s.shm.current.hasMember s.callerPid = true :=
        hasMember_iff.mpr ⟨k, place_spec is_place⟩
      exact h.detach (hleave.eq_current (call_syscall _ is_call) is_member is_current is_id
          (Or.inr hin)) (call_syscall _ is_call) (hcaller (Or.inr (call_syscall _ is_call)))
        is_place shm (hanswer.trans eax)
  | remove is_call is_current is_id shm pool eax =>
      refine h.other ?_ ?_ (by simp [call_syscall _ is_call]) (by simp [call_syscall _ is_call])
        (not_gets (by simp [call_syscall _ is_call]))
      · rw [shm]
        exact setSegment_field (·.numMembers) rfl _
      · rw [shm]
        exact setSegment_field (·.currentPids) rfl _

/-- An attach in the runs succeeds, and evicts nobody, while at most one process is
attached. -/
lemma attach_succeeds {i : Fin maxShms} (hs : Sound s) (h : MembersKept cfg (cfg.shm i) l s)
    (hok : MembersMove cfg s e) (hstep : step cfg s e = .ok s') (hcall : e.call = some .shmat)
    (hcurrent : s.shm.currentShms = cfg.shm i)
    (hone : ∀ x y, Attached cfg (cfg.shm i) x l → Attached cfg (cfg.shm i) y l → x = y) :
    s.answer s' ≠ some 0
      ∧ ∀ pid, Attached cfg (cfg.shm i) pid l → pid ∈ (s'.shm.segments (cfg.shm i)).recorded := by
  obtain ⟨p, hcur⟩ := hs.exists_cur
  have hanswer : s.answer s' = s'.eax p := answer_eq hcur
  have hkept := membersKept_step hs h hok hstep
  refine ⟨?_, fun pid hpid => ?_⟩
  · have hlen : (s.shm.segments (cfg.shm i)).recorded.length ≤ 1 := by
      by_contra hlong
      have hne := List.pairwise_iff_getElem.mp h.nodup 0 1 (by omega) (by omega) (by omega)
      exact hne (hone _ _ ((h.members _).mp (List.getElem_mem _))
        ((h.members _).mp (List.getElem_mem _)))
    have hnum := h.num
    obtain ⟨k, hslot⟩ : ∃ k, s.shm.current.slot = some k := by
      refine exists_slot ?_
      rw [Shm.current, hcurrent, hnum]
      exact lt_of_le_of_lt hlen (by decide)
    obtain ⟨hid, ⟨k', hslot', -, heax⟩ | ⟨hnone, -⟩⟩ :=
      (step_shared hs hcur hstep).shmat_cases hcall
    · rw [hanswer, heax]
      exact fun hz => (hok.2.1 hcall ⟨i, hcurrent.symm⟩ hid k' hslot').2.2 (Option.some.inj hz)
    · rw [hnone] at hslot
      exact absurd hslot (by simp)
  · rw [hkept.members, attached_concat]
    exact Or.inr ⟨hpid, not_leaves (by simp [hcall]) (not_gets (by simp [hcall]))⟩

end Steps

section Runs

variable {cfg : Config} {s s' : KState} {es : List Event}

lemma initial_membersKept (h : Initial cfg s) (i : Fin maxShms) :
    MembersKept cfg (cfg.shm i) [] s := by
  have hzero := (initial_shared h).segments i
  refine ⟨by rw [hzero]; rfl, by rw [hzero]; exact List.nodup_nil, fun pid => ?_⟩
  rw [hzero]
  exact ⟨fun hmem => absurd hmem List.not_mem_nil, fun hatt => absurd hatt not_since_nil⟩

lemma run_membersKept (h₀ : Initial cfg s) (h : Run cfg (MembersMove cfg) s es s')
    (i : Fin maxShms) : Sound s' ∧ MembersKept cfg (cfg.shm i) (trace (step cfg) s es) s' := by
  refine h.history (fun l s => Sound s ∧ MembersKept cfg (cfg.shm i) l s)
    ⟨initial_sound h₀, initial_membersKept h₀ i⟩ ?_
  rintro l s e s' ⟨hs, hkept⟩ hok hstep
  exact ⟨step_sound hs hstep, membersKept_step hs hkept hok hstep⟩

/-- **The members of a segment**, in every run in which processes with PIDs other than zero
attach in free places and leave what they name: the number of members is that of the entries
that are not zero, at most two, these are the processes that have attached and not left, and
while at most one is attached an attach succeeds and evicts nobody. -/
theorem members_recorded (h₀ : Initial cfg s) (h : Run cfg (MembersMove cfg) s es s')
    (i : Fin maxShms) :
    (s'.shm.segments (cfg.shm i)).numMembers.toNat
        = (s'.shm.segments (cfg.shm i)).recorded.length
      ∧ (s'.shm.segments (cfg.shm i)).numMembers.toNat ≤ maxMembers
      ∧ (∀ pid, pid ∈ (s'.shm.segments (cfg.shm i)).recorded
        ↔ Attached cfg (cfg.shm i) pid (trace (step cfg) s es))
      ∧ ∀ e t, MembersMove cfg s' e → step cfg s' e = .ok t → e.call = some .shmat →
        s'.shm.currentShms = cfg.shm i →
        (∀ x y, Attached cfg (cfg.shm i) x (trace (step cfg) s es) →
          Attached cfg (cfg.shm i) y (trace (step cfg) s es) → x = y) →
        s'.answer t ≠ some 0
          ∧ ∀ pid, Attached cfg (cfg.shm i) pid (trace (step cfg) s es) →
            pid ∈ (t.shm.segments (cfg.shm i)).recorded := by
  obtain ⟨hs, hkept⟩ := run_membersKept h₀ h i
  refine ⟨hkept.num, ?_, hkept.members, fun e t hok hstep hcall hcurrent hone => ?_⟩
  · rw [hkept.num]
    exact recorded_length_le
  · exact attach_succeeds hs hkept hok hstep hcall hcurrent hone

end Runs

/-! ### Two members -/

/-- Processes 1 and 2 attach, and the second leaves and attaches again. -/
def sharing : List Event :=
  [call 11 [96, 2], call 12 [0], call 2 [0], call 12 [0], call 15 [demoConfig.shm 0], call 12 [0]]

theorem members_recorded_sharing :
    ∃ s', Run demoConfig (MembersMove demoConfig) bootState sharing s'
    ∧ (s'.shm.segments (demoConfig.shm 0)).numMembers.toNat
      = (s'.shm.segments (demoConfig.shm 0)).recorded.length
    ∧ (s'.shm.segments (demoConfig.shm 0)).numMembers.toNat ≤ maxMembers
    ∧ (∀ pid, pid ∈ (s'.shm.segments (demoConfig.shm 0)).recorded
      ↔ Attached demoConfig (demoConfig.shm 0) pid (trace (step demoConfig) bootState sharing))
    ∧ ∀ e t, MembersMove demoConfig s' e → step demoConfig s' e = .ok t →
      e.call = some .shmat → s'.shm.currentShms = demoConfig.shm 0 →
      (∀ x y, Attached demoConfig (demoConfig.shm 0) x
          (trace (step demoConfig) bootState sharing) →
        Attached demoConfig (demoConfig.shm 0) y (trace (step demoConfig) bootState sharing) →
        x = y) →
      s'.answer t ≠ some 0
        ∧ ∀ pid, Attached demoConfig (demoConfig.shm 0) pid
            (trace (step demoConfig) bootState sharing) →
          pid ∈ (t.shm.segments (demoConfig.shm 0)).recorded := by
  obtain ⟨s', hrun, -⟩ := exists_run (step demoConfig) (MembersMove demoConfig) bootState sharing
    (f := fun s => (s.shm.segments (demoConfig.shm 0)).recorded) (b := [1, 2]) (by decide +kernel)
  exact ⟨s', hrun, members_recorded initial_bootState hrun 0⟩

/-- **When the first of two members leaves, the next to attach evicts the second**: the place
of a new member is found from the number of members. -/
theorem shmat_evicts : Initial demoConfig bootState ∧
    ∃ s, Run demoConfig CallerHasPid bootState
        [call 11 [96, 2], call 12 [0], call 2 [0], call 12 [0], call 2 [0],
          call 15 [demoConfig.shm 0], call 12 [0]] s
      ∧ (s.shm.segments (demoConfig.shm 0)).numMembers.toNat
        ≠ (s.shm.segments (demoConfig.shm 0)).recorded.length := by
  obtain ⟨s, hrun, hmembers⟩ := exists_run (step demoConfig) CallerHasPid bootState
    [call 11 [96, 2], call 12 [0], call 2 [0], call 12 [0], call 2 [0],
      call 15 [demoConfig.shm 0], call 12 [0]]
    (f := fun s => ((s.shm.segments (demoConfig.shm 0)).numMembers.toNat,
      (s.shm.segments (demoConfig.shm 0)).recorded.length)) (b := (2, 1)) (by decide +kernel)
  refine ⟨initial_bootState, s, hrun, ?_⟩
  obtain ⟨hnum, hlen⟩ := Prod.mk.inj hmembers
  rw [hnum, hlen]
  decide

end Sp2
