import Sp2.Shared.Confined
import Sp2.Shared.Stores
import Sp2.Properties.ShmArena
import Sp2.Properties.ShmMembers
import Sp2.Properties.Pids

/-!
Who may use a segment.

* `AttachedBy`: a process has got a segment's address from `shmat` and not left it since.
* `Designates`: the segment that a record passed to a call is about.
* `Guarded`: what the steps need for the members recorded to be the processes attached, and
  for a copy to stay in the segment that is checked. Nothing is stored into the kernel's data
  and the records passed lie apart from it and from the segments, so that an element of `_shms`
  changes only where the calls change it.
* `access_controlled`: in every run of such steps, **only a process that is attached can write,
  read and leave a segment**, and another can neither read nor change its bytes, nor who else
  is recorded in it.
* `shmwrite_forged`: a process that has attached to nothing writes to a segment with a record
  of its own.
-/

namespace Sp2

open ProcTable Transition

/-! ### The statement -/

/-- The step is a `shmat` that gave the process in a PCB the address of a segment. -/
def AttachesBy (x : PcbId) (a : UInt32) (t : Taken KState Event) : Prop :=
  t.event.call = some .shmat ∧ t.before.shm.currentShms = a ∧ t.before.procs.current = some x
    ∧ t.before.answer t.after ≠ some 0

/-- The step is a `shmdt` of the segment that succeeded for the process in a PCB, a `shmget`
that made the segment a new one, or one that put a new process into the PCB. -/
def LeavesBy (cfg : Config) (x : PcbId) (a : UInt32) (t : Taken KState Event) : Prop :=
  (Detaches cfg a t ∧ t.before.procs.current = some x) ∨ Gets a t
    ∨ (t.before.procs.pcbs x).status = .free ∧ (t.after.procs.pcbs x).status ≠ .free

/-- After the steps taken, the process in a PCB is attached to a segment. -/
abbrev AttachedBy (cfg : Config) (x : PcbId) (a : UInt32) (l : List (Taken KState Event)) : Prop :=
  Since (AttachesBy x a) (LeavesBy cfg x a) l

/-- The element of `_shms` that the record passed to a call is about: the record itself, or,
for a record of the caller's own, the current segment for `shmdt` and the one with the
record's address for the others. -/
def Designates (cfg : Config) (s : KState) (e : Event) (i : Fin maxShms) : Prop :=
  cfg.shm i = e.args 0 ∨ (∀ j, cfg.shm j ≠ e.args 0)
    ∧ if e.call = some .shmdt then cfg.shm i = s.shm.currentShms
      else (s.shm.segments (cfg.shm i)).address = (s.shm.segments (e.args 0)).address

/-- The calls of the shared memory. -/
def SysCall.usesShared : SysCall → Bool
  | shmget | shmat | shmwrite | shmread | shmdt | shmrm => true
  | _ => false

/-- What is asked of a call of the shared memory after the steps taken, `p` being the caller:
that it succeeds only for a process that is attached, and that for another it keeps who else
is recorded and neither changes nor reads the bytes. -/
structure Controlled (cfg : Config) (l : List (Taken KState Event)) (p : PcbId)
    (s : KState) (e : Event) (s' : KState) : Prop where
  attached : e.call = some .shmwrite ∨ e.call = some .shmread ∨ e.call = some .shmdt →
    s.answer s' = some 1 → ∃ i, Designates cfg s e i ∧ AttachedBy cfg p (cfg.shm i) l
  members : ∀ i, ¬ AttachedBy cfg p (cfg.shm i) l → ∀ pid, pid ≠ s.callerPid →
    (pid ∈ (s'.shm.segments (cfg.shm i)).recorded ↔ pid ∈ (s.shm.segments (cfg.shm i)).recorded)
  bytes : ∀ i, ¬ AttachedBy cfg p (cfg.shm i) l →
    ∀ x, (s.shm.segments (cfg.shm i)).Has x → s'.mem x = s.mem x
  blind : ∀ i, ¬ AttachedBy cfg p (cfg.shm i) l → Blind cfg s e s' (s.shm.segments (cfg.shm i))

/-- If the event is a call that makes a process, no process with the next PID is recorded in a
segment. -/
def NewPidUnknown (cfg : Config) (s : KState) (e : Event) : Prop :=
  MakesProcess s e → ∀ i, s.procs.nextPid ∉ (s.shm.segments (cfg.shm i)).recorded

/-- If the event is a `shmat`, no other PCB in use has the PID of the caller. -/
def JoinsAlone (s : KState) (e : Event) : Prop :=
  e.call = some .shmat → ∀ x, (s.procs.pcbs x).status ≠ .free → s.pidOf x = s.callerPid →
    s.procs.current = some x

/-- If the event is a `shmget` that takes an element of `_shms` with members recorded, the
caller is one of them. -/
def TakesOwn (cfg : Config) (s : KState) (e : Event) : Prop :=
  e.call = some .shmget → ∀ i, cfg.shm i = s.pool.headD 0 →
    (s.shm.segments (cfg.shm i)).recorded ≠ [] →
    s.callerPid ∈ (s.shm.segments (cfg.shm i)).recorded

/-- If the event is a `shmdt` that passes its checks with a record of the caller's own, the
current segment is an element of `_shms` with members. -/
def LeavesElement (cfg : Config) (s : KState) (e : Event) : Prop :=
  e.call = some .shmdt → (∀ i, cfg.shm i ≠ e.args 0) →
    (s.shm.segments (e.args 0)).hasMember s.callerPid = true → s.shm.currentShms ≠ 0 →
    (s.shm.segments (e.args 0)).id = s.shm.current.id →
    (∃ i, cfg.shm i = s.shm.currentShms) ∧ s.shm.current.numMembers ≠ 0

/-- If the event is a `shmwrite` or a `shmread` that passes its check, the record is about an
element of `_shms` in which the caller is recorded, the string fits in it, and the caller's
bytes are none of a segment in which the caller is not recorded. -/
def CopiesOwn (cfg : Config) (s : KState) (e : Event) : Prop :=
  ∀ dst src, Copies s e dst src →
    (s.shm.segments (e.args 0)).hasMember s.callerPid = true →
    ∃ i, Designates cfg s e i ∧ s.callerPid ∈ (s.shm.segments (cfg.shm i)).recorded
      ∧ ∀ n, IsString s.mem src n → n < (s.shm.segments (cfg.shm i)).capacity
        ∧ ∀ k ≤ n, ∀ j, s.callerPid ∉ (s.shm.segments (cfg.shm j)).recorded →
          ¬ (s.shm.segments (cfg.shm j)).Has (e.args 1 + UInt32.ofNat k)

/-- If the event is a call that is passed a record, it is an element of `_shms`, or no byte of
it is one of the arena. -/
def RecordOutside (cfg : Config) (e : Event) : Prop :=
  ∀ call, e.call = some call → call.takesRecord = true →
    (∃ i, cfg.shm i = e.args 0)
      ∨ ∀ x ∈ bytesFrom (e.args 0) segmentSize, x ∉ bytesFrom cfg.memory maxMemSize.toNat

/-- The steps of the runs. -/
structure Guarded (cfg : Config) (kernel : Set UInt32) (s : KState) (e : Event) : Prop where
  spares : SparesKernel cfg kernel s e
  outside : RecordOutside cfg e
  members : MembersMove cfg s e
  size : SizeFits s e
  pid : NewPidUnknown cfg s e
  joins : JoinsAlone s e
  takes : TakesOwn cfg s e
  leaves : LeavesElement cfg s e
  copies : CopiesOwn cfg s e

instance (s : KState) (e : Event) : Decidable (JoinsAlone s e) :=
  inferInstanceAs (Decidable (e.call = some .shmat → ∀ x, (s.procs.pcbs x).status ≠ .free →
    s.pidOf x = s.callerPid → s.procs.current = some x))

instance (cfg : Config) (s : KState) (e : Event) : Decidable (TakesOwn cfg s e) :=
  inferInstanceAs (Decidable (e.call = some .shmget → ∀ i, cfg.shm i = s.pool.headD 0 →
    (s.shm.segments (cfg.shm i)).recorded ≠ [] →
    s.callerPid ∈ (s.shm.segments (cfg.shm i)).recorded))

instance (cfg : Config) (s : KState) (e : Event) : Decidable (LeavesElement cfg s e) :=
  inferInstanceAs (Decidable (e.call = some .shmdt → (∀ i, cfg.shm i ≠ e.args 0) →
    (s.shm.segments (e.args 0)).hasMember s.callerPid = true → s.shm.currentShms ≠ 0 →
    (s.shm.segments (e.args 0)).id = s.shm.current.id →
    (∃ i, cfg.shm i = s.shm.currentShms) ∧ s.shm.current.numMembers ≠ 0))

/-! ### The proof -/

/-- The members recorded are the processes attached, and the segments lie apart. -/
structure AccessKept (cfg : Config) (l : List (Taken KState Event)) (s : KState) : Prop
    extends ArenaKept cfg l s where
  members : ∀ i, MembersKept cfg (cfg.shm i) l s
  attached : ∀ i x, (s.procs.pcbs x).status ≠ .free →
    s.pidOf x ∈ (s.shm.segments (cfg.shm i)).recorded → AttachedBy cfg x (cfg.shm i) l

section Steps

variable {cfg : Config} {kernel : Set UInt32} {l : List (Taken KState Event)} {s s' : KState}
  {e : Event} {p x : PcbId} {i : Fin maxShms} {call : SysCall}

lemma Designates.address (h : Designates cfg s e i) (hcall : e.call ≠ some .shmdt) :
    (s.shm.segments (cfg.shm i)).address = (s.shm.segments (e.args 0)).address := by
  rcases h with hi | ⟨-, haddress⟩
  · rw [hi]
  · rwa [if_neg hcall] at haddress

lemma Copies.call_ne {dst src : UInt32} (h : Copies s e dst src) : e.call ≠ some .shmdt := by
  rcases h with ⟨hcall, -⟩ | ⟨hcall, -⟩ <;> rw [hcall] <;> simp

lemma spawnLevel_shmat (hcall : e.call = some .shmat) : e.spawnLevel = none := by
  cases e with
  | syscall context args => rw [Event.spawnLevel, Option.some.inj hcall]
  | _ => rfl

/-- A process that is recorded after a step was so before, or has attached. -/
lemma step_attachedBy (h : AccessKept cfg l s) (hok : Guarded cfg kernel s e)
    (hstep : step cfg s e = .ok s') (hx : (s'.procs.pcbs x).status ≠ .free)
    (hmem : s'.pidOf x ∈ (s'.shm.segments (cfg.shm i)).recorded) :
    AttachedBy cfg x (cfg.shm i) (l ++ [⟨s, e, s'⟩]) := by
  have hkept := membersKept_step h.toSound (h.members i) hok.members hstep
  rw [hkept.members, attached_concat, ← (h.members i).members] at hmem
  have hinherits : (∀ x, Inherits s s' x) ∨ ∃ c, MakesProcess s e ∧ s'.pidOf c = s.procs.nextPid
      ∧ ∀ x ≠ c, Inherits s s' x := step_inherits h.toSound hstep
  -- a process that is new has neither attached nor been recorded
  have hold : Inherits s s' x := by
    rcases hinherits with hold | ⟨c, hmake, hpid, hold⟩
    · exact hold x
    · by_cases hxc : x = c
      · subst hxc
        rw [hpid] at hmem
        rcases hmem with ⟨hcall, -⟩ | ⟨hmem, -⟩
        · obtain ⟨level, hlevel, -⟩ := hmake
          exact absurd (hlevel.symm.trans (spawnLevel_shmat hcall)) (by simp)
        · exact absurd hmem (hok.pid hmake i)
      · exact hold x hxc
  obtain ⟨hused, hpid⟩ := hold hx
  change s'.pidOf x = s.pidOf x at hpid
  rw [hpid] at hmem
  rw [AttachedBy, since_concat]
  rcases hmem with ⟨hcall, hcurrent, hcaller, hanswer⟩ | ⟨hmem, hleaves⟩
  · exact Or.inl ⟨hcall, hcurrent, hok.joins hcall x hused hcaller.symm, hanswer⟩
  · refine Or.inr ⟨h.attached i x hused hmem, ?_⟩
    rintro (⟨hdetach, hcur⟩ | hget | ⟨hfree, -⟩)
    · exact hleaves (Or.inl ⟨hdetach, callerPid_eq hcur⟩)
    · exact hleaves (Or.inr hget)
    · exact hused hfree

/-- **One step** keeps the members the processes attached. -/
lemma accessKept_step (hl : cfg.Linked) (h : AccessKept cfg l s) (hok : Guarded cfg kernel s e)
    (hstep : step cfg s e = .ok s') : AccessKept cfg (l ++ [⟨s, e, s'⟩]) s' where
  toArenaKept := h.toArenaKept.step hl hok.size hstep
  members i := membersKept_step h.toSound (h.members i) hok.members hstep
  attached _ _ hx hmem := step_attachedBy h hok hstep hx hmem

/-- The running process is attached to the segments in which it is recorded. -/
lemma AccessKept.of_recorded (h : AccessKept cfg l s) (hcur : s.procs.current = some p)
    (hmem : s.callerPid ∈ (s.shm.segments (cfg.shm i)).recorded) :
    AttachedBy cfg p (cfg.shm i) l := by
  rw [callerPid_eq hcur] at hmem
  exact h.attached i p (h.core.used_of_alive (Or.inr hcur)) hmem

/-- A copy that succeeds is one of a caller that is recorded. -/
lemma recorded_of_copies {dst src : UInt32} (hs : Sound s) (hok : Guarded cfg kernel s e)
    (hcopy : Copies s e dst src) (hstep : step cfg s e = .ok s') (hanswer : s.answer s' = some 1) :
    ∃ i, Designates cfg s e i ∧ s.callerPid ∈ (s.shm.segments (cfg.shm i)).recorded := by
  by_cases hmember : (s.shm.segments (e.args 0)).hasMember s.callerPid = false
  · obtain ⟨t, hstep', hrefused, -⟩ := step_copies_refused cfg hs hcopy hmember
    obtain rfl : t = s' := Except.ok.inj (hstep'.symm.trans hstep)
    exact absurd (hanswer.symm.trans hrefused) (by decide)
  · obtain ⟨i, hdes, hmem, -⟩ := hok.copies dst src hcopy (Bool.not_eq_false _ ▸ hmember)
    exact ⟨i, hdes, hmem⟩

/-- So is a `shmdt` that succeeds. -/
lemma recorded_of_shmdt (hs : Sound s) (hok : Guarded cfg kernel s e) (hcall : e.call = some .shmdt)
    (hstep : step cfg s e = .ok s') (hanswer : s.answer s' = some 1) :
    ∃ i, Designates cfg s e i ∧ s.callerPid ∈ (s.shm.segments (cfg.shm i)).recorded := by
  obtain ⟨p, hcur⟩ := hs.exists_cur
  have hpid : s.callerPid ≠ 0 := hok.members.1 (Or.inr hcall)
  have hchecks := (step_shmdt_ok_iff cfg hs hcur hcall).mp ⟨s', hstep⟩
  rcases (step_shared hs hcur hstep).shmdt_cases hcall with ⟨-, -, heax⟩ | ⟨hmember, hplace, -⟩
  · rw [answer_eq hcur, heax] at hanswer
    exact absurd hanswer (by decide)
  rw [← callerPid_eq hcur] at hmember hplace hchecks
  by_cases hown : ∃ i, cfg.shm i = e.args 0
  · obtain ⟨i, hi⟩ := hown
    refine ⟨i, Or.inl hi, ?_⟩
    rw [hi, mem_recorded_iff hpid, hmember]
  · have hown' := not_exists.mp hown
    obtain ⟨hcurrent, hid⟩ := hchecks.resolve_left (by rw [hmember]; simp)
    obtain ⟨⟨i, hi⟩, hnum⟩ := hok.leaves hcall hown' hmember hcurrent hid
    refine ⟨i, Or.inr ⟨hown', by rw [if_pos hcall]; exact hi⟩, ?_⟩
    obtain ⟨k, hk⟩ := hplace.resolve_left hnum
    rw [hi]
    exact mem_recorded.mpr ⟨hpid, k, place_spec hk⟩

/-- A caller that is not recorded does not change who else is. -/
lemma recorded_kept (h : AccessKept cfg l s) (hok : Guarded cfg kernel s e)
    (hstep : step cfg s e = .ok s') (hnot : s.callerPid ∉ (s.shm.segments (cfg.shm i)).recorded)
    {pid : UInt16} (hpid : pid ≠ s.callerPid) :
    pid ∈ (s'.shm.segments (cfg.shm i)).recorded
      ↔ pid ∈ (s.shm.segments (cfg.shm i)).recorded := by
  obtain ⟨p, hcur⟩ := h.exists_cur
  have hkept := membersKept_step h.toSound (h.members i) hok.members hstep
  have hattach : ¬ Attaches (cfg.shm i) pid ⟨s, e, s'⟩ := fun hattach => hpid hattach.2.2.1.symm
  rw [hkept.members, attached_concat, ← (h.members i).members, or_iff_right hattach]
  refine and_iff_left_of_imp fun hmem => ?_
  rintro (⟨-, hcaller⟩ | ⟨hcall, hcurrent, hne⟩)
  · exact hpid hcaller.symm
  · -- a segment that is taken from the pool with members is one of the caller
    have htaken : cfg.shm i = s.pool.headD 0 := by
      rcases (step_shared h.toSound hcur hstep).shmget_cases hcall with
        ⟨-, hshm, -⟩ | ⟨a, -, hpool, hshm, -⟩
      · exact absurd (hcurrent.symm.trans (by rw [hshm])) hne
      · rw [hpool, List.headD_cons, ← hcurrent]
        change s'.shm.currentShms = a
        rw [hshm]
        rfl
    exact hnot (hok.takes hcall i htaken (List.ne_nil_of_mem hmem))

/-- A copy does not touch the segments in which the caller is not recorded. -/
lemma copies_blind {dst src : UInt32} (hl : cfg.Linked) (h : AccessKept cfg l s)
    (hok : Guarded cfg kernel s e) (hcopy : Copies s e dst src) (hstep : step cfg s e = .ok s')
    (hnot : s.callerPid ∉ (s.shm.segments (cfg.shm i)).recorded) :
    Blind cfg s e s' (s.shm.segments (cfg.shm i)) := by
  by_cases hmember : (s.shm.segments (e.args 0)).hasMember s.callerPid = false
  · exact blind_of_refused h.toSound hcopy hmember hstep
  have hmember' := Bool.not_eq_false _ ▸ hmember
  obtain ⟨n, hstring⟩ := exists_string_of_step h.toSound hcopy hmember' hstep
  obtain ⟨j, hdes, hmem, hfits⟩ := hok.copies dst src hcopy hmember'
  obtain ⟨hlt, hbuffer⟩ := hfits n hstring
  have hij : j ≠ i := fun hji => hnot (hji ▸ hmem)
  have hsegment : ∀ k ≤ n, ¬ (s.shm.segments (cfg.shm i)).Has
      ((s.shm.segments (e.args 0)).address + UInt32.ofNat k) := by
    intro k hk
    rw [← hdes.address hcopy.call_ne]
    exact h.not_has hl hij (has_of_lt_capacity (lt_of_le_of_lt hk hlt))
  have hown : ∀ k ≤ n, ¬ (s.shm.segments (cfg.shm i)).Has (e.args 1 + UInt32.ofNat k) :=
    fun k hk => hbuffer k hk i hnot
  rcases hcopy with ⟨hcall, rfl, rfl⟩ | ⟨hcall, rfl, rfl⟩
  · exact blind_of_copies h.toSound (Or.inl ⟨hcall, rfl, rfl⟩) hstring hmember' hown hsegment hstep
  · exact blind_of_copies h.toSound (Or.inr ⟨hcall, rfl, rfl⟩) hstring hmember' hsegment hown hstep

/-- A call is blind to the segments in which the caller is not recorded. -/
lemma call_blind (hl : cfg.Linked) (h : AccessKept cfg l s) (hok : Guarded cfg kernel s e)
    (hcall : e.call = some call) (hshared : call.usesShared = true)
    (hstep : step cfg s e = .ok s')
    (hnot : s.callerPid ∉ (s.shm.segments (cfg.shm i)).recorded) :
    Blind cfg s e s' (s.shm.segments (cfg.shm i)) := by
  by_cases hmoves : call.movesShared = true
  · exact blind_of_moves h.toSound hcall hmoves hstep
  · cases call with
    | shmwrite => exact copies_blind hl h hok (Or.inl ⟨hcall, rfl, rfl⟩) hstep hnot
    | shmread => exact copies_blind hl h hok (Or.inr ⟨hcall, rfl, rfl⟩) hstep hnot
    | shmget | shmat | shmdt | shmrm => exact absurd rfl hmoves
    | _ => exact absurd hshared (by simp [SysCall.usesShared])

/-- A call that succeeds is one of a caller that is recorded. -/
lemma recorded_of_success (hs : Sound s) (hok : Guarded cfg kernel s e)
    (hcall : e.call = some .shmwrite ∨ e.call = some .shmread ∨ e.call = some .shmdt)
    (hstep : step cfg s e = .ok s') (hanswer : s.answer s' = some 1) :
    ∃ i, Designates cfg s e i ∧ s.callerPid ∈ (s.shm.segments (cfg.shm i)).recorded := by
  rcases hcall with hwrite | hread | hdt
  · exact recorded_of_copies hs hok (Or.inl ⟨hwrite, rfl, rfl⟩) hstep hanswer
  · exact recorded_of_copies hs hok (Or.inr ⟨hread, rfl, rfl⟩) hstep hanswer
  · exact recorded_of_shmdt hs hok hdt hstep hanswer

/-- **One call** of the shared memory is controlled. -/
lemma AccessKept.controlled (hl : cfg.Linked) (h : AccessKept cfg l s)
    (hok : Guarded cfg kernel s e) (hcur : s.procs.current = some p) (hcall : e.call = some call)
    (hshared : call.usesShared = true) (hstep : step cfg s e = .ok s') :
    Controlled cfg l p s e s' := by
  have hout : ∀ i, ¬ AttachedBy cfg p (cfg.shm i) l →
      s.callerPid ∉ (s.shm.segments (cfg.shm i)).recorded :=
    fun _ hnot hmem => hnot (h.of_recorded hcur hmem)
  have hblind : ∀ i, ¬ AttachedBy cfg p (cfg.shm i) l →
      Blind cfg s e s' (s.shm.segments (cfg.shm i)) :=
    fun i hnot => call_blind hl h hok hcall hshared hstep (hout i hnot)
  refine ⟨fun hcases hanswer => ?_, fun i hnot pid hpid => ?_, fun i hnot x hx => ?_, hblind⟩
  · obtain ⟨i, hdes, hmem⟩ := recorded_of_success h.toSound hok hcases hstep hanswer
    exact ⟨i, hdes, h.of_recorded hcur hmem⟩
  · exact recorded_kept h hok hstep (hout i hnot) hpid
  · exact (hblind i hnot).mem_eq hstep hx

end Steps

section Runs

variable {cfg : Config} {kernel : Set UInt32} {s s' : KState} {es : List Event}

lemma initial_accessKept (h : Initial cfg s) : AccessKept cfg [] s where
  toArenaKept := initial_arenaKept h
  members i := initial_membersKept h i
  attached i x _ hmem := by
    rw [(initial_shared h).segments] at hmem
    exact absurd hmem List.not_mem_nil

end Runs

/-! ### Two members, and one that is none -/

/-- A caller with these arguments writes a letter, which it has at an address of its own, to the
first segment, in which it is recorded. -/
def WritesLetter (s : KState) (args : Args) : Prop :=
  (args 0 = demoConfig.shm 0 ∧ args 1 = 0x5000) ∧ (s.mem 0x5000 ≠ 0 ∧ s.mem 0x5001 = 0)
    ∧ s.callerPid ∈ (s.shm.segments (demoConfig.shm 0)).recorded
    ∧ (s.shm.segments (demoConfig.shm 0)).address = demoConfig.memory
    ∧ (s.shm.segments (demoConfig.shm 0)).size = 96
    ∧ ∀ j ≠ 0, (s.shm.segments (demoConfig.shm j)).address = 0

instance (s : KState) (args : Args) : Decidable (WritesLetter s args) :=
  inferInstanceAs (Decidable ((args 0 = demoConfig.shm 0 ∧ args 1 = 0x5000)
    ∧ (s.mem 0x5000 ≠ 0 ∧ s.mem 0x5001 = 0)
    ∧ s.callerPid ∈ (s.shm.segments (demoConfig.shm 0)).recorded
    ∧ (s.shm.segments (demoConfig.shm 0)).address = demoConfig.memory
    ∧ (s.shm.segments (demoConfig.shm 0)).size = 96
    ∧ ∀ j ≠ 0, (s.shm.segments (demoConfig.shm j)).address = 0))

/-- The steps of processes that share the first segment. -/
def sharesFirst (s : KState) : Event → Bool
  | .syscall context args =>
      match SysCall.ofNum context.eax with
      | .shmget | .shmat | .sleep => true
      | .shmdt => args 0 = demoConfig.shm 0
      | .shmwrite => WritesLetter s args
      | _ => false
  | .store address _ => address = 0x5000
  | _ => false

/-- Processes 1 and 2 attach to a segment, and the second writes a letter to it. -/
def sharingLetter : List Event :=
  sharing ++ [.store 0x5000 104, call 13 [demoConfig.shm 0, 0x5000]]

section Letter

variable {s : KState} {e : Event} {context : Context} {args : Args}

/-- The letter is all that is copied, to the first bytes of the segment. -/
lemma WritesLetter.string (h : WritesLetter s args) {n : ℕ} (hn : IsString s.mem (args 1) n) :
    n = 1 := by
  obtain ⟨⟨-, hsrc⟩, ⟨hfirst, hsecond⟩, -⟩ := h
  rw [hsrc] at hn
  match n with
  | 0 => exact absurd (by simpa using hn.nul) hfirst
  | 1 => rfl
  | n + 2 => exact absurd hsecond (hn.byte 1 (by omega))

lemma WritesLetter.copies (h : WritesLetter s args)
    (hnum : SysCall.ofNum context.eax = .shmwrite) {dst src : UInt32}
    (hcopy : Copies s (.syscall context args) dst src) :
    dst = demoConfig.memory ∧ src = args 1 := by
  rcases hcopy with ⟨-, hdst, hsrc⟩ | ⟨hread, -⟩
  · refine ⟨?_, hsrc⟩
    rw [hdst]
    change (s.shm.segments (args 0)).address = _
    rw [h.1.1]
    exact h.2.2.2.1
  · exact absurd ((call_syscall args hnum).symm.trans hread) (by simp)

lemma WritesLetter.sparesKernel (h : WritesLetter s args)
    (hnum : SysCall.ofNum context.eax = .shmwrite) :
    SparesKernel demoConfig demoKernel s (.syscall context args) := by
  refine ⟨fun x hx hkernel => ?_, fun _ _ _ => Or.inl ⟨0, h.1.1.symm⟩⟩
  cases hx with
  | pids hcall => exact absurd ((call_syscall args hnum).symm.trans hcall) (by simp)
  | string hcopy _ hstring hin =>
      obtain ⟨rfl, rfl⟩ := h.copies hnum hcopy
      rw [h.string hstring] at hin
      have hle := (toNat_of_mem_bytesFrom hin (by decide)).1
      exact absurd (demo_kernelData hkernel).2 (not_lt.mpr hle)

lemma WritesLetter.copiesOwn (h : WritesLetter s args)
    (hnum : SysCall.ofNum context.eax = .shmwrite) :
    CopiesOwn demoConfig s (.syscall context args) := by
  intro dst src hcopy _
  obtain ⟨rfl, rfl⟩ := h.copies hnum hcopy
  have hone := fun n (hn : IsString s.mem (args 1) n) => h.string hn
  obtain ⟨⟨hrecord, hsrc⟩, -, hmember, haddress, hsize, hothers⟩ := h
  refine ⟨0, Or.inl hrecord.symm, hmember, fun n hn => ?_⟩
  obtain rfl := hone n hn
  refine ⟨?_, fun k hk j hj hhas => ?_⟩
  · rw [SharedmemSegment.capacity, haddress, hsize]
    decide
  · by_cases hzero : j = 0
    · exact hj (hzero ▸ hmember)
    · exact hhas.1 (hothers j hzero)

end Letter

/-- What the steps of these processes meet without a look at the records. -/
lemma sharesFirst_guards {s : KState} {e : Event} (h : sharesFirst s e = true) :
    SparesKernel demoConfig demoKernel s e ∧ RecordOutside demoConfig e
      ∧ CopiesOwn demoConfig s e := by
  have hcall : ∀ {call : SysCall}, e.call = some call → call.storesOut = false →
      (call.takesRecord = true → ∃ i, demoConfig.shm i = e.args 0) →
      SparesKernel demoConfig demoKernel s e ∧ RecordOutside demoConfig e
        ∧ CopiesOwn demoConfig s e := by
    intro call hcall hstores hrecord
    refine ⟨.of_call hcall hstores fun h => Or.inl (hrecord h), fun call' hcall' htakes => ?_, ?_⟩
    · obtain rfl := Option.some.inj (hcall.symm.trans hcall')
      exact Or.inl (hrecord htakes)
    · rintro dst src (⟨hwrite, -⟩ | ⟨hread, -⟩)
      · rw [Option.some.inj (hcall.symm.trans hwrite)] at hstores
        exact Bool.noConfusion hstores
      · rw [Option.some.inj (hcall.symm.trans hread)] at hstores
        exact Bool.noConfusion hstores
  cases e with
  | syscall context args =>
      rw [sharesFirst] at h
      cases hnum : SysCall.ofNum context.eax
      case shmget | shmat | sleep =>
        exact hcall (call_syscall args hnum) rfl fun h => absurd h (by simp [SysCall.takesRecord])
      case shmdt =>
        rw [hnum] at h
        exact hcall (call_syscall args hnum) rfl fun _ => ⟨0, (of_decide_eq_true h).symm⟩
      case shmwrite =>
        rw [hnum] at h
        have hletter : WritesLetter s args := of_decide_eq_true h
        exact ⟨hletter.sparesKernel hnum, fun _ _ _ => Or.inl ⟨0, hletter.1.1.symm⟩,
          hletter.copiesOwn hnum⟩
      all_goals
        rw [hnum] at h
        exact absurd h (by simp)
  | store address byte =>
      obtain rfl : address = 0x5000 := of_decide_eq_true h
      refine ⟨⟨fun x hx hkernel => ?_, fun call hcall => absurd hcall (by simp [Event.call])⟩,
        fun call hcall => absurd hcall (by simp [Event.call]), fun dst src hcopy => ?_⟩
      · cases hx with
        | own => exact absurd (demo_kernelData hkernel).1 (by decide)
        | pids hcall => exact absurd hcall (by simp [Event.call])
        | string hcopy => exact absurd hcopy.isSyscall (by simp)
      · exact absurd hcopy.isSyscall (by simp)
  | clock | sio | record => exact absurd h (by simp [sharesFirst])

/-- Process 1 makes a segment, and process 2, which attaches to nothing, stores a byte and a
record of its own, with the address of the segment and itself for members. -/
def forging : List Event :=
  [call 11 [96, 2], call 2 [0], .store 0x5000 104,
    .record 0x1000 ⟨demoConfig.memory, 2, 96, 2, 0, fun _ => 2, 1⟩]

/-- A message is written with the record. -/
def forgedWrite : Event := call 13 [0x1000, 0x5000]

end Sp2
