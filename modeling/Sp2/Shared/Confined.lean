import Sp2.Shared.Strings

/-!
Calls that do not touch the bytes of a segment.

* `KState.withMem`: the same state with other bytes in memory.
* `Blind`: the step neither reads nor changes the bytes of a segment.
* `blind_of_moves`, `blind_of_refused`, `blind_of_copies`: the calls that move segments are
  blind, and so is a copy that is refused or stays outside the segment.
-/

namespace Sp2

open ProcTable Procs

/-- The same state with other bytes in memory. -/
def KState.withMem (mem : Memory) (s : KState) : KState := { s with mem := mem }

/-- The step neither reads nor changes the bytes of the segment: with other bytes there it
gives the same, and leaves those bytes there. -/
def Blind (cfg : Config) (s : KState) (e : Event) (s' : KState) (segment : SharedmemSegment) :
    Prop :=
  ∀ mem, (∀ x, ¬ segment.Has x → mem x = s.mem x) →
    ∃ mem', step cfg (s.withMem mem) e = .ok (s'.withMem mem')
      ∧ (∀ x, segment.Has x → mem' x = mem x) ∧ ∀ x, ¬ segment.Has x → mem' x = s'.mem x

section Confined

variable {cfg : Config} {s s' : KState} {e : Event} {p : PcbId} {mem : Memory} {args : Args}
  {context : Context} {call : SysCall} {segment : SharedmemSegment} {dst src : UInt32} {n : ℕ}

@[simp] lemma withMem_shm : (s.withMem mem).shm = s.shm := rfl

@[simp] lemma withMem_procs : (s.withMem mem).procs = s.procs := rfl

lemma isrSave_withMem : (s.withMem mem).isrSave context = (s.isrSave context).withMem mem := by
  rw [KState.isrSave, KState.isrSave, withMem_procs]
  cases s.procs.current <;> rfl

lemma Sound.withMem (hs : Sound s) : Sound (s.withMem mem) := ⟨hs.core, hs.runs, hs.no_requests⟩

/-- A blind step leaves the bytes as they are. -/
lemma Blind.mem_eq (h : Blind cfg s e s' segment) (hstep : step cfg s e = .ok s') {x : UInt32}
    (hx : segment.Has x) : s'.mem x = s.mem x := by
  obtain ⟨mem', hstep', hin, -⟩ := h s.mem fun _ _ => rfl
  have heq : s' = s'.withMem mem' := Except.ok.inj (hstep.symm.trans hstep')
  rw [heq]
  exact hin x hx

/-! The calls that move segments give the same whatever is in memory. -/

lemma sysShmget_withMem (h : sysShmget cfg p args s = .ok s') :
    sysShmget cfg p args (s.withMem mem) = .ok (s'.withMem mem) := by
  by_cases hnone : s.pool.headD 0 = 0
  · rw [sysShmget_none hnone] at h
    rw [sysShmget_none (s := s.withMem mem) hnone]
    obtain rfl := Except.ok.inj h
    rfl
  · obtain ⟨a, l, hpool, ha⟩ := exists_pool hnone
    rw [sysShmget_some hpool ha] at h
    rw [sysShmget_some (s := s.withMem mem) hpool ha]
    obtain rfl := Except.ok.inj h
    rfl

lemma sysShmat_withMem (h : sysShmat p args s = .ok s') :
    sysShmat p args (s.withMem mem) = .ok (s'.withMem mem) := by
  rw [sysShmat_eq] at h
  rw [sysShmat_eq]
  rw [withMem_shm, withMem_procs]
  split_ifs at h with hcurrent hid
  rw [if_neg hcurrent, if_neg hid]
  cases hslot : s.shm.current.slot with
  | none =>
      rw [hslot] at h
      obtain rfl := Except.ok.inj h
      rfl
  | some i =>
      rw [hslot] at h
      obtain rfl := Except.ok.inj h
      rfl

lemma sysShmdt_withMem (h : sysShmdt p args s = .ok s') :
    sysShmdt p args (s.withMem mem) = .ok (s'.withMem mem) := by
  rw [sysShmdt_eq] at h
  rw [sysShmdt_eq]
  rw [withMem_shm, withMem_procs]
  split_ifs at h with hmember hcurrent hid hnum
  · obtain rfl := Except.ok.inj h
    rw [if_pos hmember]
    rfl
  · obtain rfl := Except.ok.inj h
    rw [if_neg hmember, if_neg hcurrent, if_neg hid, if_pos hnum]
    rfl
  · rw [if_neg hmember, if_neg hcurrent, if_neg hid, if_neg hnum]
    cases hplace : s.shm.current.place (s.procs.pcbs p).pid with
    | none =>
        rw [hplace] at h
        obtain rfl := Except.ok.inj h
        rfl
    | some i =>
        rw [hplace] at h
        obtain rfl := Except.ok.inj h
        rfl

lemma sysShmrm_withMem (h : sysShmrm p args s = .ok s') :
    sysShmrm p args (s.withMem mem) = .ok (s'.withMem mem) := by
  rw [sysShmrm_eq] at h
  rw [sysShmrm_eq]
  change (if s.shm.currentShms = 0 then _
    else if (s.shm.segments (args 0)).id ≠ s.shm.current.id then _ else _) = _
  generalize hv : (if _ = 0 then minusOne else (1 : UInt32)) = v at h
  split_ifs at h with hcurrent hid
  rw [if_neg hcurrent, if_neg hid]
  obtain rfl := Except.ok.inj h
  rw [← hv]
  rfl

lemma sysHandler_withMem (hmoves : call.movesShared = true)
    (h : sysHandler cfg p args s call = .ok s') :
    sysHandler cfg p args (s.withMem mem) call = .ok (s'.withMem mem) := by
  cases call with
  | shmget => exact sysShmget_withMem h
  | shmat => exact sysShmat_withMem h
  | shmdt => exact sysShmdt_withMem h
  | shmrm => exact sysShmrm_withMem h
  | _ => exact absurd hmoves (by simp [SysCall.movesShared])

/-- **The calls that move segments are blind.** -/
lemma blind_of_moves (hs : Sound s) (hcall : e.call = some call)
    (hmoves : call.movesShared = true) (hstep : step cfg s e = .ok s') :
    Blind cfg s e s' segment := by
  obtain ⟨p, hcur⟩ := hs.exists_cur
  intro mem hmem
  have hsame := step_shared_mem hcur hcall hmoves hstep
  cases e with
  | syscall context args =>
      refine ⟨mem, ?_, fun _ _ => rfl, fun x hx => by rw [hsame]; exact hmem x hx⟩
      rw [step_syscall hcur, Option.some.inj hcall] at hstep
      rw [step_syscall (s := s.withMem mem) hcur, isrSave_withMem, Option.some.inj hcall]
      exact sysHandler_withMem hmoves hstep
  | _ => exact absurd hcall (by simp [Event.call])

/-- **A copy that is refused is blind.** -/
lemma blind_of_refused (hs : Sound s) (hcopy : Copies s e dst src)
    (hmember : (s.shm.segments (e.args 0)).hasMember s.callerPid = false)
    (hstep : step cfg s e = .ok s') : Blind cfg s e s' segment := by
  obtain ⟨p, hcur⟩ := hs.exists_cur
  obtain ⟨context, args, rfl⟩ := hcopy.isSyscall
  intro mem hmem
  have heq := step_refused_eq cfg hs hcur hcopy hmember
  have heq' := step_refused_eq (s := s.withMem mem) cfg hs.withMem hcur hcopy hmember
  rw [isrSave_withMem] at heq'
  obtain rfl := Except.ok.inj (heq.symm.trans hstep)
  exact ⟨mem, heq', fun _ _ => rfl, fun x hx => (hmem x hx).trans (by rw [← isrSave_mem]; rfl)⟩

/-- **A copy between bytes outside the segment is blind.** -/
lemma blind_of_copies (hs : Sound s) (hcopy : Copies s e dst src) (hstring : IsString s.mem src n)
    (hmember : (s.shm.segments (e.args 0)).hasMember s.callerPid = true)
    (hsrc : ∀ k ≤ n, ¬ segment.Has (src + UInt32.ofNat k))
    (hdst : ∀ k ≤ n, ¬ segment.Has (dst + UInt32.ofNat k)) (hstep : step cfg s e = .ok s') :
    Blind cfg s e s' segment := by
  obtain ⟨p, hcur⟩ := hs.exists_cur
  have hover : ¬ Follows src dst n := fun hover =>
    (step_copies cfg hs hcopy hstring hmember).1 hover s' hstep
  obtain ⟨context, args, rfl⟩ := hcopy.isSyscall
  intro mem hmem
  have hsame : ∀ k ≤ n, mem (src + UInt32.ofNat k) = s.mem (src + UInt32.ofNat k) :=
    fun k hk => hmem _ (hsrc k hk)
  have heq := step_copied_eq cfg hs hcur hcopy hmember hstring
  have heq' := step_copied_eq (s := s.withMem mem) cfg hs.withMem hcur hcopy hmember
    (hstring.congr hsame)
  rw [if_neg hover] at heq
  rw [if_neg hover, isrSave_withMem] at heq'
  obtain rfl := Except.ok.inj (heq.symm.trans hstep)
  refine ⟨copied dst src n mem, heq', fun x hx => ?_, fun x hx => ?_⟩
  · exact copied_of_ne fun k hk hxk => hdst k hk (hxk ▸ hx)
  · exact copied_congr hsame (hmem x hx)

end Confined

end Sp2
