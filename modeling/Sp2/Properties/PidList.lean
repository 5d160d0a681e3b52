import Sp2.Properties.Pids
import Sp2.Shared.Stores

/-!
The list of PIDs that `getpidlist` gives.

* `mem_activePids`, `nodup_activePids`, `length_activePids`: the PIDs of the active processes.
* `pids_listed`: **what the caller gets**. The result is the number of active PCBs, the
  buffer has their PIDs or the first ones of them, and no other memory changes. The PIDs listed are
  those that `kill` finds, and they are distinct if the PIDs of the system are.
-/

namespace Sp2

open Procs Words X86 Address

section List

variable {s : Procs} {pid : UInt16} {p : PcbId}

lemma mem_activePids : pid ∈ s.activePids ↔ (s.findPid pid).isSome := by
  simp [activePids, pidsOf, findPid, List.find?_isSome, and_comm]

lemma length_activePids_le : s.activePids.length ≤ maxProcs := by
  rw [activePids, pidsOf, List.length_map]
  exact (List.length_filter_le _ _).trans_eq List.length_finRange

lemma pid_mem_activePids (h : (s.pcbs p).status.isActive = true) :
    (s.pcbs p).pid ∈ s.activePids :=
  List.mem_map_of_mem (List.mem_filter.mpr ⟨List.mem_finRange p, h⟩)

/-- There are as many as processes in use. -/
lemma length_activePids (s : Procs) : s.activePids.length
    = (Finset.univ.filter fun x => (s.pcbs x).status.isActive = true).card := by
  rw [activePids, pidsOf, List.length_map,
    ← List.toFinset_card_of_nodup ((List.nodup_finRange _).filter _)]
  congr 1
  ext x
  simp

/-- Unique PIDs are listed once. -/
lemma nodup_activePids (h : PidsUnique s) : s.activePids.Nodup := by
  refine List.Nodup.map_on (fun p hp p' hp' heq => ?_) ((List.nodup_finRange _).filter _)
  exact h.distinct p p' (ne_free_of_isActive (List.mem_filter.mp hp).2)
    (ne_free_of_isActive (List.mem_filter.mp hp').2) heq

end List

/-! ### The call -/

section Call

variable {cfg : Config} {s : KState} {p : PcbId} {context : Context} {args : Args}

/-- **PIDs are listed**: `getpidlist` returns the number of active processes. The buffer has their
PIDs in the order of the PCBs, or as many as its size says, and no other memory changes. The caller
is one of them, they are those that `kill` finds, and they are distinct if the PIDs of the processes
in use are. -/
theorem pids_listed (hs : Reachable cfg (fun _ _ => True) s) (hcur : s.procs.current = some p)
    (hcall : SysCall.ofNum context.eax = .getpidlist) :
    ∃ s', step cfg s (.syscall context args) = .ok s'
      ∧ s'.eax p = some (UInt32.ofNat
        (Finset.univ.filter fun x => (s.procs.pcbs x).status.isActive = true).card)
      ∧ (∀ i pid, (s.procs.activePids.take (args 1).toNat)[i]? = some pid →
          load16 s'.mem (args 0 + UInt32.ofNat (2 * i)) = pid)
      ∧ (∀ a n, Apart (args 0) (2 * min s.procs.activePids.length (args 1).toNat) a n →
          SameOn s'.mem s.mem a n)
      ∧ (s.procs.pcbs p).pid ∈ s.procs.activePids
      ∧ (∀ pid, pid ∈ s.procs.activePids ↔ (s.procs.findPid pid).isSome)
      ∧ (PidsUnique s.procs → s.procs.activePids.Nodup) := by
  have hsound := reachable_sound hs
  obtain ⟨-, -, -, hcontext⟩ := isrSave_running context hsound.core hcur
  rw [step_syscall hcur, hcall, sysHandler, sysGetpidlist_eq, isrSave_activePids hsound hcur,
    isrSave_mem, ← length_activePids]
  have hlen := length_activePids_le (s := s.procs)
  have hlength : (s.procs.activePids.take (args 1).toNat).length
      = min s.procs.activePids.length (args 1).toNat := by
    rw [List.length_take, Nat.min_comm]
  refine ⟨_, rfl, eax_setEax hcontext, fun i pid hpid => ?_, fun a n hapart => ?_, ?_,
    fun pid => mem_activePids, nodup_activePids⟩
  · refine load16_storeHalves ?_ hpid
    simp only [maxProcs] at hlen
    omega
  · exact SameOn.storeHalves (hlength ▸ hapart)
  · refine pid_mem_activePids ?_
    have hrunning : (s.procs.pcbs p).status = .running := (hsound.core.running p hcur).1
    rw [hrunning]
    decide

end Call

/-- The first process lists the PIDs of all three into a buffer for two. -/
theorem pids_listed_demo : ∃ s', step demoConfig bootState (call 10 [0x5000, 2]) = .ok s'
    ∧ s'.eax 1 = some 3
    ∧ ∀ i pid, (bootState.procs.activePids.take 2)[i]? = some pid →
      load16 s'.mem (0x5000 + UInt32.ofNat (2 * i)) = pid := by
  obtain ⟨context, args, heq, hcall, h₀, h₁⟩ : ∃ context args, call 10 [0x5000, 2]
      = .syscall context args ∧ SysCall.ofNum context.eax = .getpidlist ∧ args 0 = 0x5000
      ∧ args 1 = 2 := ⟨_, _, rfl, by decide, rfl, rfl⟩
  have hreach : Reachable demoConfig (fun _ _ => True) bootState := .of_init initial_bootState
  obtain ⟨s', hstep, heax, hread, -⟩ := @pids_listed _ _ _ context args hreach bootState_current
    hcall
  rw [h₀, h₁] at hread
  exact ⟨s', heq ▸ hstep, heax.trans (by decide +kernel), hread⟩

end Sp2
