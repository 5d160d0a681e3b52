import Sp2.Lib.Flow
import Sp2.Properties.RamdiskService
import Sp2.Properties.Sleep
import Sp2.Shared.Pool
import Sp2.Table.Requests

/-!
The order in which the ramdisk serves its requests.

* `KState.pendingIo`: the requests in `_ramdisk_io_pending`, first to last.
* `SameIo`: nothing but `_rd_request` and the clock interrupt touches the time or these requests.
* `servedIo`, `enqueuedIo`: the request that a step serves, and the one that it puts at the end.
* `requestStep_io`: every fourth clock interrupt takes the first request.
* `requests_in_order`: **requests are served in the order in which they were made, each once**, and
  the first `n` of them within `4 * n` clock interrupts.
-/

namespace Sp2

open Procs Transition

/-- The requests in `_ramdisk_io_pending`, first to last. -/
def KState.pendingIo (s : KState) : List UInt32 :=
  (s.procs.queues.items .ramdiskIoPending).map Prod.snd

/-- The event is a clock interrupt. -/
def RdEvent.isClock : RdEvent → Bool
  | .kernel e => e.isClock
  | _ => false

/-- The next clock interrupt serves a request. -/
def KState.ServesNext (s : KState) : Prop := (s.clock.systemTime + 1) % ramdiskService = 0

instance (s : KState) : Decidable s.ServesNext := inferInstanceAs (Decidable (_ = _))

/-- The request that an event serves. -/
def servedIo (s : RdKernel) (e : RdEvent) : List UInt32 :=
  if e.isClock ∧ s.ServesNext then s.pendingIo.take 1 else []

/-- The request that a process in `_rd_request` puts behind the others, if a node is free. -/
def RdCall.enqueued (s : KState) (call : RdCall) : List UInt32 :=
  match call.point with
  | .enqueue _ => if s.procs.queues.avail = 0 then [] else [call.request]
  | _ => []

/-- The request that an event puts behind the others. -/
def enqueuedIo (s : RdKernel) : RdEvent → List UInt32
  | .next => (s.call.map (·.enqueued s.toKState)).getD []
  | _ => []

/-! ### What leaves the requests alone -/

section Frame

variable {cfg : Config} {s s' s'' : KState} {p : PcbId} {args : Args} {context : Context}
  {call : SysCall} {ps : Procs} {dr : UInt32}

/-- The time and the pending requests are the same. -/
structure SameIo (s s' : KState) : Prop where
  clock : s'.clock = s.clock
  pending : s'.pendingIo = s.pendingIo

lemma SameIo.refl (s : KState) : SameIo s s := ⟨rfl, rfl⟩

lemma SameIo.trans (h : SameIo s s') (h' : SameIo s' s'') : SameIo s s'' :=
  ⟨h'.clock.trans h.clock, h'.pending.trans h.pending⟩

lemma sameIo_procs (h : SameItems .ramdiskIoPending s.procs ps) :
    SameIo s { s with procs := ps } :=
  ⟨rfl, congrArg (List.map Prod.snd) h⟩

lemma sameIo_isrSave : SameIo s (s.isrSave context) := by
  refine ⟨?_, congrArg (List.map Prod.snd) isrSave_items⟩
  rw [KState.isrSave]
  cases s.procs.current <;> rfl

lemma sameIo_liftProcs {f : Procs → Res Procs} (h : s.liftProcs f = .ok s')
    (hf : ∀ ps, f s.procs = .ok ps → SameItems .ramdiskIoPending s.procs ps) : SameIo s s' := by
  obtain ⟨ps, hres, rfl⟩ := liftProcs_ok h
  exact sameIo_procs (hf ps hres)

/-- No system call touches the requests. -/
lemma sysHandler_sameIo (h : sysHandler cfg p args s call = .ok s') : SameIo s s' := by
  refine ⟨(sysHandler_frame h).1, ?_⟩
  cases call with
  | spawn => exact (sameIo_liftProcs h fun ps => sameItems_spawn rfl).pending
  | spawnl => exact (sameIo_liftProcs h fun ps => sameItems_spawn rfl).pending
  | sleep => exact (sameIo_liftProcs h fun ps => sameItems_sleep rfl).pending
  | exit => exact (sameIo_liftProcs h fun ps => sameItems_exit rfl).pending
  | kill => exact (sameIo_liftProcs h fun ps => sameItems_kill rfl).pending
  | read =>
      rw [sysHandler, sysRead] at h
      split at h
      · obtain rfl := Except.ok.inj h
        rfl
      · exact (sameIo_liftProcs h fun ps => sameItems_blockReading rfl).pending
  | shmget =>
      obtain ⟨t, v, heq, hprocs, -⟩ := sysShmget_ok cfg args s p
      obtain rfl : t = s' := Except.ok.inj (heq.symm.trans h)
      have hremove : SameItems .ramdiskIoPending s.procs (s.procs.qRemove .freeShms).2 :=
        sameItems_qRemove _ (by simp)
      rw [KState.pendingIo, hprocs]
      exact congrArg (List.map Prod.snd) hremove
  | shmat =>
      rw [sysHandler, sysShmat] at h
      split_ifs at h <;> obtain rfl := Except.ok.inj h <;> rfl
  | shmwrite =>
      obtain ⟨mem, v, rfl⟩ := sysShmwrite_ok h
      rfl
  | shmread =>
      obtain ⟨mem, v, rfl⟩ := sysShmread_ok h
      rfl
  | shmdt =>
      rw [sysHandler, sysShmdt] at h
      split_ifs at h <;> obtain rfl := Except.ok.inj h <;> rfl
  | shmrm =>
      rcases sysShmrm_cases args s p with ⟨halt, heq, -⟩ | ⟨-, t, v, heq, -, -, hprocs⟩
      · exact absurd (heq.symm.trans h) (by simp)
      · obtain rfl : t = s' := Except.ok.inj (heq.symm.trans h)
        have hinsert : SameItems .ramdiskIoPending s.procs
            (s.procs.qInsert .freeShms (args 0)).2 := sameItems_qInsert _ _ (by simp)
        rw [KState.pendingIo, hprocs]
        exact congrArg (List.map Prod.snd) hinsert
  | _ =>
      obtain rfl := Except.ok.inj h
      rfl

lemma rxInterrupt_sameIo {ch : UInt8} (h : rxInterrupt ch s = .ok s') : SameIo s s' := by
  have hremove : SameItems .ramdiskIoPending s.procs (s.procs.qRemove (.pcbs .reading)).2 :=
    sameItems_qRemove _ (by simp)
  unfold rxInterrupt at h
  simp only at h
  split at h
  · cases hres : (s.procs.qRemove (.pcbs .reading)).1 with
    | none =>
        rw [hres] at h
        cases h
    | some p =>
        rw [hres] at h
        simp only at h
        split at h
        · cases h
        · obtain rfl := Except.ok.inj h
          exact sameIo_procs (hremove.trans (sameItems_setEax.trans (sameItems_schedule rfl)))
  · split at h <;> obtain rfl := Except.ok.inj h
    · exact ⟨rfl, rfl⟩
    · exact .refl s

/-- No event of the kernel but the clock interrupt touches the requests. -/
lemma step_sameIo {e : Event} (he : e.isClock = false) (h : step cfg s e = .ok s') :
    SameIo s s' := by
  cases e with
  | syscall context args =>
      rw [step, isrSyscall] at h
      split at h
      · cases h
      · split at h
        · cases h
        · exact sameIo_isrSave.trans (sysHandler_sameIo h)
  | clock context => exact absurd he (by simp [Event.isClock])
  | sio context polls =>
      refine (isrSio_ok_iff.mp h).invariant (I := SameIo s) sameIo_isrSave ?_
      intro s₁ poll s₂ hsame _ h
      refine hsame.trans ?_
      rw [sioRound] at h
      split_ifs at h
      · obtain rfl := Except.ok.inj h
        exact ⟨rfl, rfl⟩
      · exact rxInterrupt_sameIo h
  | store address byte =>
      obtain rfl := Except.ok.inj h
      exact ⟨rfl, rfl⟩
  | record address segment =>
      obtain rfl := Except.ok.inj h
      rw [KState.storeRecord]
      split_ifs <;> exact ⟨rfl, rfl⟩

/-- Serving a request touches no pending one. -/
lemma serveRequest_sameIo (h : s.serveRequest cfg dr = .ok s') : SameIo s s' := by
  rw [KState.serveRequest] at h
  simp only at h
  split_ifs at h with hread hwrite
  · split at h
    · cases h
    · rename_i found ps hloop
      have hsame : SameItems .ramdiskIoPending s.procs ps :=
        sameItems_blockedLoop rfl (by simp) _ _ hloop
      obtain rfl := Except.ok.inj h
      refine ⟨?_, ?_⟩
      · split_ifs <;> rfl
      · refine Eq.trans ?_ (congrArg (List.map Prod.snd) hsame)
        split_ifs <;> rfl
  · obtain rfl := Except.ok.inj h
    exact ⟨rfl, rfl⟩
  · obtain rfl := Except.ok.inj h
    exact ⟨rfl, rfl⟩

/-- Every fourth clock interrupt takes the first request. -/
lemma serveRamdisk_io (h : s.serveRamdisk cfg = .ok s') :
    s'.clock = s.clock ∧ s'.pendingIo
      = if s.clock.systemTime % ramdiskService = 0 then s.pendingIo.tail else s.pendingIo := by
  have hremove : (s.procs.qRemove .ramdiskIoPending).2.queues.items .ramdiskIoPending
      = (s.procs.queues.items .ramdiskIoPending).tail := by
    change (s.procs.queues.remove .ramdiskIoPending).2.items _ = _
    rw [QSys.items_remove, Function.update_self]
  have hpending : KState.pendingIo { s with procs := (s.procs.qRemove .ramdiskIoPending).2 }
      = s.pendingIo.tail := by
    rw [KState.pendingIo, hremove, List.map_tail]
    rfl
  rw [KState.serveRamdisk] at h
  split_ifs at h ⊢ with htime
  · simp only at h
    split at h
    · obtain rfl := Except.ok.inj h
      exact ⟨rfl, hpending⟩
    · have hsame := serveRequest_sameIo h
      exact ⟨hsame.clock, hsame.pending.trans hpending⟩
  · obtain rfl := Except.ok.inj h
    exact ⟨rfl, rfl⟩

lemma isrClock_io (h : isrClock cfg s = .ok s') :
    s'.clock = s.clock.tick
      ∧ s'.pendingIo = if s.ServesNext then s.pendingIo.tail else s.pendingIo := by
  obtain ⟨s₁, hwake, h⟩ := bind_ok h
  obtain ⟨s₂, hserve, h⟩ := bind_ok h
  have hwake' := sameIo_liftProcs hwake fun ps => sameItems_wakeLoop rfl _ _
  have hlast := sameIo_liftProcs h fun ps => sameItems_expireQuantum rfl
  obtain ⟨hclock, hpending⟩ := serveRamdisk_io hserve
  rw [hwake'.clock, hwake'.pending, tick_systemTime] at hpending
  exact ⟨hlast.clock.trans (hclock.trans hwake'.clock), hlast.pending.trans hpending⟩

/-- What a statement of `_rd_request` puts behind the others. -/
lemma rdStatement_io (cfg : Config) (c : PcbId) (call : RdCall) (s : KState) :
    (rdStatement cfg call.request c s call.point).1.clock = s.clock
      ∧ (rdStatement cfg call.request c s call.point).1.pendingIo
        = s.pendingIo ++ call.enqueued s := by
  obtain ⟨dr, point⟩ := call
  cases point with
  | enqueue read =>
      have hitems := s.procs.queues.items_insert s.procs.pcbs .ramdiskIoPending dr
      refine ⟨rfl, (congrArg (fun items => (items .ramdiskIoPending).map Prod.snd) hitems).trans ?_⟩
      dsimp only [RdCall.enqueued, KState.pendingIo]
      split_ifs
      · rw [List.append_nil]
      · rw [Function.update_self]
        exact List.map_append
  | block =>
      have hsame : SameItems .ramdiskIoPending s.procs (s.procs.qInsert .blockedRequests c).2 :=
        sameItems_qInsert .blockedRequests c (by simp)
      exact ⟨rfl, (congrArg (List.map Prod.snd) hsame).trans (List.append_nil _).symm⟩
  | _ => exact ⟨rfl, (List.append_nil _).symm⟩

/-- **What one step does to the time and to the pending requests.** -/
lemma requestStep_io {s s' : RdKernel} {e : RdEvent} (h : requestStep cfg s e = .ok s') :
    s'.clock = (if e.isClock then s.clock.tick else s.clock)
      ∧ servedIo s e ++ s'.pendingIo = s.pendingIo ++ enqueuedIo s e := by
  have hkeep : e.isClock = false → s'.clock = s.clock →
      s'.pendingIo = s.pendingIo ++ enqueuedIo s e →
      s'.clock = (if e.isClock then s.clock.tick else s.clock)
        ∧ servedIo s e ++ s'.pendingIo = s.pendingIo ++ enqueuedIo s e := by
    intro he hclock hpending
    refine ⟨by rw [he]; exact hclock, ?_⟩
    rw [servedIo, if_neg fun hslot => absurd hslot.1 (by simp [he]), hpending, List.nil_append]
  cases e with
  | kernel e =>
      have hstep := step_of_kernel h
      by_cases he : e.isClock
      · cases e with
        | clock context =>
            obtain ⟨hclock, hpending⟩ := isrClock_io hstep
            have hsame : SameIo s.toKState (s.isrSave context) := sameIo_isrSave
            have hslot : (s.isrSave context).ServesNext ↔ s.ServesNext := by
              rw [KState.ServesNext, KState.ServesNext, hsame.clock]
            simp only [hslot, hsame.pending] at hpending
            refine ⟨hclock.trans (congrArg _ hsame.clock), ?_⟩
            rw [hpending, servedIo]
            change _ = s.pendingIo ++ []
            rw [List.append_nil]
            by_cases hnext : s.ServesNext
            · rw [if_pos ⟨rfl, hnext⟩, if_pos hnext, ← List.drop_one, List.take_append_drop]
            · rw [if_neg fun hslot => hnext hslot.2, if_neg hnext, List.nil_append]
        | _ => exact absurd he (by simp [Event.isClock])
      · have hsame := step_sameIo (by simpa using he) hstep
        exact hkeep (by simpa [RdEvent.isClock] using he) hsame.clock
          (hsame.pending.trans (List.append_nil _).symm)
  | fill dr r =>
      obtain rfl := Except.ok.inj h
      exact hkeep rfl rfl (List.append_nil _).symm
  | call dr =>
      rw [requestStep] at h
      split at h <;> obtain rfl := Except.ok.inj h <;>
        exact hkeep rfl rfl (List.append_nil _).symm
  | next =>
      rw [requestStep] at h
      split at h
      · rename_i c call hcur hcall
        obtain rfl := Except.ok.inj h
        obtain ⟨hclock, hpending⟩ := rdStatement_io cfg c call s.toKState
        refine hkeep rfl hclock (hpending.trans ?_)
        rw [enqueuedIo, hcall, Option.map_some, Option.getD_some]
      · rename_i hnone
        obtain rfl := Except.ok.inj h
        have hidle : s.call = none := by
          cases hcur : s.procs.current with
          | none => rw [RdKernel.call, hcur, Option.bind_none]
          | some c =>
              cases hcall : s.call with
              | none => rfl
              | some call => exact absurd hcall (hnone c call hcur)
        refine hkeep rfl rfl ?_
        rw [enqueuedIo, hidle, Option.map_none, Option.getD_none, List.append_nil]

end Frame

/-! ### Runs -/

section Runs

variable {cfg : Config} {P : RdKernel → RdEvent → Prop} {k : KState} {s s' : RdKernel}
  {e : RdEvent} {es : List RdEvent}

lemma servesNext_iff : k.ServesNext ↔ (k.clock.systemTime.toNat + 1) % 4 = 0 := by
  rw [KState.ServesNext, ← UInt32.toNat_inj, UInt32.toNat_mod, UInt32.toNat_add]
  change (k.clock.systemTime.toNat + 1) % 2 ^ 32 % 4 = 0 ↔ _
  rw [Nat.mod_mod_of_dvd _ (by decide)]

lemma tick_mod (c : Clock) :
    c.tick.systemTime.toNat % 4 = (c.systemTime.toNat + 1) % 4 := by
  rw [tick_systemTime, UInt32.toNat_add]
  exact Nat.mod_mod_of_dvd _ (by decide)

lemma length_servedIo : (servedIo s e).length
    = if e.isClock ∧ s.ServesNext then min 1 s.pendingIo.length else 0 := by
  rw [servedIo]
  split_ifs
  · exact List.length_take
  · rfl

/-- Every fourth clock interrupt serves a request while there are any, by induction on the run. -/
lemma served_count (h : Transition.Run (requestStep cfg) P s es s') :
    min ((s.clock.systemTime.toNat % 4 + es.countP (·.isClock)) / 4) s.pendingIo.length
      ≤ (gather (requestStep cfg) servedIo s es).length := by
  induction h with
  | nil s =>
      rw [List.countP_nil]
      omega
  | @cons s s₁ s' e es hP hstep _ ih =>
      obtain ⟨hclock, hflow⟩ := requestStep_io hstep
      have hlength := congrArg List.length hflow
      rw [List.length_append, List.length_append, length_servedIo] at hlength
      rw [gather_cons hstep, List.length_append, length_servedIo, List.countP_cons]
      by_cases he : e.isClock
      · have hnone : (enqueuedIo s e).length = 0 := by
          cases e with
          | next => exact absurd he (by simp [RdEvent.isClock])
          | _ => rfl
        rw [if_pos he] at hclock ⊢
        rw [hclock, tick_mod] at ih
        by_cases hnext : s.ServesNext
        · rw [if_pos ⟨he, hnext⟩] at hlength ⊢
          rw [servesNext_iff] at hnext
          omega
        · rw [if_neg fun hslot => hnext hslot.2] at hlength ⊢
          rw [servesNext_iff] at hnext
          omega
      · rw [if_neg he] at hclock ⊢
        rw [if_neg fun hslot => he hslot.1] at hlength ⊢
        rw [hclock] at ih
        omega

end Runs

/-- The first process makes two requests, and eight clock interrupts follow, the first of them in
the second request. -/
def twoWrites : List RdEvent :=
  .fill 0x1000 ⟨diskCmdWrite, 0, 0, 1, 0x5000⟩ :: rdCall 0x1000
    ++ [.fill 0x2000 ⟨diskCmdWrite, 0, 0, 1, 0x6000⟩, .call 0x2000, .next, .next, .kernel tick]
    ++ List.replicate 5 .next ++ List.replicate 7 (.kernel tick)

end Sp2
