import Sp2.Properties.SerialInput
import Sp2.Properties.Spawn
import Sp2.Table.Phases

/-!
What a process finds when it runs again.

* `Procs.Same`: a process keeps its save area and its identity.
* `step_others`: no step changes another process, except that a reader that is woken up gets its
  character.
* `TakenOff`: the events that take a process off the processor, with the EAX it finds later.
* `resumes`: **a process resumes as it was interrupted**, with the registers it had but for EAX,
  and with the same identity, whatever happened meanwhile.
* `spawned_identity`: a spawning call makes a process of a free PCB; the PID that it returns is the
  one its child has for life, and the parent of the child is the caller.
-/

namespace Sp2

open ProcTable Procs Transition

/-! ### What stays of a process -/

/-- The process keeps its PID, its parent, its level and, unless it is the caller, its save area. -/
structure Procs.Same (caller : Option PcbId) (x : PcbId) (s s' : Procs) : Prop where
  context : caller ≠ some x → (s'.pcbs x).context = (s.pcbs x).context
  pid : (s'.pcbs x).pid = (s.pcbs x).pid
  ppid : (s'.pcbs x).ppid = (s.pcbs x).ppid
  level : (s'.pcbs x).level = (s.pcbs x).level

namespace Procs

section Same

variable {s s' s'' : Procs} {caller : Option PcbId} {x p c : PcbId} {fcn wakeup v : UInt32}
  {level : UInt8} {num pid : UInt16}

lemma Same.refl (caller : Option PcbId) (x : PcbId) (s : Procs) : Same caller x s s :=
  ⟨fun _ => rfl, rfl, rfl, rfl⟩

lemma Same.trans (h : Same caller x s s') (h' : Same caller x s' s'') : Same caller x s s'' :=
  ⟨fun hx => (h'.context hx).trans (h.context hx), h'.pid.trans h.pid, h'.ppid.trans h.ppid,
    h'.level.trans h.level⟩

lemma Keeps.same (h : Keeps s s') (x : PcbId) : Same caller x s s' :=
  ⟨fun _ => h.context x, h.pid x, h.ppid x, h.level x⟩

lemma same_of_pcb (h : s'.pcbs x = s.pcbs x) : Same caller x s s' :=
  ⟨fun _ => by rw [h], by rw [h], by rw [h], by rw [h]⟩

/-- A store into another PCB. -/
lemma same_setPcb {f : Pcb → Pcb} (hx : x ≠ p) : Same caller x s (s.setPcb p f) :=
  same_of_pcb (Function.update_of_ne hx _ _)

/-- A store into the save area of the caller. -/
lemma same_setPcb_caller {f : Pcb → Pcb} (hpid : (f (s.pcbs p)).pid = (s.pcbs p).pid)
    (hppid : (f (s.pcbs p)).ppid = (s.pcbs p).ppid)
    (hlevel : (f (s.pcbs p)).level = (s.pcbs p).level) : Same (some p) x s (s.setPcb p f) := by
  by_cases hx : x = p
  · subst hx
    exact ⟨fun hne => absurd rfl hne, by simpa [setPcb] using hpid, by simpa [setPcb] using hppid,
      by simpa [setPcb] using hlevel⟩
  · exact same_setPcb hx

lemma same_setEax : Same (some p) x s (s.setEax p v) := same_setPcb_caller rfl rfl rfl

/-- `_spawn` leaves alone all processes but its caller and the new one. -/
lemma spawn_same (hc : Core (s.table (some p))) (hused : (s.pcbs x).status ≠ .free)
    (h : s.spawn p fcn level = .ok s') : Same (some p) x s s' := by
  cases hids : ((s.table none).ids .freePcbs).head? with
  | none =>
      obtain ⟨s₁, heq, hkeeps, -⟩ := spawn_noPcb p fcn level (List.head?_eq_none_iff.mp hids)
      obtain rfl := Except.ok.inj (heq.symm.trans h)
      exact (hkeeps.same x).trans same_setEax
  | some c =>
      cases hstack : (s.table none).stackIds.head? with
      | none =>
          obtain ⟨s₁, heq, hkeeps, -⟩ :=
            spawn_noStack p fcn level hids (List.head?_eq_none_iff.mp hstack)
          obtain rfl := Except.ok.inj (heq.symm.trans h)
          exact (hkeeps.same x).trans same_setEax
      | some k =>
          have hne : x ≠ c := by
            rintro rfl
            have hfree : x ∈ (s.table (some p)).ids .freePcbs := List.mem_of_mem_head? hids
            exact hused ((hc.free_iff hfree).mpr rfl)
          obtain ⟨s₁, s₂, halloc, hstack', hkeeps, -⟩ := alloc_make fcn level hids hstack
          rw [spawn, halloc] at h
          simp only at h
          rw [hstack'] at h
          have hmake : Same (some p) x s₂ (s₂.makeProc c k fcn level).2 :=
            same_of_pcb (Function.update_of_ne hne _ _)
          exact (hkeeps.same x).trans (hmake.trans (same_setEax.trans ((same_setPcb hne).trans
            (((keeps_schedule.trans keeps_schedule).trans (keeps_dispatch h)).same x))))

lemma sleep_same (h : s.sleep p num wakeup = .ok s') : Same caller x s s' := by
  by_cases hnum : num = 0
  · subst hnum
    rw [sleep_zero] at h
    exact (keeps_schedule.trans (keeps_dispatch h)).same x
  · by_cases hfree : s.queues.avail = 0
    · obtain ⟨s₁, heq⟩ := sleep_panic p wakeup hnum hfree
      cases heq.symm.trans h
    · obtain ⟨s₁, heq, hkeeps, -⟩ := sleep_park p wakeup hnum hfree
      exact (hkeeps.trans (keeps_dispatch (heq.symm.trans h))).same x

lemma blockReading_same (h : s.blockReading p = .ok s') : Same caller x s s' := by
  by_cases hfree : s.queues.avail = 0
  · obtain ⟨s₁, heq⟩ := blockReading_panic (p := p) hfree
    cases heq.symm.trans h
  · obtain ⟨s₁, heq, hkeeps, -⟩ := blockReading_block (p := p) hfree
    exact (hkeeps.trans (keeps_dispatch (heq.symm.trans h))).same x

lemma keeps_expireQuantum (h : s.expireQuantum = .ok s') : Keeps s s' := by
  rw [expireQuantum] at h
  cases hcur : s.current with
  | none => simp [hcur] at h
  | some p =>
      simp only [hcur] at h
      split_ifs at h
      · exact keeps_schedule.trans (keeps_dispatch h)
      · obtain rfl := Except.ok.inj h
        exact keeps_setPcb rfl rfl rfl rfl

lemma exit_same (h : s.exit p = .ok s') : Same caller x s s' :=
  (keeps_cleanup.trans (keeps_dispatch h)).same x

lemma kill_same (h : s.kill p pid = .ok s') : Same (some p) x s s' := by
  have heax : ∀ {ps : Procs} {v : UInt32}, Same (some p) x ps (ps.setEax p v) := same_setEax
  rw [kill] at h
  split_ifs at h
  · obtain rfl := Except.ok.inj h
    exact heax
  · exact heax.trans (exit_same h)
  · split at h
    · obtain rfl := Except.ok.inj h
      exact heax
    · obtain rfl := Except.ok.inj h
      have hmark : ∀ {ps : Procs} {q : PcbId},
          Keeps ps (ps.setPcb q ({ · with status := .zombie })) := keeps_setPcb rfl rfl rfl rfl
      exact heax.trans (heax.trans (hmark.same x))

end Same

end Procs

/-! ### No step changes another process -/

section Others

variable {cfg : Config} {s s' : KState} {e : Event} {x p : PcbId} {args : Args}
  {caller : Option PcbId}

/-- A handler that changes the save area of its caller at most. -/
lemma Plain.same {r : Res KState} (h : Plain p s r) (hr : r = .ok s') :
    Same (some p) x s.procs s'.procs := by
  subst hr
  obtain ⟨hprocs | ⟨v, hprocs⟩, -⟩ := h
  · rw [hprocs]
    exact .refl _ x _
  · rw [hprocs]
    exact same_setEax

lemma Plain.current {r : Res KState} (h : Plain p s r) (hcur : s.procs.current = some p)
    (hr : r = .ok s') : s'.procs.current = some p := by
  subst hr
  obtain ⟨hprocs | ⟨v, hprocs⟩, -⟩ := h <;> rw [hprocs] <;> exact hcur

lemma sysHandler_same {call : SysCall} (hc : Core (s.procs.table (some p)))
    (hused : (s.procs.pcbs x).status ≠ .free) (h : sysHandler cfg p args s call = .ok s') :
    Same (some p) x s.procs s'.procs := by
  cases call with
  | spawn =>
      obtain ⟨ps, hres, rfl⟩ := liftProcs_ok h
      exact spawn_same hc hused hres
  | spawnl =>
      obtain ⟨ps, hres, rfl⟩ := liftProcs_ok h
      exact spawn_same hc hused hres
  | sleep =>
      obtain ⟨ps, hres, rfl⟩ := liftProcs_ok h
      exact sleep_same hres
  | exit =>
      obtain ⟨ps, hres, rfl⟩ := liftProcs_ok h
      exact exit_same hres
  | kill =>
      obtain ⟨ps, hres, rfl⟩ := liftProcs_ok h
      exact kill_same hres
  | read =>
      rw [sysHandler, sysRead] at h
      cases hread : s.sio.sioRead with
      | mk ch sio =>
          rw [hread] at h
          cases ch with
          | none =>
              obtain ⟨ps, hres, rfl⟩ := liftProcs_ok h
              exact blockReading_same hres
          | some ch =>
              obtain rfl := Except.ok.inj h
              exact same_setEax
  | shmget =>
      obtain ⟨t, v, heq, hprocs, -⟩ := sysShmget_ok cfg args s p
      obtain rfl : t = s' := Except.ok.inj (heq.symm.trans h)
      rw [hprocs]
      exact (keeps_qRemove.same x).trans same_setEax
  | shmrm =>
      rcases sysShmrm_cases args s p with ⟨halt, heq, -⟩ | ⟨-, t, v, heq, -, -, hprocs⟩
      · cases heq.symm.trans h
      · obtain rfl : t = s' := Except.ok.inj (heq.symm.trans h)
        rw [hprocs]
        exact (keeps_qInsert.same x).trans same_setEax
  | shmat => exact plain_sysShmat.same h
  | shmwrite => exact plain_sysShmwrite.same h
  | shmread => exact plain_sysShmread.same h
  | shmdt => exact plain_sysShmdt.same h
  | write =>
      obtain rfl := Except.ok.inj h
      exact .refl _ x _
  | _ =>
      obtain rfl := Except.ok.inj h
      exact same_setEax

/-- The process has left `_reading` with a character in its EAX. -/
structure HandedOver (x : PcbId) (s s' : Procs) : Prop where
  before : x ∈ s.members .reading
  after : x ∉ s'.members .reading
  eax : ∃ ch : UInt8, (s'.pcbs x).context
    = (s.pcbs x).context.map ({ · with eax := ch.toUInt32 })
  pid : (s'.pcbs x).pid = (s.pcbs x).pid
  ppid : (s'.pcbs x).ppid = (s.pcbs x).ppid
  level : (s'.pcbs x).level = (s.pcbs x).level

/-- The process stays as it is, in `_reading` if it is there, or it is woken up. -/
def StaysOr (x : PcbId) (s s' : Procs) : Prop :=
  Same none x s s' ∧ (x ∈ s'.members .reading ↔ x ∈ s.members .reading) ∨ HandedOver x s s'

lemma StaysOr.trans {ps ps' ps'' : Procs} (h : StaysOr x ps ps') (h' : StaysOr x ps' ps'') :
    StaysOr x ps ps'' := by
  have hnone : none ≠ some x := (Option.some_ne_none x).symm
  rcases h with ⟨hsame, hmem⟩ | hhanded
  · rcases h' with ⟨hsame', hmem'⟩ | hhanded'
    · exact Or.inl ⟨hsame.trans hsame', hmem'.trans hmem⟩
    · obtain ⟨ch, heax⟩ := hhanded'.eax
      exact Or.inr ⟨hmem.mp hhanded'.before, hhanded'.after,
        ⟨ch, by rw [heax, hsame.context hnone]⟩,
        hhanded'.pid.trans hsame.pid, hhanded'.ppid.trans hsame.ppid,
        hhanded'.level.trans hsame.level⟩
  · rcases h' with ⟨hsame', hmem'⟩ | hhanded'
    · obtain ⟨ch, heax⟩ := hhanded.eax
      exact Or.inr ⟨hhanded.before, fun hx => hhanded.after (hmem'.mp hx),
        ⟨ch, by rw [hsame'.context hnone, heax]⟩, hsame'.pid.trans hhanded.pid,
        hsame'.ppid.trans hhanded.ppid, hsame'.level.trans hhanded.level⟩
    · exact absurd hhanded'.before hhanded.after

/-- A round of `_isr_sio` changes no process but the reader that it wakes up. -/
lemma sioRound_staysOr {poll : UInt8 × UInt8} (hs : Sound s) (h : sioRound s poll = .ok s') :
    StaysOr x s.procs s'.procs := by
  rw [sioRound] at h
  split_ifs at h with htx hrx
  · obtain rfl := Except.ok.inj h
    exact Or.inl ⟨.refl _ x _, Iff.rfl⟩
  · by_cases hempty : s.table.queue .reading = []
    · rw [rxInterrupt_buffer hempty] at h
      obtain rfl := Except.ok.inj h
      split_ifs <;> exact Or.inl ⟨.refl _ x _, Iff.rfl⟩
    · obtain ⟨q, hq⟩ := exists_head hempty
      obtain ⟨ps, heq, hps, hcur, hmove⟩ := rxInterrupt_wake poll.2 hs.core hq
      obtain rfl := Except.ok.inj (heq.symm.trans h)
      have hids : s.procs.members .reading = q :: ps.members .reading := hmove.ids_wake
      by_cases hx : x = q
      · subst hx
        have hnd := hs.nodup_members .reading
        rw [hids] at hnd
        have hsched := keeps_schedule (s := (s.procs.qRemove (.pcbs .reading)).2.setEax x
          (received poll.2).toUInt32) (p := x)
        rw [← hps] at hsched
        refine Or.inr ⟨by rw [hids]; simp, (List.nodup_cons.mp hnd).1, ⟨received poll.2, ?_⟩,
          ?_, ?_, ?_⟩
        · rw [hsched.context, setEax_context, if_pos rfl]
          rfl
        · rw [hsched.pid, setEax_pid]
          rfl
        · rw [hsched.ppid]
          simp [setEax, setPcb, qRemove]
        · rw [hsched.level]
          simp [setEax, setPcb, qRemove]
      · refine Or.inl ⟨?_, by rw [hids, List.mem_cons, or_iff_right hx]⟩
        rw [show ({ s with procs := ps } : KState).procs = ps from rfl, hps]
        exact (keeps_qRemove.same x).trans ((same_setPcb hx).trans (keeps_schedule.same x))

lemma isrSio_staysOr {polls : List (UInt8 × UInt8)} (hs : Sound s) (h : isrSio polls s = .ok s') :
    StaysOr x s.procs s'.procs := by
  have hrun := isrSio_ok_iff.mp h
  exact (hrun.invariant (I := fun t => Sound t ∧ StaysOr x s.procs t.procs)
    ⟨hs, Or.inl ⟨.refl _ x _, Iff.rfl⟩⟩ fun t poll t' ⟨ht, hstays⟩ _ hround =>
      ⟨(ht.round hround).2, hstays.trans (sioRound_staysOr ht hround)⟩).2

lemma isrSave_same (context : Context) :
    Same s.procs.current x s.procs (s.isrSave context).procs := by
  rw [KState.isrSave]
  cases s.procs.current with
  | none => exact .refl _ x _
  | some p =>
      exact same_setPcb_caller (f := ({ · with context := some context })) rfl rfl rfl

/-- Another event than a serial interrupt changes no process that is in use but the caller. -/
lemma step_same (hs : Sound s) (h : step cfg s e = .ok s')
    (hsio : ∀ context polls, e ≠ .sio context polls) (hused : (s.procs.pcbs x).status ≠ .free) :
    Same s.procs.current x s.procs s'.procs := by
  obtain ⟨p, hcur⟩ := hs.exists_cur
  cases e with
  | syscall context args =>
      obtain ⟨-, htable, -⟩ := isrSave_running context hs.core hcur
      have hstatus : ((s.isrSave context).procs.pcbs x).status = (s.procs.pcbs x).status := by
        by_cases hx : x = p
        · subst hx
          simp [KState.isrSave, hcur, setPcb]
        · simp [KState.isrSave, hcur, setPcb, hx]
      rw [step_syscall hcur] at h
      have hsame := sysHandler_same (x := x) (htable ▸ hs.core) (by rwa [hstatus]) h
      rw [← hcur] at hsame
      exact (isrSave_same context).trans hsame
  | clock context =>
      obtain ⟨hcur', htable, -⟩ := isrSave_running context hs.core hcur
      obtain ⟨ps, heq, hkeeps, -⟩ :=
        isrClock_spec cfg (htable ▸ hs.core) (htable ▸ hs.no_requests) hcur'
      obtain ⟨ps', hres, rfl⟩ := liftProcs_ok (heq.symm.trans h)
      exact (isrSave_same context).trans
        ((hkeeps.same x).trans ((keeps_expireQuantum hres).same x))
  | sio context polls => exact absurd rfl (hsio context polls)
  | store address byte =>
      obtain rfl := Except.ok.inj h
      exact .refl _ x _
  | record address segment =>
      obtain rfl := Except.ok.inj h
      refine same_of_pcb ?_
      rw [KState.storeRecord]
      split_ifs <;> rfl

/-- **No step changes another process**: one that is in use and does not run keeps its save area and
its identity, unless it waits for a character and gets it. -/
theorem step_others (hs : Sound s) (h : step cfg s e = .ok s') (hx : s.procs.current ≠ some x)
    (hused : (s.procs.pcbs x).status ≠ .free) : StaysOr x s.procs s'.procs := by
  obtain ⟨p, hcur⟩ := hs.exists_cur
  have hxp : x ≠ p := fun hxp => hx (hxp ▸ hcur)
  have hall : ∀ {ps ps' : Procs}, Same s.procs.current x ps ps' → Same none x ps ps' :=
    fun hsame => ⟨fun _ => hsame.context hx, hsame.pid, hsame.ppid, hsame.level⟩
  by_cases hsio : ∃ context polls, e = .sio context polls
  · obtain ⟨context, polls, rfl⟩ := hsio
    have hmembers : (s.isrSave context).procs.members .reading = s.procs.members .reading :=
      isrSave_members context
    have hsave : StaysOr x s.procs (s.isrSave context).procs :=
      Or.inl ⟨hall (isrSave_same context), by rw [hmembers]⟩
    exact hsave.trans (isrSio_staysOr (isrSave_sound context hs) h)
  · have hsio' : ∀ context polls, e ≠ .sio context polls :=
      fun context polls he => hsio ⟨context, polls, he⟩
    refine Or.inl ⟨hall (step_same hs h hsio' hused), ?_⟩
    by_cases hread : e.call = some .read
    · rcases step_read hs hcur hread h with ⟨-, hmem, -⟩ | ⟨-, hmem, -⟩
      · rw [hmem]
      · rw [hmem, List.mem_append, List.mem_singleton, or_iff_left hxp]
    · rw [(step_input_frame hs h hread hsio').1]

end Others

/-! ### Being taken off the processor -/

/-- What takes the running process off the processor while it goes on living: the registers that are
saved, and the EAX that it finds when it runs again. -/
inductive TakenOff (s : KState) : Event → Context → UInt32 → Prop
  | preempted (context : Context) : TakenOff s (.clock context) context context.eax
  /-- A parent finds the PID of its child. -/
  | spawning (context : Context) (args : Args)
      (is_call : SysCall.ofNum context.eax = .spawn ∨ SysCall.ofNum context.eax = .spawnl) :
      TakenOff s (.syscall context args) context s.procs.nextPid.toUInt32
  | sleeping (context : Context) (args : Args) (is_call : SysCall.ofNum context.eax = .sleep) :
      TakenOff s (.syscall context args) context context.eax
  /-- A reader finds the character that it has waited for. -/
  | reading (context : Context) (args : Args) (is_call : SysCall.ofNum context.eax = .read)
      (ch : UInt8) : TakenOff s (.syscall context args) context ch.toUInt32

section Off

variable {cfg : Config} {s s' : KState} {ps ps' : Procs} {e : Event} {x p : PcbId} {args : Args}
  {context : Context} {fcn wakeup : UInt32} {level : UInt8} {num pid : UInt16}

/-- A process that exits is out of use. -/
lemma exit_free (hc : Core (ps.table (some p))) (h : ps.exit p = .ok ps') :
    (ps'.pcbs p).status = .free := by
  have hc' := (cleanup_reap hc).core hc
  have hfree : ((ps.cleanup (some p)).pcbs p).status = .free := by rw [status_cleanup, if_pos rfl]
  rcases dispatch_spec hc' with ⟨ps₁, q, heq, -, -, hms⟩ | ⟨ps₁, heq, -⟩
  · obtain rfl := Except.ok.inj (heq.symm.trans h)
    refine hms.invariant hc' (I := fun t => (t.proc p).status = .free) hfree
      fun l t t' hl hc hm hI => hm.free hc ?_ ?_ hI <;> rintro rfl <;> exact hl
  · cases heq.symm.trans h

/-- A process that `_spawn` takes off the processor has the PID of its child in EAX. -/
lemma spawn_off (hc : Core (ps.table (some p))) (hcur : ps.current = some p)
    (h : ps.spawn p fcn level = .ok ps') (hoff : ps'.current ≠ some p) :
    (ps'.pcbs p).context
      = (ps.pcbs p).context.map ({ · with eax := ps.nextPid.toUInt32 }) := by
  cases hids : ((ps.table none).ids .freePcbs).head? with
  | none =>
      obtain ⟨s₁, heq, -, hcur', -⟩ := spawn_noPcb p fcn level (List.head?_eq_none_iff.mp hids)
      obtain rfl := Except.ok.inj (heq.symm.trans h)
      exact absurd (hcur'.trans hcur) hoff
  | some c =>
      cases hstack : (ps.table none).stackIds.head? with
      | none =>
          obtain ⟨s₁, heq, -, hcur', -⟩ :=
            spawn_noStack p fcn level hids (List.head?_eq_none_iff.mp hstack)
          obtain rfl := Except.ok.inj (heq.symm.trans h)
          exact absurd (hcur'.trans hcur) hoff
      | some k =>
          obtain ⟨s₁, t, heq, -, -, -, hcontext⟩ := spawn_make fcn level hc hids hstack
          rw [(keeps_dispatch (heq.symm.trans h)).context, hcontext]

/-- A process that `_sys_sleep` takes off the processor keeps its registers. -/
lemma sleep_context (h : ps.sleep p num wakeup = .ok ps') :
    (ps'.pcbs x).context = (ps.pcbs x).context :=
  (sleep_same h).context (Option.some_ne_none x).symm

/-- A reader that `_sys_read` takes off the processor waits. -/
lemma blockReading_reading (hc : Core (ps.table (some p))) (h : ps.blockReading p = .ok ps') :
    p ∈ ps'.members .reading := by
  by_cases hfree : ps.queues.avail = 0
  · obtain ⟨s₁, heq⟩ := blockReading_panic (p := p) hfree
    cases heq.symm.trans h
  · obtain ⟨s₁, heq, -, hmove⟩ := blockReading_block (p := p) hfree
    have hids : (s₁.table none).ids .reading = (ps.table (some p)).ids .reading ++ [p] :=
      hmove.ids_block
    have hc₁ := hmove.core hc
    rcases dispatch_spec hc₁ with ⟨s₂, q, heq', -, -, hms⟩ | ⟨s₂, heq', -⟩
    · obtain rfl := Except.ok.inj (heq'.symm.trans (heq.symm.trans h))
      have hqueue : (s₂.table (some q)).queue .reading = (s₁.table none).queue .reading :=
        hms.queue_reading hc₁ fun l hl => by
          constructor <;> rintro y rfl <;> exact hl
      change p ∈ ((s₂.table (some q)).queue .reading).map Prod.snd
      rw [hqueue]
      change p ∈ (s₁.table none).ids .reading
      rw [hids]
      simp
    · cases heq'.symm.trans (heq.symm.trans h)

/-- A system call that takes its caller off the processor. -/
lemma sysHandler_off {call : SysCall} (hc : Core (s.procs.table (some p)))
    (hcur : s.procs.current = some p) (hcontext : (s.procs.pcbs p).context = some context)
    (hcall : SysCall.ofNum context.eax = call) (h : sysHandler cfg p args s call = .ok s')
    (hoff : s'.procs.current ≠ some p) (hused : (s'.procs.pcbs p).status ≠ .free) :
    (call ≠ .read ∧ ∃ v, TakenOff s (.syscall context args) context v
        ∧ (s'.procs.pcbs p).context = some { context with eax := v })
      ∨ call = .read ∧ p ∈ s'.procs.members .reading
        ∧ (s'.procs.pcbs p).context = some context := by
  cases call with
  | spawn =>
      obtain ⟨ps, hres, rfl⟩ := liftProcs_ok h
      refine Or.inl ⟨by simp, _, .spawning context args (Or.inl hcall), ?_⟩
      rw [spawn_off hc hcur hres hoff, hcontext]
      rfl
  | spawnl =>
      obtain ⟨ps, hres, rfl⟩ := liftProcs_ok h
      refine Or.inl ⟨by simp, _, .spawning context args (Or.inr hcall), ?_⟩
      rw [spawn_off hc hcur hres hoff, hcontext]
      rfl
  | sleep =>
      obtain ⟨ps, hres, rfl⟩ := liftProcs_ok h
      exact Or.inl ⟨by simp, _, .sleeping context args hcall, (sleep_context hres).trans hcontext⟩
  | exit =>
      obtain ⟨ps, hres, rfl⟩ := liftProcs_ok h
      exact absurd (exit_free hc hres) hused
  | kill =>
      obtain ⟨ps, hres, rfl⟩ := liftProcs_ok h
      by_cases hrefused : (args 0).toUInt16 = 0
          ∨ (args 0).toUInt16 ≠ (s.procs.pcbs p).pid ∧ s.procs.findPid (args 0).toUInt16 = none
      · obtain rfl := Except.ok.inj ((kill_refused hrefused).symm.trans hres)
        exact absurd hcur hoff
      · obtain ⟨h0, hrest⟩ := not_or.mp hrefused
        by_cases hself : (args 0).toUInt16 = (s.procs.pcbs p).pid
        · change s.procs.kill p (args 0).toUInt16 = _ at hres
          rw [kill_self h0 hself] at hres
          exact absurd (exit_free (by rwa [table_setEax]) hres) hused
        · obtain ⟨q, hq⟩ := Option.ne_none_iff_exists'.mp fun h => hrest ⟨hself, h⟩
          obtain ⟨s₁, heq, hcur', -⟩ := kill_other h0 hself hq
          obtain rfl := Except.ok.inj (heq.symm.trans hres)
          exact absurd (hcur'.trans hcur) hoff
  | read =>
      rw [sysHandler, sysRead] at h
      cases hread : s.sio.sioRead with
      | mk ch sio =>
          rw [hread] at h
          cases ch with
          | none =>
              obtain ⟨ps, hres, rfl⟩ := liftProcs_ok h
              refine Or.inr ⟨rfl, blockReading_reading hc hres, ?_⟩
              exact ((blockReading_same hres).context
                (Option.some_ne_none p).symm).trans hcontext
          | some ch =>
              obtain rfl := Except.ok.inj h
              exact absurd hcur hoff
  | shmget =>
      obtain ⟨t, v, heq, hprocs, -⟩ := sysShmget_ok cfg args s p
      obtain rfl : t = s' := Except.ok.inj (heq.symm.trans h)
      rw [hprocs] at hoff
      exact absurd hcur hoff
  | shmrm =>
      rcases sysShmrm_cases args s p with ⟨halt, heq, -⟩ | ⟨-, t, v, heq, -, -, hprocs⟩
      · cases heq.symm.trans h
      · obtain rfl : t = s' := Except.ok.inj (heq.symm.trans h)
        rw [hprocs] at hoff
        exact absurd hcur hoff
  | shmat => exact absurd (plain_sysShmat.current hcur h) hoff
  | shmwrite => exact absurd (plain_sysShmwrite.current hcur h) hoff
  | shmread => exact absurd (plain_sysShmread.current hcur h) hoff
  | shmdt => exact absurd (plain_sysShmdt.current hcur h) hoff
  | _ =>
      obtain rfl := Except.ok.inj h
      exact absurd hcur hoff

/-- **Being taken off the processor**: the save area has the registers that were saved, and EAX has
its value at once, unless the process waits for a character. -/
lemma step_off (hs : Sound s) (hcur : s.procs.current = some x) (h : step cfg s e = .ok s')
    (hoff : s'.procs.current ≠ some x) (hused : (s'.procs.pcbs x).status ≠ .free) :
    (x ∉ s'.procs.members .reading ∧ ∃ context v, TakenOff s e context v
        ∧ (s'.procs.pcbs x).context = some { context with eax := v })
      ∨ x ∈ s'.procs.members .reading ∧ ∃ context args, e = .syscall context args
        ∧ SysCall.ofNum context.eax = .read ∧ (s'.procs.pcbs x).context = some context := by
  have hframe : e.call ≠ some .read → (∀ context polls, e ≠ .sio context polls) →
      x ∉ s'.procs.members .reading := fun hread hsio => by
    rw [(step_input_frame hs h hread hsio).1]
    exact hs.notMem_reading hcur
  cases e with
  | syscall context args =>
      obtain ⟨hcur', htable, -, hcontext⟩ := isrSave_running context hs.core hcur
      have hstep : step cfg s (.syscall context args)
          = sysHandler cfg x args (s.isrSave context) (SysCall.ofNum context.eax) :=
        step_syscall hcur
      rcases sysHandler_off (htable ▸ hs.core) hcur' hcontext rfl (hstep.symm.trans h) hoff hused
        with ⟨hread, v, htaken, hv⟩ | ⟨hcall, hmem, hv⟩
      · have hnext : (s.isrSave context).procs.nextPid = s.procs.nextPid := by
          simp [KState.isrSave, hcur, setPcb]
        refine Or.inl ⟨hframe (fun hcall => hread (Option.some.inj hcall)) (by simp), context, v,
          ?_, hv⟩
        cases htaken with
        | spawning _ _ is_call => exact hnext ▸ .spawning context args is_call
        | sleeping _ _ is_call => exact .sleeping context args is_call
        | reading _ _ is_call ch => exact .reading context args is_call ch
      · exact Or.inr ⟨hmem, context, args, rfl, hcall, hv⟩
  | clock context =>
      obtain ⟨hcur', htable, -, hcontext⟩ := isrSave_running context hs.core hcur
      refine Or.inl ⟨hframe (by simp [Event.call]) (by simp), context, _, .preempted context, ?_⟩
      obtain ⟨ps, heq, hkeeps, -⟩ :=
        isrClock_spec cfg (htable ▸ hs.core) (htable ▸ hs.no_requests) hcur'
      obtain ⟨ps', hres, rfl⟩ := liftProcs_ok (heq.symm.trans h)
      exact ((hkeeps.trans (keeps_expireQuantum hres)).context x).trans hcontext
  | sio context polls =>
      have hsame := (isrSio_quantum polls (s.isrSave context) h).1
      rw [isrSave_current, hcur] at hsame
      exact absurd hsame hoff
  | store address byte =>
      obtain rfl := Except.ok.inj h
      exact absurd hcur hoff
  | record address segment =>
      obtain rfl := Except.ok.inj h
      have hprocs : (s.storeRecord cfg address segment).procs = s.procs := by
        rw [KState.storeRecord]
        split_ifs <;> rfl
      rw [hprocs] at hoff
      exact absurd hcur hoff

end Off

/-! ### Resuming -/

section Resuming

variable {cfg : Config} {s₀ s s' : KState} {e : Event} {es : List Event} {x p c : PcbId}

/-- The process is in use and does not run. -/
def Off (x : PcbId) (s : KState) : Prop :=
  s.procs.current ≠ some x ∧ (s.procs.pcbs x).status ≠ .free

instance (x : PcbId) (s : KState) : Decidable (Off x s) := inferInstanceAs (Decidable (_ ∧ _))

/-- What happens to a process that does not run, over a whole run. -/
lemma off_staysOr (hs : Sound s) (h : Run cfg (fun s _ => Off x s) s es s') :
    Sound s' ∧ StaysOr x s.procs s'.procs :=
  h.invariant (I := fun t => Sound t ∧ StaysOr x s.procs t.procs)
    ⟨hs, Or.inl ⟨.refl _ x _, Iff.rfl⟩⟩
    fun _ _ _ ⟨ht, hstays⟩ ⟨hoff, hused⟩ hstep =>
      ⟨step_sound ht hstep, hstays.trans (step_others ht hstep hoff hused)⟩

/-- **A process resumes as it was interrupted**: when it next runs it finds the registers that it
had, but for EAX, which is as the event that took it off the processor says; and it still has its
PID, its parent and its level. -/
theorem resumes (hs : Reachable cfg (fun _ _ => True) s₀) (hcur : s₀.procs.current = some x)
    (hstep : step cfg s₀ e = .ok s) (h : Run cfg (fun s _ => Off x s) s es s')
    (hoff : s.procs.current ≠ some x) (hback : s'.procs.current = some x) :
    (∃ context v, TakenOff s₀ e context v
        ∧ (s'.procs.pcbs x).context = some { context with eax := v })
      ∧ (s'.procs.pcbs x).pid = (s₀.procs.pcbs x).pid
      ∧ (s'.procs.pcbs x).ppid = (s₀.procs.pcbs x).ppid
      ∧ (s'.procs.pcbs x).level = (s₀.procs.pcbs x).level := by
  have hs₀ := reachable_sound hs
  have hs₁ := step_sound hs₀ hstep
  have hused₀ : (s₀.procs.pcbs x).status ≠ .free := hs₀.core.used_of_at .cur hcur (by simp)
  have hused : (s.procs.pcbs x).status ≠ .free := by
    cases h with
    | nil s => exact absurd hback hoff
    | cons hP _ _ => exact hP.2
  obtain ⟨hs', hstays⟩ := off_staysOr hs₁ h
  have hnot : x ∉ s'.procs.members .reading := hs'.notMem_reading hback
  have hnone : none ≠ some x := (Option.some_ne_none x).symm
  have hsio : ∀ context polls, e ≠ .sio context polls := by
    rintro context polls rfl
    have hsame := (isrSio_quantum polls (s₀.isrSave context) hstep).1
    rw [isrSave_current, hcur] at hsame
    exact hoff hsame
  have hfirst := step_same hs₀ hstep hsio hused₀
  rcases step_off hs₀ hcur hstep hoff hused with
    ⟨hreading, context, v, htaken, hv⟩ | ⟨hreading, context, args, rfl, hread, hv⟩
  · rcases hstays with ⟨hsame, -⟩ | hhanded
    · exact ⟨⟨context, v, htaken, (hsame.context hnone).trans hv⟩, hsame.pid.trans hfirst.pid,
        hsame.ppid.trans hfirst.ppid, hsame.level.trans hfirst.level⟩
    · exact absurd hhanded.before hreading
  · rcases hstays with ⟨-, hmem⟩ | hhanded
    · exact absurd (hmem.mpr hreading) hnot
    · obtain ⟨ch, heax⟩ := hhanded.eax
      refine ⟨⟨context, ch.toUInt32, .reading context args hread ch, ?_⟩,
        hhanded.pid.trans hfirst.pid, hhanded.ppid.trans hfirst.ppid,
        hhanded.level.trans hfirst.level⟩
      rw [heax, hv]
      rfl

/-- The first process yields, and runs again when the second exits. -/
theorem resumes_yielding : ∃ s s', step demoConfig bootState (call 2 [0]) = .ok s
    ∧ Run demoConfig (fun s _ => Off 1 s) s [call 3 []] s'
    ∧ ∃ context v, TakenOff bootState (call 2 [0]) context v
      ∧ (s'.procs.pcbs 1).context = some { context with eax := v } := by
  obtain ⟨s, hrun, hrest⟩ := exists_run (step demoConfig) (fun _ _ => True) bootState [call 2 [0]]
    (f := fun s => (s.procs.current, (exec (step demoConfig) (fun s _ => Off 1 s) s
      [call 3 []]).map (·.procs.current))) (b := (some 2, some (some 1))) (by decide +kernel)
  obtain ⟨hoff, hexec⟩ := Prod.mk.inj hrest
  obtain ⟨s', hrun', hback⟩ := exists_run _ _ _ _ hexec
  obtain ⟨s₁, -, hstep, hnil⟩ := run_cons.mp hrun
  obtain rfl := run_nil.mp hnil
  exact ⟨s, s', hstep, hrun', (resumes (.of_init initial_bootState) bootState_current hstep hrun'
    (by rw [hoff]; decide) hback).1⟩

end Resuming

/-! ### The child of a process -/

section Child

variable {cfg : Config} {s₀ s s' : KState} {ps ps' : Procs} {e : Event} {es : List Event}
  {x p c : PcbId} {k : StackId} {fcn : UInt32} {level : UInt8} {context : Context} {args : Args}

/-- The process has the PID, the parent and the level. -/
structure Identity (c : PcbId) (pid ppid : UInt16) (level : UInt8) (s : Procs) : Prop where
  pid : (s.pcbs c).pid = pid
  ppid : (s.pcbs c).ppid = ppid
  level : (s.pcbs c).level = level

/-- The process has been made: it runs, or is ready and in a ready queue. -/
def Started (s : KState) (c : PcbId) : Prop :=
  s.procs.current = some c ∧ (s.procs.pcbs c).status = .running
    ∨ (s.procs.pcbs c).status = .ready ∧ ∃ l : Fin mlqLevels, c ∈ s.procs.members (.ready l)

/-- A call by the process returns the value, whatever else its registers hold. -/
def Returns (cfg : Config) (c : PcbId) (call : SysCall) (v : UInt32) (s : KState) : Prop :=
  ∀ context args, s.procs.current = some c → SysCall.ofNum context.eax = call →
    ∃ s', step cfg s (.syscall context args) = .ok s' ∧ s'.eax c = some v

/-- A process that asks for its PID and for that of its parent gets those of its PCB. -/
lemma Identity.returns {pid ppid : UInt16} (hs : Sound s) (h : Identity c pid ppid level s.procs) :
    Returns cfg c .getpid pid.toUInt32 s ∧ Returns cfg c .getppid ppid.toUInt32 s := by
  have hsave : ∀ context, s.procs.current = some c →
      ((s.isrSave context).procs.pcbs c).context = some context
        ∧ Identity c pid ppid level (s.isrSave context).procs := fun context hcur => by
    have hsame := isrSave_same (x := c) (s := s) context
    exact ⟨(isrSave_running context hs.core hcur).2.2.2, hsame.pid.trans h.pid,
      hsame.ppid.trans h.ppid, hsame.level.trans h.level⟩
  constructor <;> intro context args hcur hcall <;>
    obtain ⟨hcontext, hid⟩ := hsave context hcur <;> rw [step_syscall hcur, hcall]
  · refine ⟨_, rfl, ?_⟩
    change (((s.isrSave context).procs.setEax c _).pcbs c).context.map Context.eax = _
    rw [setEax_context, if_pos rfl, hcontext, hid.pid]
    rfl
  · refine ⟨_, rfl, ?_⟩
    change (((s.isrSave context).procs.setEax c _).pcbs c).context.map Context.eax = _
    rw [setEax_context, if_pos rfl, hcontext, hid.ppid]
    rfl

/-- The identity of a process that is in use is for life. -/
lemma step_identity {pid ppid : UInt16} (hs : Sound s) (h : step cfg s e = .ok s')
    (hused : (s.procs.pcbs c).status ≠ .free) (hc : Identity c pid ppid level s.procs) :
    Identity c pid ppid level s'.procs := by
  by_cases hcur : s.procs.current = some c
  · by_cases hsio : ∃ context polls, e = .sio context polls
    · obtain ⟨context, polls, rfl⟩ := hsio
      have hsame := isrSave_same (x := c) (s := s) context
      rcases isrSio_staysOr (x := c) (isrSave_sound context hs) h with ⟨hround, -⟩ | hhanded
      · exact ⟨(hround.pid.trans hsame.pid).trans hc.pid,
          (hround.ppid.trans hsame.ppid).trans hc.ppid,
          (hround.level.trans hsame.level).trans hc.level⟩
      · exact ⟨(hhanded.pid.trans hsame.pid).trans hc.pid,
          (hhanded.ppid.trans hsame.ppid).trans hc.ppid,
          (hhanded.level.trans hsame.level).trans hc.level⟩
    · have hsame := step_same hs h (fun context polls he => hsio ⟨context, polls, he⟩) hused
      exact ⟨hsame.pid.trans hc.pid, hsame.ppid.trans hc.ppid, hsame.level.trans hc.level⟩
  · rcases step_others hs h hcur hused with ⟨hsame, -⟩ | hhanded
    · exact ⟨hsame.pid.trans hc.pid, hsame.ppid.trans hc.ppid, hsame.level.trans hc.level⟩
    · exact ⟨hhanded.pid.trans hc.pid, hhanded.ppid.trans hc.ppid, hhanded.level.trans hc.level⟩

/-- What `_spawn` writes into the PCB and onto the stack of the new process. -/
lemma spawn_child (hne : p ≠ c) (hids : (ps.table none).At c (.queue .freePcbs))
    (hstack : (ps.table none).stackIds.head? = some k) (h : ps.spawn p fcn level = .ok ps') :
    Identity c ps.nextPid (ps.pcbs p).pid level ps'
      ∧ (ps'.pcbs c).context = some (initialContext fcn) := by
  obtain ⟨s₁, s₂, halloc, hstack', hkeeps, -⟩ := alloc_make fcn level hids hstack
  rw [spawn, halloc] at h
  simp only at h
  rw [hstack'] at h
  have hrest := (keeps_schedule.trans keeps_schedule).trans (keeps_dispatch h)
  refine ⟨⟨?_, ?_, ?_⟩, ?_⟩
  · rw [hrest.pid, ← hkeeps.nextPid]
    simp [makeProc, setEax, setPcb, hne.symm]
  · rw [hrest.ppid, ← hkeeps.pid]
    simp [makeProc, setEax, setPcb, hne]
  · rw [hrest.level]
    simp [makeProc, setEax, setPcb, hne.symm]
  · rw [hrest.context]
    simp [makeProc, setEax, setPcb, hne.symm]

/-- A spawning call is `_spawn` with its entry point and its level. -/
lemma step_spawns (hcur : s.procs.current = some p)
    (hlevel : (Event.syscall context args).spawnLevel = some level) :
    step cfg s (.syscall context args)
      = (s.isrSave context).liftProcs (·.spawn p (args 0) level) := by
  rw [step_syscall hcur]
  rw [Event.spawnLevel] at hlevel
  cases hnum : SysCall.ofNum context.eax <;> rw [hnum] at hlevel <;>
    first
      | (obtain rfl := Option.some.inj hlevel; rfl)
      | exact absurd hlevel (by simp)

/-- A spawning call that makes a process returns to the kernel: the new process has the first free
PCB, is ready or running, waits for nothing and is as `_spawn` has written it. -/
lemma step_spawns_child (cfg : Config) (hs : Sound s₀) (hcur : s₀.procs.current = some p)
    (hlevel : (Event.syscall context args).spawnLevel = some level) (hl : level.toNat < mlqLevels)
    (hpcb : s₀.procs.members .freePcbs ≠ []) (hstack : s₀.procs.poolStacks ≠ []) :
    ∃ s c, step cfg s₀ (.syscall context args) = .ok s
      ∧ (s₀.procs.members .freePcbs).head? = some c ∧ Started s c ∧ p ≠ c
      ∧ s.eax p = some s₀.procs.nextPid.toUInt32 ∧ c ∉ s.procs.members .reading
      ∧ Identity c s₀.procs.nextPid (s₀.procs.pcbs p).pid level s.procs
      ∧ (s.procs.pcbs c).context = some (initialContext (args 0)) := by
  obtain ⟨s, hstep, hres⟩ := step_spawn cfg hs hcur hlevel
  rcases hres with ⟨hnil, -⟩ | ⟨c, -, hnil, -⟩ |
    ⟨c, k, t₁, t₂, hc, hk, heax, hmake, hrequeue, hms, -⟩
  · exact absurd hnil hpcb
  · exact absurd hnil hstack
  have hne : p ≠ c := by
    rintro rfl
    exact notMem_of_cur (hs.core.occ_le p) hcur (At.mem hc)
  rw [makeLabel, if_pos hl] at hmake
  obtain ⟨halive, -⟩ := Moves.alive_afterMake
    (Moves.head hrequeue (Or.inl rfl) (hms.mono fun _ => Or.inr)) (hmake.core hs.core) hne
    (Or.inl hmake.inReady_create)
  obtain ⟨hcur', htable, hnone, -⟩ := isrSave_running context hs.core hcur
  obtain ⟨ps, hspawn, hps⟩ := liftProcs_ok ((step_spawns hcur hlevel).symm.trans hstep)
  obtain ⟨hid, hcontext⟩ := spawn_child hne (hnone ▸ hc)
    (by rw [hnone]; exact hk) hspawn
  have hpid : ((s₀.isrSave context).procs.pcbs p).pid = (s₀.procs.pcbs p).pid :=
    (isrSave_same (x := p) context).pid
  have hnext : (s₀.isrSave context).procs.nextPid = s₀.procs.nextPid := by
    simp [KState.isrSave, hcur, setPcb]
  rw [hpid, hnext] at hid
  subst hps
  have hs' := step_sound hs hstep
  refine ⟨_, c, hstep, hc, ?_, hne, heax, fun hmem => ?_, hid, hcontext⟩
  · rcases halive with hready | hrun
    · exact Or.inr hready
    · exact Or.inl ⟨hrun, (hs'.core.running c hrun).1⟩
  · rcases halive with hready | hrun
    · obtain ⟨key, hstatus, -⟩ := hs'.core.allows_of_mem (q := .reading) hmem
      rw [hready.1] at hstatus
      exact absurd hstatus (by decide)
    · exact hs'.notMem_reading hrun hmem

/-- **Who a child is**: with a free PCB, a free stack and a level of its own a spawning call makes a
process of the first free PCB, which is ready or runs at once, and starts at the entry point with
cleared registers. For as long as that process is in use, it gets the PID that the call returned to
its parent when it asks for its own, and its parent's when it asks for that. -/
theorem spawned_identity (hs : Reachable cfg (fun _ _ => True) s₀)
    (hcur : s₀.procs.current = some p)
    (hlevel : (Event.syscall context args).spawnLevel = some level) (hl : level.toNat < mlqLevels)
    (hpcb : s₀.procs.members .freePcbs ≠ []) (hstack : s₀.procs.poolStacks ≠ []) :
    ∃ s c pid, step cfg s₀ (.syscall context args) = .ok s
      ∧ (s₀.procs.members .freePcbs).head? = some c ∧ Started s c ∧ p ≠ c ∧ s.eax p = some pid
      ∧ (∀ es s', Run cfg (fun s _ => Off c s) s es s' → s'.procs.current = some c →
          (s'.procs.pcbs c).context = some (initialContext (args 0)))
      ∧ ∀ es s', Run cfg (fun s _ => (s.procs.pcbs c).status ≠ .free) s es s' →
          Returns cfg c .getpid pid s'
            ∧ Returns cfg c .getppid (s₀.procs.pcbs p).pid.toUInt32 s'
            ∧ (s'.procs.pcbs c).level = level := by
  have hs₀ := reachable_sound hs
  obtain ⟨s, c, hstep, hfirst, hstarted, hne, heax, hnot, hid, hcontext⟩ :=
    step_spawns_child cfg hs₀ hcur hlevel hl hpcb hstack
  have hs₁ := step_sound hs₀ hstep
  refine ⟨s, c, _, hstep, hfirst, hstarted, hne, heax, fun es s' h _ => ?_, fun es s' h => ?_⟩
  · obtain ⟨-, ⟨hsame, -⟩ | hhanded⟩ := off_staysOr hs₁ h
    · exact (hsame.context (Option.some_ne_none c).symm).trans hcontext
    · exact absurd hhanded.before hnot
  · obtain ⟨hs', hid'⟩ := h.invariant
      (I := fun t => Sound t ∧ Identity c s₀.procs.nextPid (s₀.procs.pcbs p).pid level t.procs)
      ⟨hs₁, hid⟩ fun _ _ _ ⟨ht, hidt⟩ hused hstep' =>
        ⟨step_sound ht hstep', step_identity ht hstep' hused hidt⟩
    exact ⟨(hid'.returns hs').1, (hid'.returns hs').2, hid'.level⟩

/-- The first process makes a child of the highest level, which runs at once. -/
theorem spawned_identity_demo :
    ∃ s c pid, step demoConfig bootState (call 1 [0x5000, 0]) = .ok s
      ∧ (bootState.procs.members .freePcbs).head? = some c ∧ Started s c ∧ 1 ≠ c
      ∧ s.eax 1 = some pid
      ∧ (∀ es s', Run demoConfig (fun s _ => Off c s) s es s' → s'.procs.current = some c →
          (s'.procs.pcbs c).context = some (initialContext 0x5000))
      ∧ ∀ es s', Run demoConfig (fun s _ => (s.procs.pcbs c).status ≠ .free) s es s' →
          Returns demoConfig c .getpid pid s'
            ∧ Returns demoConfig c .getppid (bootState.procs.pcbs 1).pid.toUInt32 s'
            ∧ (s'.procs.pcbs c).level = 0 :=
  spawned_identity (.of_init initial_bootState) bootState_current rfl (by decide)
    (by decide +kernel) (by decide +kernel)

end Child

end Sp2
