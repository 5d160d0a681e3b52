import Sp2.Kernel.Init
import Sp2.Table.Calls

/-!
Every step of the kernel moves the process table.

* `KState.table`, `Sound`: the table of a kernel state, and what makes a state sound: the
  invariant of the moves, a running process, and no disk request.
* `SysCall.Allows`, `Event.Allows`: the moves each event may make.
* `step_moved`: **the refinement**, every event makes only moves it may make, whether the
  kernel returns to the process or stops.
* `reachable_sound`: every reachable state is sound.
-/

namespace Sp2

open ProcTable Procs Keyed

/-- The process table of a kernel state. -/
def KState.table (s : KState) : ProcTable := s.procs.table s.procs.current

lemma KState.table_cur (s : KState) : s.table.cur = s.procs.current := rfl

/-- What a kernel function makes of a table, its allowed moves being `P`. -/
def KMoved (P : Label → Prop) (t : ProcTable) : Res KState → Prop
  | .ok s => Moves P t s.table ∧ s.procs.current ≠ none
  | .error (halt, s) => Stops P t halt s.procs

/-- The moves a system call may make. -/
def SysCall.Allows (args : Args) (caller : PcbId) (l : Label) : SysCall → Prop
  | .spawn => (∃ c, l = .create c ∨ l = .bounce c) ∨ l = .requeue .cur caller ∨ OfDispatch l
  | .spawnl => (∃ c, l = makeLabel (args 1).toUInt8 c ∨ l = .bounce c)
      ∨ l = .requeue .cur caller ∨ OfDispatch l
  | .sleep => l = .requeue .cur caller ∨ (∃ wakeup, l = .park caller wakeup) ∨ OfDispatch l
  | .exit => l = .reap .cur caller ∨ OfDispatch l
  | .kill => l = .reap .cur caller ∨ (∃ p, l = .kill p) ∨ OfDispatch l
  | .read => l = .block caller ∨ OfDispatch l
  | .shmget => l = .other
  | .shmrm => l = .other
  | _ => False

/-- The moves an event may make. -/
def Event.Allows (caller : PcbId) (l : Label) : Event → Prop
  | .syscall context args => (SysCall.ofNum context.eax).Allows args caller l
  | .clock _ => OfWake l ∨ l = .requeue .cur caller ∨ OfDispatch l
  | .sio _ _ => ∃ p, l = .requeue (.queue .reading) p
  | .store _ _ => False
  | .record _ _ => False

/-! ### Results -/

section Results

variable {P Q : Label → Prop} {t : ProcTable} {s s' : KState} {ps : Procs} {p : PcbId}
  {context : Context}

lemma KMoved.of_moves {t' : ProcTable} {r : Res KState} (h : KMoved Q t' r)
    (hms : Moves P t t') (hQ : ∀ l, Q l → P l) : KMoved P t r := by
  cases r with
  | ok s => exact ⟨hms.trans (h.1.mono hQ), h.2⟩
  | error e => exact Stops.of_moves h hms hQ

lemma liftProcs_eq {f : Procs → Res Procs} (h : f s.procs = .ok ps) :
    s.liftProcs f = .ok { s with procs := ps } := by
  rw [KState.liftProcs, h]

lemma liftProcs_ok {f : Procs → Res Procs} (h : s.liftProcs f = .ok s') :
    ∃ procs, f s.procs = .ok procs ∧ s' = { s with procs := procs } := by
  rw [KState.liftProcs] at h
  cases hf : f s.procs with
  | ok procs =>
      rw [hf] at h
      exact ⟨procs, rfl, (Except.ok.inj h).symm⟩
  | error e =>
      rw [hf] at h
      cases h

lemma liftProcs_moved {f : Procs → Res Procs} (h : Moved P t (f s.procs)) :
    KMoved P t (s.liftProcs f) := by
  rw [KState.liftProcs]
  cases hf : f s.procs with
  | ok procs =>
      rw [hf] at h
      exact h
  | error e =>
      rw [hf] at h
      exact h

@[simp] lemma isrSave_current : (s.isrSave context).procs.current = s.procs.current := by
  rw [KState.isrSave]
  cases h : s.procs.current with
  | none => exact h
  | some p => exact h

/-- The current process has a save area already, so that filling it does not show in the
table. -/
lemma isrSave_table (context : Context) (hc : Core s.table) :
    (s.isrSave context).table = s.table := by
  rw [KState.table, KState.table, isrSave_current, KState.isrSave]
  cases hcur : s.procs.current with
  | none => rfl
  | some p =>
      have hused := hc.used_of_at .cur hcur (by simp)
      have hsaved : (s.procs.pcbs p).context.isSome = true := hc.saved p hused
      exact table_setPcb_eq (by simp [Pcb.proc, hsaved])

/-- A result that leaves the processes alone apart from the caller's EAX. -/
def Plain (caller : PcbId) (s : KState) : Res KState → Prop
  | .ok s' => (s'.procs = s.procs ∨ ∃ v, s'.procs = s.procs.setEax caller v)
      ∧ s'.clock = s.clock
  | .error (halt, s') => s' = s ∧ halt.ofProcess = false

lemma Plain.moved {r : Res KState} (h : Plain p s r) (hcur : s.procs.current = some p) :
    KMoved P s.table r := by
  cases r with
  | ok s' =>
      have hsame : s'.table = s.table ∧ s'.procs.current = s.procs.current := by
        obtain ⟨hprocs | ⟨v, hprocs⟩, -⟩ := h <;> simp [KState.table, hprocs]
      rw [KMoved, hsame.1, hsame.2, hcur]
      exact ⟨Moves.refl _, by simp⟩
  | error e =>
      obtain ⟨halt, s'⟩ := e
      obtain ⟨rfl, houtside⟩ := h
      exact .outside (Moves.refl _) houtside

end Results

/-! ### System calls -/

section Calls

variable {cfg : Config} {args : Args} {s : KState} {p : PcbId} {P : Label → Prop}

lemma plain_sysShmat : Plain p s (sysShmat p args s) := by
  rw [sysShmat]
  split_ifs
  · exact ⟨rfl, rfl⟩
  · exact ⟨rfl, rfl⟩
  · exact ⟨Or.inr ⟨_, rfl⟩, rfl⟩
  · exact ⟨Or.inr ⟨_, rfl⟩, rfl⟩
  · exact ⟨Or.inr ⟨_, rfl⟩, rfl⟩

lemma plain_sysShmwrite : Plain p s (sysShmwrite p args s) := by
  rw [sysShmwrite]
  split_ifs
  · exact ⟨Or.inr ⟨_, rfl⟩, rfl⟩
  · cases strcpy _ (args 1) memorySize s.mem with
    | none => exact ⟨rfl, rfl⟩
    | some mem => exact ⟨Or.inr ⟨_, rfl⟩, rfl⟩

lemma plain_sysShmread : Plain p s (sysShmread p args s) := by
  rw [sysShmread]
  split_ifs
  · exact ⟨Or.inr ⟨_, rfl⟩, rfl⟩
  · cases strcpy (args 1) _ memorySize s.mem with
    | none => exact ⟨rfl, rfl⟩
    | some mem => exact ⟨Or.inr ⟨_, rfl⟩, rfl⟩

lemma plain_sysShmdt : Plain p s (sysShmdt p args s) := by
  rw [sysShmdt]
  simp only
  split_ifs
  · exact ⟨Or.inr ⟨_, rfl⟩, rfl⟩
  · exact ⟨rfl, rfl⟩
  · exact ⟨rfl, rfl⟩
  · exact ⟨Or.inr ⟨_, rfl⟩, rfl⟩
  · exact ⟨Or.inr ⟨_, rfl⟩, rfl⟩
  · exact ⟨Or.inr ⟨_, rfl⟩, rfl⟩
  · exact ⟨Or.inr ⟨_, rfl⟩, rfl⟩

/-- A segment goes out of the pool of segments. -/
lemma move_shmAlloc (ps : Procs) (cur : Option PcbId) :
    Move .other (ps.table cur) ((ps.qRemove .freeShms).2.table cur) := by
  have hitems := ps.queues.items_remove .freeShms
  have havail := ps.queues.avail_remove .freeShms
  have hmove := Move.other (t := ps.table cur) (ps.queues.remove .freeShms).2.avail
    (ps.queues.items .freeShms).tail.length (by
      rw [havail, table_avail]
      simp only [table]
      cases ps.queues.items .freeShms
      · simp
      · simp
        omega)
  refine cast (congrArg _ ?_) hmove
  simp only [table, qRemove, hitems]
  simp

/-- A segment goes into the pool of segments if a node is free. -/
lemma move_shmDealloc (ps : Procs) (address : UInt32) (cur : Option PcbId) :
    Move .other (ps.table cur) ((ps.qInsert .freeShms address).2.table cur) := by
  have hitems := ps.queues.items_insert ps.pcbs .freeShms address
  have havail := ps.queues.avail_insert ps.pcbs .freeShms address
  by_cases h : ps.queues.avail = 0
  · have hmove := Move.other (t := ps.table cur) (ps.table cur).avail
      (ps.table cur).shms rfl
    refine cast (congrArg _ ?_) hmove
    rw [if_pos h] at hitems
    simp only [table, qInsert, hitems, havail, h]
    simp [isFailure, QueueName.isProcess]
  · have hmove := Move.other (t := ps.table cur) ((ps.table cur).avail - 1)
      ((ps.table cur).shms + 1) (by rw [table_avail]; omega)
    refine cast (congrArg _ ?_) hmove
    rw [if_neg h] at hitems
    simp only [table, qInsert, hitems, havail]
    simp [isFailure, QueueName.isProcess, QSys.insertItem, QueueName.hashfcn]

lemma sysShmget_ok (cfg : Config) (args : Args) (s : KState) (p : PcbId) :
    ∃ s' v, sysShmget cfg p args s = .ok s'
      ∧ s'.procs = (s.procs.qRemove .freeShms).2.setEax p v ∧ s'.clock = s.clock
      ∧ s'.sio = s.sio := by
  obtain ⟨seg, shm, hseg⟩ : ∃ seg shm,
      s.shm.shmAlloc s.procs = (seg, shm, (s.procs.qRemove .freeShms).2) := ⟨_, _, rfl⟩
  rw [sysShmget, hseg]
  by_cases h : seg = 0
  · exact ⟨_, minusOne, if_pos h, rfl, rfl, rfl⟩
  · exact ⟨_, _, if_neg h, rfl, rfl, rfl⟩

/-- The outcomes of `_sys_shmrm`: a stop that changes nothing, or an insertion. -/
lemma sysShmrm_cases (args : Args) (s : KState) (p : PcbId) :
    (∃ halt, sysShmrm p args s = .error (halt, s) ∧ halt.ofProcess = false) ∨
    (s.shm.currentShms ≠ 0 ∧ (s.shm.segments (args 0)).id = s.shm.current.id) ∧
      ∃ s' v, sysShmrm p args s = .ok s' ∧ s'.clock = s.clock ∧ s'.sio = s.sio ∧
        s'.procs = ((s.procs.qInsert .freeShms (args 0)).2.setEax p v) := by
  rw [sysShmrm]
  split_ifs with hcurrent hid
  · exact Or.inl ⟨_, rfl, rfl⟩
  · exact Or.inl ⟨_, rfl, rfl⟩
  · refine Or.inr ⟨⟨hcurrent, not_not.mp hid⟩, ?_⟩
    simp only [Shm.shmDealloc, qInsert_fst]
    split_ifs
    · exact ⟨_, _, rfl, rfl, rfl, rfl⟩
    · exact ⟨_, _, rfl, rfl, rfl, rfl⟩

/-- **Every system call** makes only moves it may make. -/
lemma sysHandler_moved (cfg : Config) (args : Args) (call : SysCall) (hc : Core s.table)
    (hcur : s.procs.current = some p) :
    KMoved (fun l => call.Allows args p l) s.table (sysHandler cfg p args s call) := by
  have htable : s.table = s.procs.table (some p) := by rw [KState.table, hcur]
  rw [htable] at hc
  cases call with
  | spawn =>
      rw [htable]
      exact liftProcs_moved (spawn_moved hc hcur)
  | spawnl =>
      rw [htable]
      exact liftProcs_moved (spawn_moved hc hcur)
  | sleep =>
      rw [htable]
      exact liftProcs_moved (sleep_moved hc)
  | exit =>
      rw [htable]
      exact liftProcs_moved (exit_moved hc)
  | kill =>
      rw [htable]
      refine liftProcs_moved ((kill_moved hc hcur).of_moves (Moves.refl _) fun l hl => ?_)
      rcases hl with hl | ⟨x, hl, -⟩ | hl
      · exact Or.inl hl
      · exact Or.inr (Or.inl ⟨x, hl⟩)
      · exact Or.inr (Or.inr hl)
  | read =>
      rw [sysHandler, sysRead]
      cases hread : s.sio.sioRead with
      | mk ch sio =>
          cases ch with
          | some ch => exact Plain.moved (p := p) (s := s) ⟨Or.inr ⟨_, rfl⟩, rfl⟩ hcur
          | none =>
              rw [htable]
              exact liftProcs_moved (s := { s with sio := sio }) (blockReading_moved hc)
  | write => exact Plain.moved (p := p) (s := s) ⟨Or.inl rfl, rfl⟩ hcur
  | time => exact Plain.moved (p := p) (s := s) ⟨Or.inr ⟨_, rfl⟩, rfl⟩ hcur
  | getpid => exact Plain.moved (p := p) (s := s) ⟨Or.inr ⟨_, rfl⟩, rfl⟩ hcur
  | getppid => exact Plain.moved (p := p) (s := s) ⟨Or.inr ⟨_, rfl⟩, rfl⟩ hcur
  | getpidlist => exact Plain.moved (p := p) (s := s) ⟨Or.inr ⟨_, rfl⟩, rfl⟩ hcur
  | shmget =>
      obtain ⟨s', v, heq, hprocs, -⟩ := sysShmget_ok cfg args s p
      rw [sysHandler, heq, KMoved, KState.table, KState.table, hprocs, setEax_current,
        table_setEax]
      refine ⟨Moves.single (move_shmAlloc s.procs _) rfl, ?_⟩
      change s.procs.current ≠ none
      rw [hcur]
      simp
  | shmat => exact plain_sysShmat.moved hcur
  | shmwrite => exact plain_sysShmwrite.moved hcur
  | shmread => exact plain_sysShmread.moved hcur
  | shmdt => exact plain_sysShmdt.moved hcur
  | shmrm =>
      rcases sysShmrm_cases args s p with ⟨halt, heq, houtside⟩ |
        ⟨-, s', v, heq, -, -, hprocs⟩
      · rw [sysHandler, heq]
        exact .outside (Moves.refl _) houtside
      · rw [sysHandler, heq, KMoved, KState.table, KState.table, hprocs, setEax_current,
          table_setEax]
        refine ⟨Moves.single (move_shmDealloc s.procs _ _) rfl, ?_⟩
        change s.procs.current ≠ none
        rw [hcur]
        simp

end Calls

/-! ### Interrupts -/

section Interrupts

variable {cfg : Config} {s : KState} {p : PcbId} {cur : Option PcbId} {ch : UInt8}

/-- No disk request is pending and no process waits for one. -/
def noRequests : Requests := ⟨[], [], []⟩

/-- Without a pending request the ramdisk part of `_isr_clock` does nothing to the table. -/
lemma serveRamdisk_eq (cfg : Config) (h : (s.procs.table cur).requests = noRequests) :
    ∃ ps, s.serveRamdisk cfg = .ok { s with procs := ps } ∧ Keeps s.procs ps
      ∧ ps.current = s.procs.current ∧ ∀ cur', ps.table cur' = s.procs.table cur' := by
  have hnil : s.procs.queues.items .ramdiskIoPending = [] := congrArg Requests.ramdisk h
  rw [KState.serveRamdisk]
  split_ifs with htime
  · refine ⟨(s.procs.qRemove .ramdiskIoPending).2, ?_, keeps_qRemove, rfl, fun cur' => ?_⟩
    · have hfst : (s.procs.qRemove .ramdiskIoPending).1 = none := by
        rw [qRemove, QSys.remove_fst, hnil]
        rfl
      simp only [hfst]
    · have hitems := s.procs.queues.items_remove .ramdiskIoPending
      have havail := s.procs.queues.avail_remove .ramdiskIoPending
      rw [hnil, List.tail_nil, ← hnil, Function.update_eq_self] at hitems
      simp only [table, qRemove, hitems, havail, hnil, if_true, Nat.add_zero]
  · exact ⟨s.procs, rfl, Keeps.refl _, rfl, fun _ => rfl⟩

/-- The wake-up loop has enough fuel. -/
lemma ProcTable.Core.sleeping_lt {t : ProcTable} (h : Core t) :
    (t.queue .sleeping).length < wakeFuel := by
  have hle : (t.queue .sleeping).length ≤ t.queued :=
    Finset.single_le_sum (f := fun q => (t.queue q).length) (fun _ _ => Nat.zero_le _)
      (Finset.mem_univ _)
  have hpool := h.pool
  rw [wakeFuel]
  omega

/-- **`_isr_clock`** on the table of a running process: every sleeper whose wakeup time has
come goes to its ready queue, the others stay, and the quantum is counted down. -/
lemma isrClock_spec (cfg : Config) (hc : Core (s.procs.table (some p)))
    (hr : (s.procs.table (some p)).requests = noRequests) (hcur : s.procs.current = some p) :
    ∃ ps : Procs, isrClock cfg s
        = ({ s with clock := s.clock.tick, procs := ps }).liftProcs Procs.expireQuantum
      ∧ Keeps s.procs ps ∧ ps.current = some p
      ∧ Moves OfWake (s.procs.table (some p)) (ps.table (some p))
      ∧ (ps.table (some p)).queue .sleeping
        = later s.clock.tick.systemTime ((s.procs.table (some p)).queue .sleeping)
      ∧ ∀ e ∈ due s.clock.tick.systemTime ((s.procs.table (some p)).queue .sleeping),
        InReady (ps.table (some p)) e.2 := by
  obtain ⟨ps, hwake, hkeeps, hcur', hms, hlater, hdue, -⟩ :=
    wakeLoop_spec s.clock.tick.systemTime wakeFuel s.procs hc hc.sleeping_lt
  have hr' : (ps.table (some p)).requests = noRequests := by
    rw [← hr]
    exact hms.invariant hc (I := fun t => t.requests = (s.procs.table (some p)).requests) rfl
      fun l t t' _ _ hm hI => hm.requests_eq.trans hI
  obtain ⟨ps', hserve, hkeeps', hcur'', htable⟩ :=
    serveRamdisk_eq cfg (s := { s with clock := s.clock.tick, procs := ps }) hr'
  refine ⟨ps', ?_, hkeeps.trans hkeeps', hcur''.trans (hcur'.trans hcur), ?_, ?_, ?_⟩
  · have hlift : ({ s with clock := s.clock.tick } : KState).liftProcs
        (wakeLoop wakeFuel s.clock.tick.systemTime)
        = .ok { s with clock := s.clock.tick, procs := ps } := liftProcs_eq hwake
    simp only [isrClock, hlift, bind, Except.bind, hserve]
  · rwa [htable]
  · rwa [htable]
  · rwa [htable]

lemma isrClock_moved (cfg : Config) (hc : Core (s.procs.table (some p)))
    (hr : (s.procs.table (some p)).requests = noRequests) (hcur : s.procs.current = some p) :
    KMoved (fun l => OfWake l ∨ l = .requeue .cur p ∨ OfDispatch l) (s.procs.table (some p))
      (isrClock cfg s) := by
  obtain ⟨ps, heq, -, hcur', hms, -⟩ := isrClock_spec cfg hc hr hcur
  have hlast := expireQuantum_moved (Moves.core hms hc) hcur'
  rw [heq]
  refine liftProcs_moved ?_
  exact Moved.of_moves hlast (hms.mono fun _ => Or.inl) fun _ => Or.inr

/-- The character that is stored for a received one. -/
def received (ch : UInt8) : UInt8 := if ch = carriageReturn then lineFeed else ch

/-- With a process waiting, a received character goes into its EAX, and it is scheduled. -/
lemma rxInterrupt_wake (ch : UInt8) (hc : Core (s.procs.table cur))
    (hp : (s.procs.table cur).At p (.queue .reading)) :
    ∃ ps : Procs, rxInterrupt ch s = .ok { s with procs := ps }
      ∧ ps = (((s.procs.qRemove (.pcbs .reading)).2.setEax p (received ch).toUInt32).schedule p).2
      ∧ ps.current = s.procs.current
      ∧ Move (.requeue (.queue .reading) p) (s.procs.table cur) (ps.table cur) := by
  have hfst : (s.procs.qRemove (.pcbs .reading)).1 = some p := (qRemove_fst cur).trans hp
  have hused := hc.used_of_at (.queue .reading) hp (by simp)
  have hsaved : (s.procs.pcbs p).context.isSome = true := hc.saved p hused
  have hlevel : (s.procs.pcbs p).level.toNat < mlqLevels := hc.level_lt (At.mem hp) (by simp)
  have hnonempty : s.procs.queues.isEmpty (.pcbs .reading) = false := by
    rw [Bool.eq_false_iff, Ne, isEmpty_iff cur]
    intro hnil
    simp [At, ids, hnil] at hp
  have hcontext : ((s.procs.qRemove (.pcbs .reading)).2.pcbs p).context ≠ none := by
    intro hnone
    change (s.procs.pcbs p).context = none at hnone
    rw [hnone] at hsaved
    exact absurd hsaved (by simp)
  refine ⟨_, ?_, rfl, ?_, ?_⟩
  · rw [rxInterrupt]
    simp only [hnonempty, hfst, hcontext, Bool.not_false, if_true, if_false, received]
  · rw [schedule]
    split_ifs <;> rfl
  · have hlevel' : (((s.procs.qRemove (.pcbs .reading)).2.setEax p
        (received ch).toUInt32).pcbs p).level.toNat < mlqLevels := by
      simpa [setEax, setPcb, qRemove] using hlevel
    have hmove := Move.requeue (t := s.procs.table cur) (.queue .reading) ⟨_, hlevel⟩ hp
      (Or.inr (Or.inr rfl)) rfl
    rw [table_schedule hlevel', table_setEax, table_qRemove]
    simpa [setEax, setPcb, qRemove, take] using hmove

/-- With nobody waiting, a received character goes into the buffer if there is room. -/
lemma rxInterrupt_buffer (h : (s.procs.table cur).queue .reading = []) :
    rxInterrupt ch s = .ok (if s.sio.inbuffer.count < UInt32.ofNat bufSize then
      { s with sio := { s.sio with inbuffer := s.sio.inbuffer.put (received ch) } } else s) := by
  have hempty : s.procs.queues.isEmpty (.pcbs .reading) = true := (isEmpty_iff cur).mpr h
  rw [rxInterrupt]
  simp only [hempty, Bool.not_true, Bool.false_eq_true, if_false, received]
  by_cases hcount : s.sio.inbuffer.count < UInt32.ofNat bufSize
  · rw [if_pos hcount, if_pos hcount]
  · rw [if_neg hcount, if_neg hcount]

lemma isrSio_moved : ∀ (polls : List (UInt8 × UInt8)) (s : KState), Core s.table →
    s.procs.current ≠ none →
    KMoved (fun l => ∃ p, l = .requeue (.queue .reading) p) s.table (isrSio polls s)
  | [], s, _, hcur => ⟨Moves.refl _, hcur⟩
  | (eir, rxd) :: polls, s, hc, hcur => by
      rw [isrSio]
      split_ifs
      · exact isrSio_moved polls { s with sio := s.sio.txInterrupt } hc hcur
      · by_cases hempty : s.table.queue .reading = []
        · rw [rxInterrupt_buffer hempty]
          simp only
          split_ifs
          · exact isrSio_moved polls _ hc hcur
          · exact isrSio_moved polls s hc hcur
        · obtain ⟨p, hp⟩ := exists_head hempty
          obtain ⟨ps, heq, -, hcur', hmove⟩ := rxInterrupt_wake rxd hc hp
          have htable : ({ s with procs := ps } : KState).table = ps.table s.procs.current := by
            rw [KState.table, hcur']
          rw [heq]
          simp only
          have hrest := isrSio_moved polls { s with procs := ps }
            (by rw [htable]; exact hmove.core hc) (by rw [hcur']; exact hcur)
          rw [htable] at hrest
          exact hrest.of_moves (Moves.single hmove ⟨p, rfl⟩) fun _ hl => hl
      · exact ⟨Moves.refl _, hcur⟩
      · exact .outside (Moves.refl _) rfl

end Interrupts

/-! ### Steps -/

section Steps

variable {cfg : Config} {s s' : KState} {p : PcbId} {e : Event} {context : Context} {args : Args}

/-- **A sound state**: the invariant of the moves holds, a process runs, and no disk
request is pending, as no call in the repository makes one. -/
structure Sound (s : KState) : Prop where
  core : Core s.table
  runs : s.procs.current ≠ none
  no_requests : s.table.requests = noRequests

lemma Sound.exists_cur (hs : Sound s) : ∃ p, s.procs.current = some p :=
  Option.ne_none_iff_exists'.mp hs.runs

/-- The entry to the kernel keeps the table of the running process. -/
lemma isrSave_running (context : Context) (hc : Core s.table) (hcur : s.procs.current = some p) :
    (s.isrSave context).procs.current = some p
      ∧ (s.isrSave context).procs.table (some p) = s.table
      ∧ (s.isrSave context).procs.table none = s.table.setCur none
      ∧ ((s.isrSave context).procs.pcbs p).context = some context := by
  have hcur' : (s.isrSave context).procs.current = some p := by rw [isrSave_current, hcur]
  have htable : (s.isrSave context).procs.table (some p) = s.table := by
    rw [← isrSave_table context hc, KState.table, hcur']
  refine ⟨hcur', htable, ?_, by simp [KState.isrSave, hcur, setPcb]⟩
  rw [← htable]
  rfl

/-- A system call of the running process is carried out by its handler. -/
lemma step_syscall (hcur : s.procs.current = some p) :
    step cfg s (.syscall context args)
      = sysHandler cfg p args (s.isrSave context) (SysCall.ofNum context.eax) := by
  have hcontext : ((s.isrSave context).procs.pcbs p).context = some context := by
    simp [KState.isrSave, hcur, setPcb]
  rw [step, isrSyscall, isrSave_current, hcur]
  simp only [hcontext]

/-- An event other than a clock interrupt makes only moves it may make, whatever requests are
pending. -/
lemma event_moved (cfg : Config) (hc : Core s.table) (hcur : s.procs.current = some p)
    (he : ∀ context, e ≠ .clock context) :
    KMoved (fun l => e.Allows p l) s.table (step cfg s e) := by
  cases e with
  | syscall context args =>
      obtain ⟨hcur', -⟩ := isrSave_running context hc hcur
      have hsave := isrSave_table context hc
      have hmoved := sysHandler_moved cfg args (SysCall.ofNum context.eax)
        (by rw [hsave]; exact hc) hcur'
      rw [step_syscall hcur]
      rwa [hsave] at hmoved
  | clock context => exact absurd rfl (he context)
  | sio context polls =>
      obtain ⟨hcur', -⟩ := isrSave_running context hc hcur
      have hsave := isrSave_table context hc
      have hmoved := isrSio_moved polls (s.isrSave context) (by rw [hsave]; exact hc)
        (by rw [hcur']; simp)
      rwa [hsave] at hmoved
  | store address byte => exact ⟨Moves.refl _, by rw [hcur]; simp⟩
  | record address segment =>
      have hprocs : (s.storeRecord cfg address segment).procs = s.procs := by
        rw [KState.storeRecord]
        split_ifs <;> rfl
      rw [step, KMoved, KState.table, KState.table, hprocs]
      exact ⟨Moves.refl _, by rw [hcur]; simp⟩

/-- **The refinement**: every event makes only moves it may make, whether the kernel
returns to a process or stops. -/
theorem step_moved (cfg : Config) (e : Event) (hs : Sound s) (hcur : s.procs.current = some p) :
    KMoved (fun l => e.Allows p l) s.table (step cfg s e) := by
  cases e with
  | clock context =>
      obtain ⟨hcur', htable, -⟩ := isrSave_running context hs.core hcur
      have hmoved := isrClock_moved cfg (s := s.isrSave context) (p := p)
        (by rw [htable]; exact hs.core) (by rw [htable]; exact hs.no_requests) hcur'
      rwa [htable] at hmoved
  | _ => exact event_moved cfg hs.core hcur (by simp)

/-- A step that returns, as moves. -/
lemma step_moves (hs : Sound s) (hcur : s.procs.current = some p) (h : step cfg s e = .ok s') :
    Moves (fun l => e.Allows p l) s.table s'.table := by
  have hmoved := step_moved cfg e hs hcur
  rw [h] at hmoved
  exact hmoved.1

/-- Every step keeps a state sound. -/
theorem step_sound (hs : Sound s) (h : step cfg s e = .ok s') : Sound s' := by
  obtain ⟨p, hcur⟩ := hs.exists_cur
  have hmoved := step_moved cfg e hs hcur
  rw [h] at hmoved
  have hms := step_moves hs hcur h
  refine ⟨hms.core hs.core, hmoved.2, ?_⟩
  exact hms.invariant hs.core (I := fun t => t.requests = noRequests) hs.no_requests
    fun l t t' _ _ hm hI => hm.requests_eq.trans hI

end Steps

end Sp2
