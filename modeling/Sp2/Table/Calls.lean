import Sp2.Kernel.Interrupts
import Sp2.Table.Refine

/-!
The process calls and the interrupts move the process table.

* `Moved P t r`: the result `r` of a kernel function, whether it returns or stops, comes
  from the table `t` by moves whose labels satisfy `P`.
* `spawn_cases`, `sleep_cases`, `blockReading_cases`, `exit_cases`, `kill_cases`: each
  process call as one or two moves and a dispatch.
* `wakeLoop_spec`, `expireQuantum_cases`, `wakeReader_spec`: the loops and branches of the
  interrupts.
-/

namespace Sp2

open ProcTable Keyed

/-- The stops that show a fault of the process modules. -/
def Halt.ofProcess : Halt → Bool
  | .panic .nonReadyInDispatch => true
  | .panic .nullPcbInDispatch => true
  | .panic .sleepInsert => true
  | .panic .readBlock => true
  | .panic .serialWakeup => true
  | .panic .nullCurrent => true
  | _ => false

namespace Procs

variable {s : Procs} {p c x : PcbId} {k : StackId} {P : Label → Prop} {t : ProcTable}

/-- How a kernel function stops, having made moves that satisfy `P` from the table `t`: in
`_dispatch`, which has found the ready queues empty; for want of a node for the running
process; or for a reason outside the process modules. -/
inductive Stops (P : Label → Prop) (t : ProcTable) : Halt → Procs → Prop
  | empty {s : Procs} (moves : Moves P t (s.table none))
      (is_empty : ∀ l, (s.table none).queue (.ready l) = []) :
      Stops P t (.panic .nullPcbInDispatch) s
  | full (t' : ProcTable) {halt : Halt} {s : Procs} (moves : Moves P t t') (runs : t'.cur ≠ none)
      (no_node : t'.avail = 0) (is_panic : halt = .panic .sleepInsert ∨ halt = .panic .readBlock) :
      Stops P t halt s
  | outside {halt : Halt} {s : Procs} {cur : Option PcbId} (moves : Moves P t (s.table cur))
      (is_outside : halt.ofProcess = false) : Stops P t halt s

/-- What a kernel function makes of a table, its allowed moves being `P`: if it returns,
some process runs. -/
def Moved (P : Label → Prop) (t : ProcTable) : Res Procs → Prop
  | .ok s => Moves P t (s.table s.current) ∧ s.current ≠ none
  | .error (halt, s) => Stops P t halt s

lemma Stops.of_moves {Q : Label → Prop} {t' : ProcTable} {halt : Halt} (h : Stops Q t' halt s)
    (hms : Moves P t t') (hQ : ∀ l, Q l → P l) : Stops P t halt s := by
  cases h with
  | empty moves is_empty => exact .empty (hms.trans (moves.mono hQ)) is_empty
  | full u moves runs no_node is_panic =>
      exact .full u (hms.trans (moves.mono hQ)) runs no_node is_panic
  | outside moves is_outside => exact .outside (hms.trans (moves.mono hQ)) is_outside

lemma Moved.of_moves {Q : Label → Prop} {t' : ProcTable} {r : Res Procs} (h : Moved Q t' r)
    (hms : Moves P t t') (hQ : ∀ l, Q l → P l) : Moved P t r := by
  cases r with
  | ok s => exact ⟨hms.trans (h.1.mono hQ), h.2⟩
  | error e => exact Stops.of_moves h hms hQ

lemma dispatch_moved (hc : Core t) (h : Moves P t (s.table none))
    (hP : ∀ l, OfDispatch l → P l) : Moved P t s.dispatch := by
  rcases dispatch_spec (Moves.core h hc) with
    ⟨s', q, heq, hcur, -, hms⟩ | ⟨s', heq, hms, hempty⟩
  · rw [heq, Moved, hcur]
    exact ⟨h.trans (hms.mono hP), by simp⟩
  · rw [heq]
    exact .empty (h.trans (hms.mono fun l hl => hP l (OfReap.ofDispatch l hl))) hempty

/-! ### Scheduling is a move -/

/-- `_schedule( _current )` takes the running process to its ready queue. -/
lemma schedule_requeue (h : (s.pcbs p).level.toNat < mlqLevels) :
    Move (.requeue .cur p) (s.table (some p)) ((s.schedule p).2.table none) := by
  rw [table_schedule h]
  exact Move.requeue (t := s.table (some p)) .cur ⟨_, h⟩ rfl (Or.inl rfl) rfl

/-- A sleeper or a reader that is removed and scheduled goes to its ready queue. -/
lemma remove_requeue {q : PcbQueue} {cur : Option PcbId}
    (hp : (s.table cur).At p (.queue q)) (hq : q = .sleeping ∨ q = .reading)
    (h : (s.pcbs p).level.toNat < mlqLevels) :
    Move (.requeue (.queue q) p) (s.table cur)
      (((s.qRemove (.pcbs q)).2.schedule p).2.table cur) := by
  have h' : ((s.qRemove (.pcbs q)).2.pcbs p).level.toNat < mlqLevels := h
  rw [table_schedule h', table_qRemove]
  exact Move.requeue (t := s.table cur) (.queue q) ⟨_, h⟩ hp
    (Or.inr (hq.imp (congrArg _) (congrArg _))) rfl

/-! ### Spawning -/

section Spawning

variable {fcn : UInt32} {level : UInt8}

lemma pcbAlloc_none (h : (s.table none).ids .freePcbs = []) :
    ∃ s', s.pcbAlloc = (none, s') ∧ Keeps s s' ∧ s'.current = s.current
      ∧ ∀ cur, s'.table cur = s.table cur := by
  have hfst : (s.qRemove (.pcbs .freePcbs)).1 = none := by
    rw [qRemove_fst none, h]
    rfl
  refine ⟨(s.qRemove (.pcbs .freePcbs)).2, ?_, keeps_qRemove, rfl, fun cur => ?_⟩
  · rw [pcbAlloc, ← Prod.mk.eta (p := s.qRemove (.pcbs .freePcbs)), hfst]
  · have hnil : (s.table cur).queue .freePcbs = [] := List.map_eq_nil_iff.mp h
    rw [table_qRemove]
    ext1
    case queue =>
      change Function.update _ _ _ = _
      rw [hnil, List.tail_nil, ← hnil, Function.update_eq_self]
    case avail => simp [pop, hnil]
    all_goals rfl

lemma pcbAlloc_some (h : (s.table none).At c (.queue .freePcbs)) :
    ∃ s', s.pcbAlloc = (some c, s') ∧ Keeps s s' ∧ s'.current = s.current
      ∧ ∀ cur, s'.table cur = ((s.table cur).pop .freePcbs).setStatus c .new := by
  have hfst : (s.qRemove (.pcbs .freePcbs)).1 = some c := (qRemove_fst none).trans h
  refine ⟨(s.qRemove (.pcbs .freePcbs)).2.setPcb c ({ · with status := .new }), ?_,
    keeps_qRemove.trans (keeps_setPcb rfl rfl rfl rfl), rfl, fun cur => ?_⟩
  · rw [pcbAlloc, ← Prod.mk.eta (p := s.qRemove (.pcbs .freePcbs)), hfst]
  · rw [table_setPcb, table_qRemove]
    rfl

/-- Without a free PCB `_spawn` returns `-1` and changes no place. -/
lemma spawn_noPcb (p : PcbId) (fcn : UInt32) (level : UInt8)
    (h : (s.table none).ids .freePcbs = []) :
    ∃ s', s.spawn p fcn level = .ok (s'.setEax p minusOne) ∧ Keeps s s'
      ∧ s'.current = s.current ∧ ∀ cur, s'.table cur = s.table cur := by
  obtain ⟨s', halloc, hkeeps, hcur, htable⟩ := pcbAlloc_none h
  exact ⟨s', by rw [spawn, halloc], hkeeps, hcur, htable⟩

/-- Without a free stack `_spawn` returns `-1` and puts the PCB back into the pool. -/
lemma spawn_noStack (p : PcbId) (fcn : UInt32) (level : UInt8)
    (h : (s.table none).At c (.queue .freePcbs))
    (hk : (s.table none).stackIds = []) :
    ∃ s', s.spawn p fcn level = .ok (s'.setEax p minusOne) ∧ Keeps s s'
      ∧ s'.current = s.current ∧ ∀ cur, Move (.bounce c) (s.table cur) (s'.table cur) := by
  obtain ⟨s₁, halloc, hkeeps, hcur, htable⟩ := pcbAlloc_some h
  have hstack : s₁.stackAlloc = (none, s₁.stackAlloc.2) := by
    refine Prod.ext ?_ rfl
    rw [stackAlloc_fst none, htable]
    change (s.table none).stackIds.head? = none
    rw [hk]
    rfl
  refine ⟨(s₁.stackAlloc.2.pcbDealloc c).2, ?_, ?_, hcur, fun cur => ?_⟩
  · rw [spawn, halloc]
    simp only
    rw [hstack]
  · exact ((hkeeps.trans (keeps_qRemove (q := .freeStacks))).trans
      (keeps_setPcb rfl rfl rfl rfl)).trans keeps_qInsert
  · have hnil : (s.table cur).freeStacks = [] := List.map_eq_nil_iff.mp hk
    have hsame : (((s.table cur).pop .freePcbs).setStatus c .new).popStack.setStatus c .free
        = ((s.table cur).take (.queue .freePcbs)).setStatus c .free := by
      ext1
      case proc => simp
      case freeStacks => simp [popStack, take, hnil]
      case avail => simp [popStack, take, hnil]
      all_goals rfl
    rw [table_pcbDealloc, table_stackAlloc, htable, hsame]
    exact Move.bounce (t := s.table cur) h

/-- Both pools have an entry: the first of each is taken, and the new process filled in. -/
lemma alloc_make (fcn : UInt32) (level : UInt8) (h : (s.table none).At c (.queue .freePcbs))
    (hk : (s.table none).stackIds.head? = some k) :
    ∃ s₁ s₂, s.pcbAlloc = (some c, s₁) ∧ s₁.stackAlloc = (some k, s₂) ∧ Keeps s s₂
      ∧ s₂.current = s.current
      ∧ ∀ cur, (s₂.makeProc c k fcn level).2.table cur = (s.table cur).make c k .free level := by
  obtain ⟨s₁, halloc, hkeeps, hcur, htable⟩ := pcbAlloc_some h
  have hstack : s₁.stackAlloc = (some k, s₁.stackAlloc.2) := by
    refine Prod.ext ?_ rfl
    rw [stackAlloc_fst none, htable]
    exact hk
  refine ⟨s₁, s₁.stackAlloc.2, halloc, hstack, hkeeps.trans keeps_qRemove, hcur, fun cur => ?_⟩
  set s₂ := s₁.stackAlloc.2 with hs₂
  have hnext : s₂.nextPid = s.nextPid := hkeeps.nextPid
  have hmake : (s₂.makeProc c k fcn level).2.table cur
      = { ((s₂.table cur).setProc c (newProc .free level k s.nextPid)) with
        nextPid := s.nextPid + 1 } := by
    rw [← hnext]
    ext1
    case proc =>
      funext x
      by_cases hx : x = c
      · subst hx
        simp [makeProc, setPcb, Pcb.proc, Pcb.zero, newProc]
      · simp [makeProc, setPcb, hx]
    all_goals rfl
  rw [hmake, hs₂, table_stackAlloc, htable]
  ext1
  case proc => simp [make]
  all_goals rfl

/-- A new process that is made ready. -/
lemma make_setStatus {t : ProcTable} {status : ProcStatus} :
    (t.make c k .free level).setStatus c status = t.make c k status level := by
  ext1
  case proc => simp [make, newProc]
  all_goals rfl

/-- Scheduling a new process whose level is good makes it ready. -/
lemma schedule_make {s' : Procs} {t : ProcTable} {cur : Option PcbId}
    (htable : s'.table cur = t.make c k .free level) (hl : level.toNat < mlqLevels) :
    (s'.schedule c).2.table cur = (t.make c k .ready level).push (.ready ⟨level.toNat, hl⟩) c := by
  have hlevel : (s'.pcbs c).level = level := by
    have h := congrArg (fun t => (t.proc c).level) htable
    simpa [make, newProc, Pcb.proc] using h
  rw [table_schedule (by rw [hlevel]; exact hl), htable, make_setStatus]
  simp only [hlevel]

/-- The label of the making of a process with a level. -/
def makeLabel (level : UInt8) (c : PcbId) : Label :=
  if level.toNat < mlqLevels then .create c else .leak c

/-- With a free PCB and a free stack `_spawn` makes a process, schedules it, unless the
level is bad, and its parent, and dispatches. -/
lemma spawn_make (fcn : UInt32) (level : UInt8) (hc : Core (s.table (some p)))
    (h : (s.table none).At c (.queue .freePcbs))
    (hk : (s.table none).stackIds.head? = some k) :
    ∃ (s' : Procs) (t : ProcTable), s.spawn p fcn level = s'.dispatch
      ∧ Move (makeLabel level c) (s.table (some p)) t ∧ Move (.requeue .cur p) t (s'.table none)
      ∧ t.proc = Function.update (s.table none).proc c (newProc
        (if level.toNat < mlqLevels then .ready else .free) level k s.nextPid)
      ∧ (s'.pcbs p).context = (s.pcbs p).context.map ({ · with eax := s.nextPid.toUInt32 }) := by
  obtain ⟨s₁, s₂, halloc, hstack, hkeeps, -, ht₃⟩ :=
    alloc_make fcn level h hk
  have hne : p ≠ c := by
    rintro rfl
    exact notMem_of_cur (hc.occ_le p) rfl (At.mem h)
  have hpid : (s₂.makeProc c k fcn level).1 = s.nextPid := by
    simp [makeProc, setPcb, hkeeps.nextPid]
  set s₃ := (s₂.makeProc c k fcn level).2 with hs₃
  set s₄ := (s₃.setEax p s.nextPid.toUInt32).setPcb c
    ({ · with ppid := ((s₃.setEax p s.nextPid.toUInt32).pcbs p).pid }) with hs₄
  have heq : s.spawn p fcn level = ((s₄.schedule c).2.schedule p).2.dispatch := by
    rw [spawn, halloc]
    simp only
    rw [hstack]
    simp only
    rw [hpid]
  have ht₄ : ∀ cur, s₄.table cur = (s.table cur).make c k .free level := fun cur => by
    rw [hs₄, table_setPcb_eq rfl, table_setEax, ht₃]
  have hlevelp : (s₄.pcbs p).level = (s.pcbs p).level := by
    have h' := congrArg (fun t => (t.proc p).level) (ht₄ none)
    simpa [make, hne, Pcb.proc] using h'
  have hcontext : (s₄.pcbs p).context
      = (s.pcbs p).context.map ({ · with eax := s.nextPid.toUInt32 }) := by
    rw [← hkeeps.context p]
    simp [hs₄, hs₃, setEax, setPcb, makeProc, hne]
  have hbad : mlqLevels ≤ level.toNat → s₄.schedule c = (.badLevel, s₄) := fun hl => by
    refine schedule_badLevel ?_
    have h' := congrArg (fun t => (t.proc c).level) (ht₄ none)
    have hlevel : (s₄.pcbs c).level = level := by simpa [make, newProc, Pcb.proc] using h'
    rwa [hlevel]
  refine ⟨_, (s₄.schedule c).2.table (some p), heq, ?_, ?_, ?_, ?_⟩
  · rw [makeLabel]
    split_ifs with hl
    · rw [schedule_make (ht₄ _) hl]
      exact Move.create (t := s.table (some p)) level ⟨_, hl⟩ h hk rfl
    · rw [hbad (by omega), ht₄]
      exact Move.leak (t := s.table (some p)) h hk (by omega)
  · refine schedule_requeue ?_
    rw [keeps_schedule.level, hlevelp]
    exact (hc.running p rfl).2
  · by_cases hl : level.toNat < mlqLevels
    · rw [schedule_make (ht₄ _) hl, if_pos hl, push_proc]
      rfl
    · rw [hbad (by omega), ht₄, if_neg hl]
      rfl
  · rw [keeps_schedule.context, keeps_schedule.context, hcontext]

end Spawning

/-! ### Sleeping, waiting, exiting, killing -/

section Calls

variable {num pid : UInt16} {wakeup : UInt32}

lemma table_setPcb_qInsert {f : Pcb → Pcb} {q : PcbQueue} {cur : Option PcbId} :
    ((s.setPcb p f).qInsert (.pcbs q) p).2.table cur
      = ((s.table cur).setProc p (f (s.pcbs p)).proc).push q p := by
  rw [table_qInsert, table_setPcb]

/-- A sleep of zero seconds only yields. -/
lemma sleep_zero : s.sleep p 0 wakeup = (s.schedule p).2.dispatch := by
  simp [sleep]

/-- With a free node a sleep parks the process and dispatches. -/
lemma sleep_park (p : PcbId) (wakeup : UInt32) (hnum : num ≠ 0) (hfree : s.queues.avail ≠ 0) :
    ∃ s', s.sleep p num wakeup = s'.dispatch ∧ Keeps s s'
      ∧ Move (.park p wakeup) (s.table (some p)) (s'.table none) := by
  set s₁ := s.setPcb p ({ · with wakeup := wakeup, status := .sleeping }) with hs₁
  refine ⟨(s₁.qInsert (.pcbs .sleeping) p).2, ?_, (keeps_setPcb rfl rfl rfl rfl).trans
    keeps_qInsert, ?_⟩
  · have hfst : (s₁.qInsert (.pcbs .sleeping) p).1 = .success := by
      rw [qInsert_fst]
      exact if_neg hfree
    rw [sleep, if_pos hnum]
    simp only [← hs₁, hfst, ne_eq, not_true_eq_false, if_false]
  · rw [hs₁, table_setPcb_qInsert]
    exact Move.park (t := s.table (some p)) rfl hfree

/-- Without a free node a sleep ends in a panic. -/
lemma sleep_panic (p : PcbId) (wakeup : UInt32) (hnum : num ≠ 0) (hfree : s.queues.avail = 0) :
    ∃ s', s.sleep p num wakeup = .error (.panic .sleepInsert, s') := by
  set s₁ := s.setPcb p ({ · with wakeup := wakeup, status := .sleeping }) with hs₁
  refine ⟨(s₁.qInsert (.pcbs .sleeping) p).2, ?_⟩
  have hfst : (s₁.qInsert (.pcbs .sleeping) p).1 = .allocFail := by
    rw [qInsert_fst]
    exact if_pos hfree
  rw [sleep, if_pos hnum]
  simp only [← hs₁, hfst]
  rfl

/-- With a free node a reader that finds no character waits, and the kernel dispatches. -/
lemma blockReading_block (hfree : s.queues.avail ≠ 0) :
    ∃ s', s.blockReading p = s'.dispatch ∧ Keeps s s'
      ∧ Move (.block p) (s.table (some p)) (s'.table none) := by
  set s₁ := s.setPcb p ({ · with status := .blocked }) with hs₁
  refine ⟨(s₁.qInsert (.pcbs .reading) p).2, ?_, (keeps_setPcb rfl rfl rfl rfl).trans
    keeps_qInsert, ?_⟩
  · have hfst : (s₁.qInsert (.pcbs .reading) p).1 = .success := by
      rw [qInsert_fst]
      exact if_neg hfree
    rw [blockReading]
    simp only [← hs₁, hfst, ne_eq, not_true_eq_false, if_false]
  · rw [hs₁, table_setPcb_qInsert]
    exact Move.block (t := s.table (some p)) rfl hfree

/-- Without a free node such a reader ends in a panic. -/
lemma blockReading_panic (hfree : s.queues.avail = 0) :
    ∃ s', s.blockReading p = .error (.panic .readBlock, s') := by
  set s₁ := s.setPcb p ({ · with status := .blocked }) with hs₁
  refine ⟨(s₁.qInsert (.pcbs .reading) p).2, ?_⟩
  have hfst : (s₁.qInsert (.pcbs .reading) p).1 = .allocFail := by
    rw [qInsert_fst]
    exact if_pos hfree
  rw [blockReading]
  simp only [← hs₁, hfst]
  rfl

/-- `_cleanup( _current )` takes the running process apart. -/
lemma cleanup_reap (hc : Core (s.table (some p))) :
    Move (.reap .cur p) (s.table (some p)) ((s.cleanup (some p)).table none) := by
  obtain ⟨k, hk, -⟩ := hc.stack_owned p (hc.used_of_at .cur rfl (by simp))
  rw [table_cleanup hk]
  exact Move.reap (t := s.table (some p)) .cur rfl (Or.inl rfl) hk

lemma findPid_some (h : s.findPid pid = some x) :
    (s.pcbs x).pid = pid ∧ (s.pcbs x).status.isActive = true := by
  have := List.find?_some h
  simpa using this

/-- An active process is in use. -/
lemma ne_free_of_isActive {status : ProcStatus} (h : status.isActive = true) :
    status ≠ .free := by
  rintro rfl
  exact absurd h (by decide)

section Eax

variable {v : UInt32}

@[simp] lemma setEax_pid : ((s.setEax p v).pcbs x).pid = (s.pcbs x).pid :=
  congrArg (fun t => (t.proc x).pid) (table_setEax (s := s) none)

@[simp] lemma setEax_status : ((s.setEax p v).pcbs x).status = (s.pcbs x).status :=
  congrArg (fun t => (t.proc x).status) (table_setEax (s := s) none)

@[simp] lemma setEax_current : (s.setEax p v).current = s.current := rfl

@[simp] lemma setEax_queues : (s.setEax p v).queues = s.queues := rfl

lemma setEax_context : ((s.setEax p v).pcbs x).context
    = if x = p then (s.pcbs x).context.map ({ · with eax := v }) else (s.pcbs x).context := by
  by_cases h : x = p
  · subst h
    simp [setEax, setPcb]
  · simp [setEax, setPcb, h]

@[simp] lemma findPid_setEax : (s.setEax p v).findPid pid = s.findPid pid := by
  simp only [findPid, setEax_pid, setEax_status]

end Eax

/-- The idle process and a PID that no active process has are refused. -/
lemma kill_refused (h : pid = 0 ∨ pid ≠ (s.pcbs p).pid ∧ s.findPid pid = none) :
    s.kill p pid = .ok (s.setEax p minusOne) := by
  by_cases h0 : pid = 0
  · simp [kill, h0]
  · obtain ⟨hp, hx⟩ := h.resolve_left h0
    simp [kill, h0, hp, hx]

/-- A process that kills itself exits. -/
lemma kill_self (h : pid ≠ 0) (hp : pid = (s.pcbs p).pid) :
    s.kill p pid = (s.setEax p minusOne).exit p := by
  subst hp
  simp [kill, h]

/-- Another active process is marked where it is, and its state returned. -/
lemma kill_other (h : pid ≠ 0) (hp : pid ≠ (s.pcbs p).pid) (hx : s.findPid pid = some x) :
    ∃ s', s.kill p pid = .ok s' ∧ s'.current = s.current
      ∧ Move (.kill x) (s.table (some p)) (s'.table (some p))
      ∧ (s'.pcbs p).context
        = (s.pcbs p).context.map ({ · with eax := (s.pcbs x).status.code }) := by
  obtain ⟨hpid, hactive⟩ := findPid_some hx
  have hne : p ≠ x := by
    rintro rfl
    exact hp hpid.symm
  refine ⟨((s.setEax p minusOne).setEax p (s.pcbs x).status.code).setPcb x
    ({ · with status := .zombie }), by simp [kill, h, hp, hx], rfl, ?_, ?_⟩
  · have htable : (((s.setEax p minusOne).setEax p (s.pcbs x).status.code).setPcb x
        ({ · with status := .zombie })).table (some p)
        = (s.table (some p)).setStatus x .zombie := by
      rw [← table_setEax (s := s) (p := p) (v := minusOne) (some p),
        ← table_setEax (s := s.setEax p minusOne) (p := p) (v := (s.pcbs x).status.code) (some p),
        table_setPcb]
      rfl
    rw [htable]
    refine Move.kill (t := s.table (some p)) (ne_free_of_isActive hactive) ?_ ?_
    · rw [table_cur, Ne, Option.some.injEq]
      exact hne
    · rw [table_proc]
      exact fun hzero => h (hpid.symm.trans hzero)
  · simp only [setPcb, Function.update_of_ne hne]
    rw [setEax_context, if_pos rfl, setEax_context, if_pos rfl, Option.map_map]
    rfl

/-- One move and a dispatch. -/
lemma moved_of_move {s' : Procs} {l : Label} (hc : Core t) (hm : Move l t (s'.table none))
    (hl : P l) (hP : ∀ l, OfDispatch l → P l) : Moved P t s'.dispatch :=
  dispatch_moved hc (Moves.single hm hl) hP

lemma spawn_moved {fcn : UInt32} {level : UInt8} (hc : Core (s.table (some p)))
    (hcur : s.current = some p) :
    Moved (fun l => (∃ c, l = makeLabel level c ∨ l = .bounce c) ∨ l = .requeue .cur p
      ∨ OfDispatch l) (s.table (some p)) (s.spawn p fcn level) := by
  cases hids : ((s.table none).ids .freePcbs).head? with
  | none =>
      obtain ⟨s', heq, -, hcur', htable⟩ :=
        spawn_noPcb (s := s) p fcn level
          (List.head?_eq_none_iff.mp hids)
      rw [heq, Moved, setEax_current, table_setEax, htable, hcur', hcur]
      exact ⟨Moves.refl _, by simp⟩
  | some c =>
      cases hstack : (s.table none).stackIds.head? with
      | none =>
          obtain ⟨s', heq, -, hcur', hmove⟩ :=
            spawn_noStack (s := s) p fcn level hids
              (List.head?_eq_none_iff.mp hstack)
          rw [heq, Moved, setEax_current, table_setEax, hcur', hcur]
          exact ⟨Moves.single (hmove _) (Or.inl ⟨c, Or.inr rfl⟩), by simp⟩
      | some k =>
          obtain ⟨s', t, heq, hmake, hrequeue, -⟩ :=
            spawn_make fcn level hc hids hstack
          rw [heq]
          exact dispatch_moved hc (Moves.head hmake (Or.inl ⟨c, Or.inl rfl⟩)
            (Moves.single hrequeue (Or.inr (Or.inl rfl)))) fun l hl => Or.inr (Or.inr hl)

lemma sleep_moved (hc : Core (s.table (some p))) :
    Moved (fun l => l = .requeue .cur p ∨ (∃ wakeup, l = .park p wakeup) ∨ OfDispatch l)
      (s.table (some p)) (s.sleep p num wakeup) := by
  by_cases hnum : num = 0
  · subst hnum
    rw [sleep_zero]
    exact moved_of_move hc (schedule_requeue (hc.running p rfl).2) (Or.inl rfl)
      fun l hl => Or.inr (Or.inr hl)
  · by_cases hfree : s.queues.avail = 0
    · obtain ⟨s', heq⟩ := sleep_panic p wakeup hnum hfree
      rw [heq]
      exact .full (s.table (some p)) (Moves.refl _) (by simp) hfree (Or.inl rfl)
    · obtain ⟨s', heq, -, hmove⟩ := sleep_park p wakeup hnum hfree
      rw [heq]
      exact moved_of_move hc hmove (Or.inr (Or.inl ⟨wakeup, rfl⟩)) fun l hl => Or.inr (Or.inr hl)

lemma blockReading_moved (hc : Core (s.table (some p))) :
    Moved (fun l => l = .block p ∨ OfDispatch l) (s.table (some p)) (s.blockReading p) := by
  by_cases hfree : s.queues.avail = 0
  · obtain ⟨s', heq⟩ := blockReading_panic (p := p) hfree
    rw [heq]
    exact .full (s.table (some p)) (Moves.refl _) (by simp) hfree (Or.inr rfl)
  · obtain ⟨s', heq, -, hmove⟩ := blockReading_block (p := p) hfree
    rw [heq]
    exact moved_of_move hc hmove (Or.inl rfl) fun l hl => Or.inr hl

lemma exit_moved (hc : Core (s.table (some p))) :
    Moved (fun l => l = .reap .cur p ∨ OfDispatch l) (s.table (some p)) (s.exit p) :=
  moved_of_move hc (cleanup_reap hc) (Or.inl rfl) fun _ hl => Or.inr hl

/-- A kill makes no other move of its kind than that of the process it finds. -/
lemma kill_moved (hc : Core (s.table (some p))) (hcur : s.current = some p) :
    Moved (fun l => l = .reap .cur p ∨ (∃ x, l = .kill x ∧ pid ≠ 0 ∧ pid ≠ (s.pcbs p).pid
      ∧ s.findPid pid = some x) ∨ OfDispatch l) (s.table (some p)) (s.kill p pid) := by
  by_cases hrefused : pid = 0 ∨ pid ≠ (s.pcbs p).pid ∧ s.findPid pid = none
  · rw [kill_refused hrefused, Moved, setEax_current, table_setEax, hcur]
    exact ⟨Moves.refl _, by simp⟩
  · obtain ⟨h0, hrest⟩ := not_or.mp hrefused
    by_cases hself : pid = (s.pcbs p).pid
    · have hexit := exit_moved (s := s.setEax p minusOne) (p := p) (by rwa [table_setEax])
      rw [kill_self h0 hself]
      rw [table_setEax] at hexit
      exact hexit.of_moves (Moves.refl _) fun l hl => hl.imp_right Or.inr
    · obtain ⟨x, hx⟩ := Option.ne_none_iff_exists'.mp fun h => hrest ⟨hself, h⟩
      obtain ⟨s', heq, hcur', hmove, -⟩ := kill_other h0 hself hx
      rw [heq, Moved, hcur', hcur]
      exact ⟨Moves.single hmove (Or.inr (Or.inl ⟨x, rfl, h0, hself, hx⟩)), by simp⟩

end Calls

/-! ### The interrupts -/

section Interrupts

/-- The moves of the wake-up loop. -/
def OfWake : Label → Prop
  | .requeue (.queue .sleeping) _ => True
  | _ => False

/-- What a round of the loop does to the queues other than `_sleeping`, which has freed a node. -/
lemma queue_wake {t : ProcTable} {p : PcbId} {q : PcbQueue} {v : Proc} (level : Fin mlqLevels)
    (hp : t.At p (.queue .sleeping)) (hlevel : (t.proc p).level.toNat = level)
    (hq : q ≠ .sleeping) :
    (((t.pop .sleeping).setProc p v).push (.ready level) p).queue q
      = t.queue q ++ if q.isReady (t.proc p).level then [(0, p)] else [] := by
  have havail : (t.pop .sleeping).avail ≠ 0 := by
    have h := take_avail hp
    rw [if_neg (by simp)] at h
    exact h ▸ Nat.succ_ne_zero _
  have hpop : ((t.pop .sleeping).setProc p v).queue q = t.queue q := by
    rw [setProc_queue, pop]
    exact Function.update_of_ne hq _ _
  have hpush : (((t.pop .sleeping).setProc p v).push (.ready level) p).queue = Function.update
      ((t.pop .sleeping).setProc p v).queue (.ready level)
      (((t.pop .sleeping).setProc p v).queue (.ready level) ++ [(0, p)]) := by
    rw [push, if_neg (by simpa using havail)]
    rfl
  rw [hpush]
  by_cases hready : q = .ready level
  · subst hready
    rw [if_pos (by simp [PcbQueue.isReady, hlevel]), ← hpop]
    exact Function.update_self ..
  · have hnot : ¬ q.isReady (t.proc p).level = true := by
      cases q with
      | ready l =>
          rw [PcbQueue.isReady, hlevel, beq_iff_eq]
          exact fun h => hready (congrArg _ (Fin.ext h.symm))
      | _ => simp [PcbQueue.isReady]
    rw [if_neg hnot, List.append_nil, ← hpop]
    exact Function.update_of_ne hready _ _

/-- The loop looks at the first sleeper. -/
lemma qRemoveIfLe_sleeping (cur : Option PcbId) (time : UInt32) (s : Procs) :
    s.qRemoveIfLe (.pcbs .sleeping) time
      = if ∃ e ∈ ((s.table cur).queue .sleeping).head?, e.1 ≤ time
        then s.qRemove (.pcbs .sleeping) else (none, s) := by
  rw [qRemoveIfLe, s.queues.removeIfLe_eq (.pcbs .sleeping) time]
  by_cases hdue : ∃ e ∈ (s.queues.items (.pcbs .sleeping)).head?, e.1 ≤ time
  · rw [if_pos hdue, if_pos (by exact hdue)]
    rfl
  · rw [if_neg hdue, if_neg (by exact hdue)]

/-- If the first sleeper is not due the loop ends at once. -/
lemma wakeLoop_rest (time : UInt32) (cur : Option PcbId) (fuel : ℕ)
    (h : ∀ e ∈ ((s.table cur).queue .sleeping).head?, ¬ e.1 ≤ time) :
    wakeLoop (fuel + 1) time s = .ok s := by
  rw [wakeLoop, qRemoveIfLe_sleeping cur, if_neg fun ⟨e, he, hle⟩ => h e he hle]

/-- The loop of `_isr_clock` ends, having taken every sleeper whose wakeup time has come to
its ready queue and left the others. -/
lemma wakeLoop_spec {cur : Option PcbId} (time : UInt32) : ∀ (fuel : ℕ) (s : Procs),
    Core (s.table cur) → ((s.table cur).queue .sleeping).length < fuel →
    ∃ s', wakeLoop fuel time s = .ok s' ∧ Keeps s s' ∧ s'.current = s.current
      ∧ Moves OfWake (s.table cur) (s'.table cur)
      ∧ (s'.table cur).queue .sleeping = later time ((s.table cur).queue .sleeping)
      ∧ (∀ e ∈ due time ((s.table cur).queue .sleeping), InReady (s'.table cur) e.2)
      ∧ ∀ q ≠ .sleeping, (s'.table cur).queue q = (s.table cur).queue q
        ++ ((due time ((s.table cur).queue .sleeping)).filter
          fun e => q.isReady (s.pcbs e.2).level).map fun e => (0, e.2)
  | 0, _, _, hfuel => absurd hfuel (Nat.not_lt_zero _)
  | fuel + 1, s, hc, hfuel => by
      cases hl : (s.table cur).queue .sleeping with
      | nil =>
          refine ⟨s, wakeLoop_rest time cur fuel (by simp [hl]), Keeps.refl s, rfl, Moves.refl _,
            by rw [hl]; rfl, ?_, fun q _ => ?_⟩
          · simp
          · simp
      | cons e r =>
          by_cases hdue : e.1 ≤ time
          · -- the first sleeper is due
            have hrem := qRemoveIfLe_sleeping cur time s
            rw [hl, if_pos (by simpa using hdue)] at hrem
            have hat : (s.table cur).At e.2 (.queue .sleeping) := by simp [At, ids, hl]
            have hlevel := hc.level_lt (At.mem hat) (by simp)
            have hfst : (s.qRemove (.pcbs .sleeping)).1 = some e.2 := (qRemove_fst cur).trans hat
            set s₁ := ((s.qRemove (.pcbs .sleeping)).2.schedule e.2).2 with hs₁
            have heq : wakeLoop (fuel + 1) time s = wakeLoop fuel time s₁ := by
              rw [wakeLoop, hrem, ← Prod.mk.eta (p := s.qRemove (.pcbs .sleeping)), hfst]
            have hmove : Move (.requeue (.queue .sleeping) e.2) (s.table cur) (s₁.table cur) :=
              remove_requeue hat (Or.inl rfl) hlevel
            have hlevel' : ((s.qRemove (.pcbs .sleeping)).2.pcbs e.2).level.toNat < mlqLevels :=
              hlevel
            have hqueue : (s₁.table cur).queue .sleeping = r := by
              rw [hs₁, table_schedule hlevel', table_qRemove, push]
              split_ifs <;> simp [pop, hl]
            have hothers : ∀ q ≠ .sleeping, (s₁.table cur).queue q = (s.table cur).queue q
                ++ if q.isReady (s.pcbs e.2).level then [(0, e.2)] else [] := by
              intro q hq
              rw [hs₁, table_schedule hlevel', table_qRemove]
              exact queue_wake (t := s.table cur) ⟨_, hlevel⟩ hat rfl hq
            have hsame : ∀ x, (s₁.pcbs x).level = (s.pcbs x).level :=
              (keeps_qRemove.trans keeps_schedule).level
            obtain ⟨s', hres, hkeeps, hcur, hms, hlater, hready, hrest⟩ :=
              wakeLoop_spec time fuel s₁ (hmove.core hc) (by
                rw [hl, List.length_cons] at hfuel
                rw [hqueue]
                omega)
            refine ⟨s', heq.trans hres, (keeps_qRemove.trans keeps_schedule).trans hkeeps,
              ?_, Moves.head hmove trivial hms, ?_, fun x hx => ?_, fun q hq => ?_⟩
            · rw [hcur, hs₁, schedule, dif_pos hlevel']
              rfl
            · rw [hlater, hqueue, later_cons_of_le hdue]
            · rw [due_cons_of_le hdue] at hx
              rcases List.mem_cons.mp hx with rfl | hx
              · refine Moves.invariant (I := fun t => InReady t x.2) hms (hmove.core hc)
                  hmove.inReady_requeue fun l t t' hl hc hm hI => hm.inReady hc hI ?_ ?_
                · rintro rfl
                  exact hl
                · rintro rfl
                  exact hl
              · exact hready x (by rwa [hqueue])
            · rw [hrest q hq, hothers q hq, hqueue, due_cons_of_le hdue, List.append_assoc]
              refine congrArg _ ?_
              by_cases hready : q.isReady (s.pcbs e.2).level
              · simp [hsame, hready]
              · simp [hsame, hready]
          · -- the first sleeper is not due, nor are those behind it
            refine ⟨s, wakeLoop_rest time cur fuel (by simpa [hl] using hdue), Keeps.refl s, rfl,
              Moves.refl _, ?_, ?_, fun q _ => ?_⟩
            · rw [hl, later_cons_of_not_le hdue]
            · rw [due_cons_of_not_le hdue]
              simp
            · rw [due_cons_of_not_le hdue]
              simp

/-- The last part of `_isr_clock` counts the quantum down or takes the running process to
its ready queue and dispatches. -/
lemma expireQuantum_moved (hc : Core (s.table (some p))) (hcur : s.current = some p) :
    Moved (fun l => l = .requeue .cur p ∨ OfDispatch l) (s.table (some p)) s.expireQuantum := by
  by_cases hq : (s.pcbs p).quantum = 0
  · have heq : s.expireQuantum = (s.schedule p).2.dispatch := by simp [expireQuantum, hcur, hq]
    rw [heq]
    exact moved_of_move hc (schedule_requeue (hc.running p rfl).2) (Or.inl rfl)
      fun l hl => Or.inr hl
  · have heq : s.expireQuantum
        = .ok (s.setPcb p fun x => { x with quantum := x.quantum - 1 }) := by
      simp [expireQuantum, hcur, hq]
    have htable : ∀ cur, (s.setPcb p fun x => { x with quantum := x.quantum - 1 }).table cur
        = s.table cur := fun cur => table_setPcb_eq rfl
    have hcur' : (s.setPcb p fun x => { x with quantum := x.quantum - 1 }).current = some p := hcur
    rw [heq, Moved, htable, hcur']
    exact ⟨Moves.refl _, by simp⟩

end Interrupts

end Procs

end Sp2
