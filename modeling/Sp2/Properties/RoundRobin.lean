import Sp2.Lib.Turns
import Sp2.Properties.WakeUp

/-!
Round robin with strict priority.

* `QuietTick`, `TickSafe`: a clock interrupt that wakes nobody up, and one that finds a queue node
  for a process whose quantum is used up and interrupts no insertion of a request.
* `Procs.requeued`, `Procs.Top`: the ready queues with the running process back in its own, and the
  highest-priority one among them that is not empty.
* `TakesTurns`: the processes of this queue are dispatched one after the other, for equally many
  clock interrupts each, and those of other levels are not.
* `Shows`: the kernel as processes that take turns; `Shows.next`: **a clock interrupt is one unit of
  their time**.
* `takes_turns`: this holds in every run of such clock interrupts, as long as a node is free
  whenever a quantum is used up.
* `preempted_process_lost`: without a free node the process is in no queue any more.
-/

namespace Sp2

open ProcTable Procs RoundRobin

/-! ### The statement -/

/-- The next clock interrupt wakes no sleeper up. -/
def Quiet (s : KState) : Prop :=
  ∀ p ∈ s.procs.members .sleeping, s.clock.tick.systemTime < (s.procs.pcbs p).wakeup

instance (s : KState) : Decidable (Quiet s) :=
  List.decidableBAll (fun p => s.clock.tick.systemTime < (s.procs.pcbs p).wakeup) _

/-- A clock interrupt that wakes no sleeper up. -/
def QuietTick (s : RdKernel) : RdEvent → Prop
  | .kernel (.clock _) => Quiet s.toKState
  | _ => False

instance (s : RdKernel) : (e : RdEvent) → Decidable (QuietTick s e)
  | .kernel (.clock _) => inferInstanceAs (Decidable (Quiet _))
  | .kernel (.syscall _ _) | .kernel (.sio _ _) | .kernel (.store _ _) | .kernel (.record _ _)
  | .fill _ _ | .call _ | .next => inferInstanceAs (Decidable False)

/-- The clock interrupts that the running process still has. -/
def Procs.quantumLeft (s : Procs) : ℕ := (s.current.map fun c => (s.pcbs c).quantum.toNat).getD 0

/-- If the quantum is used up a queue node is free, or the next clock interrupt frees one. -/
def HasNode (s : KState) : Prop :=
  s.procs.quantumLeft = 0 →
    s.procs.queues.avail ≠ 0 ∨ KState.FreesNode { s with clock := s.clock.tick }

instance (s : KState) : Decidable (HasNode s) := inferInstanceAs (Decidable (_ → _ ∨ _))

/-- A node is there if it is needed, and the running process is in no insertion of a request. -/
def TickSafe (s : RdKernel) : Prop := HasNode s.toKState ∧ ¬ s.Inserting

instance (s : RdKernel) : Decidable (TickSafe s) := inferInstanceAs (Decidable (_ ∧ _))

/-- The processes of a ready queue once the running process is back in its own. -/
def Procs.requeued (s : Procs) (c : PcbId) (level : Fin mlqLevels) : List PcbId :=
  s.members (.ready level) ++ if (s.pcbs c).level.toNat = level then [c] else []

/-- The highest-priority level that is occupied then. -/
structure Procs.Top (s : Procs) (c : PcbId) (level : Fin mlqLevels) : Prop where
  occupied : s.requeued c level ≠ []
  higher : ∀ l < level, s.requeued c l = []

/-- Whose turn it is, so many clock interrupts after the first dispatch. -/
def turnAt (order : List PcbId) (n : ℕ) : Option PcbId :=
  order[n / (quantumDefault.toNat + 1) % order.length]?

/-- What is to hold of the runs of quiet clock interrupts, while the process `c` runs first. -/
structure TakesTurns (cfg : Config) (P : RdKernel → Prop) (s : RdKernel) (c : PcbId) : Prop where
  top : ∃ level, s.procs.Top c level
  /-- `c` has its quantum, and then the processes of the level have their turns in their order -/
  turns : ∀ level, s.procs.Top c level → ∀ es s',
    Transition.Run (requestStep cfg) (fun s e => QuietTick s e ∧ P s) s es s' →
    s'.procs.current = if es.length ≤ s.procs.quantumLeft then some c
      else turnAt (s.procs.requeued c level) (es.length - (s.procs.quantumLeft + 1))
  /-- each has one turn in any round -/
  once : ∀ level, ∀ p ∈ s.procs.requeued c level, ∀ k, ∃! i, i < (s.procs.requeued c level).length
    ∧ (s.procs.requeued c level)[(k + i) % (s.procs.requeued c level).length]? = some p
  /-- they are processes of this level only -/
  level : ∀ level, ∀ p ∈ s.procs.requeued c level, (s.procs.pcbs p).level.toNat = level
  /-- the kernel does not stop -/
  goes_on : ∀ es s', Transition.Run (requestStep cfg) (fun s e => QuietTick s e ∧ P s) s es s' →
    ∀ e, QuietTick s' e → P s' → ∃ s'', requestStep cfg s' e = .ok s''

/-! ### One clock interrupt -/

section Steps

variable {cfg : Config} {s s' : KState} {c p : PcbId} {level : Fin mlqLevels} {context : Context}
  {t : Turns PcbId}

/-- No process has been killed that is not taken apart yet. -/
def NoZombies (s : KState) : Prop := ∀ p, (s.procs.pcbs p).status ≠ .zombie

instance (s : KState) : Decidable (NoZombies s) := Nat.decidableForallFin _

lemma quantumLeft_eq (hcur : s.procs.current = some c) :
    s.procs.quantumLeft = (s.procs.pcbs c).quantum.toNat := by
  rw [Procs.quantumLeft, hcur]
  rfl

/-- A quiet clock interrupt comes to the end of the quantum with the table as it was, but for the
pending requests. -/
lemma quiet_phases (cfg : Config) (context : Context) (hs : RdSound s)
    (hcur : s.procs.current = some c) (hquiet : Quiet s) :
    ∃ s₁ : KState, step cfg s (.clock context) = s₁.liftProcs Procs.expireQuantum
      ∧ s₁.procs.current = some c ∧ Carried s.table (s₁.procs.table (some c))
      ∧ (∀ p, (s₁.procs.pcbs p).quantum = (s.procs.pcbs p).quantum)
      ∧ s₁.procs.queues.avail = s.procs.queues.avail
        + if KState.FreesNode { s with clock := s.clock.tick } then 1 else 0 := by
  obtain ⟨hc, hblocked, hcur'⟩ := hs.save context hcur
  obtain ⟨-, htable, -⟩ := isrSave_running context hs.core hcur
  obtain ⟨ps, s₁, hwake, -, hserved, hcur₁, -, heq⟩ := isrClock_phases cfg hc hblocked hcur'
  -- nobody is woken up
  have hclock : (s.isrSave context).clock = s.clock := (isrSave_frame s context).1
  have hrest := wakeLoop_rest (s := (s.isrSave context).procs)
    (s.isrSave context).clock.tick.systemTime (some c) numQnodes fun x hx hle => by
      rw [htable] at hx
      have hmem : x ∈ s.table.queue .sleeping := List.mem_of_mem_head? hx
      have hlt := hquiet x.2 (mem_ids hmem)
      rw [← key_eq_wakeup hs.core x hmem, ← hclock] at hlt
      exact absurd hle (UInt32.not_le.mpr hlt)
  obtain rfl : (s.isrSave context).procs = ps := Except.ok.inj (hrest.symm.trans hwake)
  refine ⟨s₁, heq, hcur₁, htable ▸ hserved.carried (some c), fun p => ?_, ?_⟩
  · rw [hserved.pcbs]
    change ((s.isrSave context).procs.pcbs p).quantum = _
    rw [KState.isrSave, hcur]
    by_cases hp : p = c
    · subst hp
      simp [setPcb]
    · simp [setPcb, hp]
  · have hfrees : KState.FreesNode { s.isrSave context with clock := s.clock.tick }
        ↔ KState.FreesNode { s with clock := s.clock.tick } := by
      rw [KState.FreesNode, KState.FreesNode, isrSave_items]
    have havail : (s.isrSave context).procs.queues.avail = s.procs.queues.avail :=
      congrArg ProcTable.avail htable
    have h := hserved.avail
    rw [hclock] at h
    rw [h]
    simp only [havail, hfrees]

/-- With some of the quantum left a quiet clock interrupt only counts it down. -/
lemma quiet_counts (cfg : Config) (context : Context) (hs : RdSound s)
    (hcur : s.procs.current = some c) (hquiet : Quiet s) {left : ℕ}
    (hleft : s.procs.quantumLeft = left + 1) :
    ∃ s', step cfg s (.clock context) = .ok s' ∧ s'.procs.current = some c
      ∧ Carried s.table s'.table ∧ s'.procs.quantumLeft = left := by
  obtain ⟨s₁, heq, hcur₁, hcarried, hquantum, -⟩ := quiet_phases cfg context hs hcur hquiet
  have hq : (s₁.procs.pcbs c).quantum.toNat = left + 1 := by
    rw [hquantum, ← quantumLeft_eq hcur, hleft]
  have hne : (s₁.procs.pcbs c).quantum ≠ 0 := by
    intro hzero
    rw [hzero] at hq
    exact absurd hq (by simp)
  set ps := s₁.procs.setPcb c fun x => { x with quantum := x.quantum - 1 } with hps
  have hexpire : s₁.procs.expireQuantum = .ok ps := by simp [Procs.expireQuantum, hcur₁, hne, hps]
  have hcur' : ps.current = some c := hcur₁
  have htable : ps.table (some c) = s₁.procs.table (some c) := table_setPcb_eq rfl
  refine ⟨_, heq.trans (liftProcs_eq hexpire), hcur', ?_, ?_⟩
  · change Carried s.table (ps.table ps.current)
    rwa [hcur', htable]
  · rw [quantumLeft_eq (s := { s₁ with procs := ps }) hcur']
    have hsub : (ps.pcbs c).quantum = (s₁.procs.pcbs c).quantum - 1 := by simp [hps, setPcb]
    change (ps.pcbs c).quantum.toNat = left
    rw [hsub, UInt8.toNat_sub_of_le _ _ (UInt8.le_iff_toNat_le.mpr (by rw [hq]; simp)), hq]
    rfl

/-! ### The end of a quantum -/

/-- The kernel shows processes that take turns: the running one, with its quantum, and those that
wait in the ready queue of its level, no other with a higher priority being ready. -/
structure Shows (level : Fin mlqLevels) (t : Turns PcbId) (s : KState) : Prop where
  sound : RdSound s
  no_zombies : NoZombies s
  current : s.procs.current = some t.holder
  left : s.procs.quantumLeft = t.left
  waiting : s.procs.members (.ready level) = t.waiting
  own_level : (s.procs.pcbs t.holder).level.toNat = level
  higher : ∀ l < level, s.procs.members (.ready l) = []

/-- A process that is dispatched gets a new quantum. -/
lemma dispatch_quantum {ps ps' : Procs} (h : ps.dispatch = .ok ps') :
    ps'.quantumLeft = quantumDefault.toNat := by
  rw [Procs.dispatch] at h
  cases hloop : dispatchLoop dispatchFuel 0 ps with
  | error x => simp [hloop] at h
  | ok r =>
      obtain ⟨found, s₁⟩ := r
      cases found with
      | none => simp [hloop] at h
      | some p =>
          simp only [hloop, Except.ok.injEq] at h
          simp [← h, Procs.quantumLeft, setPcb]

/-- `_schedule( _current )` with a free node puts the running process behind the others of its
level. -/
lemma schedule_ids {ps : Procs} (hl : (ps.pcbs c).level.toNat < mlqLevels)
    (havail : ps.queues.avail ≠ 0) (l : Fin mlqLevels) :
    ((ps.schedule c).2.table none).ids (.ready l) = ps.requeued c l := by
  have hnode : ((ps.table none).setStatus c .ready).avail ≠ 0 := havail
  rw [table_schedule hl, ids, push, if_neg hnode, Procs.requeued]
  by_cases h : (ps.pcbs c).level.toNat = l
  · obtain rfl : ⟨(ps.pcbs c).level.toNat, hl⟩ = l := Fin.ext h
    rw [if_pos rfl]
    simp [PcbQueue.insertItem, Procs.members, table]
  · have hne : l ≠ ⟨(ps.pcbs c).level.toNat, hl⟩ := fun heq => h (congrArg Fin.val heq).symm
    rw [if_neg h, List.append_nil]
    simp [Function.update_of_ne, hne, Procs.members, table]

/-- The running process has the same place in the ready queues while the table stays as it is. -/
lemma requeued_congr {ps ps' : Procs} (h : Carried (ps.table (some c)) (ps'.table (some c)))
    (l : Fin mlqLevels) : ps'.requeued c l = ps.requeued c l := by
  have hlevel : (ps'.pcbs c).level = (ps.pcbs c).level :=
    congrArg (fun f : PcbId → Proc => (f c).level) h.proc
  have hmembers : ps'.members (.ready l) = ps.members (.ready l) := h.ids (.ready l)
  rw [Procs.requeued, Procs.requeued, hlevel, hmembers]

/-- **At the end of a quantum** the process that runs goes behind the others of its level, and the
first one of the highest-priority level is dispatched. -/
lemma quiet_expires (cfg : Config) (context : Context) (hs : RdSound s) (hz : NoZombies s)
    (hcur : s.procs.current = some c) (hquiet : Quiet s) (hleft : s.procs.quantumLeft = 0)
    (hnode : HasNode s) (htop : s.procs.Top c level) :
    ∃ (s' : KState) (t : Turns PcbId), step cfg s (.clock context) = .ok s'
      ∧ t.order = s.procs.requeued c level ∧ t.left = quantumDefault.toNat ∧ Shows level t s' := by
  obtain ⟨s₁, heq, hcur₁, hcarried, hquantum, havail⟩ := quiet_phases cfg context hs hcur hquiet
  have htable : s.table = s.procs.table (some c) := by rw [KState.table, hcur]
  have hc₁ := hcarried.core hs.core
  obtain ⟨-, hlevel⟩ := hc₁.running c rfl
  have hfree : s₁.procs.queues.avail ≠ 0 := by
    rw [havail]
    rcases hnode hleft with h | h
    · omega
    · rw [if_pos h]
      omega
  have hzero : (s₁.procs.pcbs c).quantum = 0 := by
    rw [hquantum, ← UInt8.toNat_inj, ← quantumLeft_eq hcur, hleft]
    rfl
  have hexpire : s₁.procs.expireQuantum = (s₁.procs.schedule c).2.dispatch := by
    simp [Procs.expireQuantum, hcur₁, hzero]
  -- the running process is back in its ready queue
  set ps := (s₁.procs.schedule c).2 with hps
  have hmove : Move (.requeue .cur c) (s₁.procs.table (some c)) (ps.table none) :=
    schedule_requeue hlevel
  have hc := hmove.core hc₁
  have hids : ∀ l, (ps.table none).ids (.ready l) = s.procs.requeued c l := fun l => by
    rw [hps, schedule_ids hlevel hfree l, requeued_congr (htable ▸ hcarried)]
  have hproc : (ps.table none).proc = Function.update (s₁.procs.table none).proc c
      { (s₁.procs.table none).proc c with status := .ready } := by
    rw [hps, table_schedule hlevel, push_proc, setStatus_proc]
  have hnot : ∀ x, ((ps.table none).proc x).status ≠ .zombie := fun x => by
    rw [hproc]
    by_cases hx : x = c
    · subst hx
      simp
    · rw [Function.update_of_ne hx]
      have hsame : (s₁.procs.table none).proc x = s.table.proc x := congrFun hcarried.proc x
      rw [hsame]
      exact hz x
  -- the first one of the level is dispatched
  obtain ⟨p, r, horder⟩ := List.exists_cons_of_ne_nil htop.occupied
  have hat : (ps.table none).At p (.queue (.ready level)) := by
    rw [At, hids, horder]
    rfl
  obtain ⟨key, hready, hplevel⟩ := hc.allows_of_mem (At.mem hat)
  obtain ⟨ps', hdispatch, hcur', hkeeps, htable'⟩ := dispatch_first level hat
    (hready.resolve_right (hnot p)) fun l hl => by
      have hnil := hids l
      rw [htop.higher l hl] at hnil
      exact List.map_eq_nil_iff.mp hnil
  have hstep : step cfg s (.clock context) = .ok { s₁ with procs := ps' } :=
    heq.trans (liftProcs_eq (hexpire.trans hdispatch))
  refine ⟨{ s₁ with procs := ps' }, ⟨p, quantumDefault.toNat, r⟩, hstep, horder.symm, rfl,
    hs.step hstep, fun x => ?_, hcur', dispatch_quantum hdispatch, ?_, ?_,
    fun l hl => ?_⟩
  · have hx : (ps'.pcbs x).proc = _ := congrFun (congrArg ProcTable.proc htable') x
    change (ps'.pcbs x).proc.status ≠ .zombie
    rw [hx, setCur_proc, setStatus_proc, take_proc]
    by_cases hxp : x = p
    · subst hxp
      simp
    · rw [Function.update_of_ne hxp]
      exact hnot x
  · have hw : ps'.members (.ready level) = _ :=
      congrArg (fun t : ProcTable => t.ids (.ready level)) htable'
    rw [hw]
    change (Function.update (ps.table none).queue _ _ (.ready level)).map Prod.snd = r
    rw [Function.update_self, List.map_tail]
    change ((ps.table none).ids (.ready level)).tail = r
    rw [hids, horder, List.tail_cons]
  · rw [hkeeps.level]
    exact hplevel
  · have hw : ps'.members (.ready l) = _ := congrArg (fun t : ProcTable => t.ids (.ready l)) htable'
    have hne : PcbQueue.ready l ≠ .ready level := by
      simpa using ne_of_lt hl
    rw [hw]
    change (Function.update (ps.table none).queue _ _ (.ready l)).map Prod.snd = []
    rw [Function.update_of_ne hne]
    change (ps.table none).ids (.ready l) = []
    rw [hids, htop.higher l hl]

/-- A state whose table differs in the pending requests only has no zombies either. -/
lemma NoZombies.carried (h : NoZombies s) (hcarried : Carried s.table s'.table) :
    NoZombies s' := fun x => by
  have hproc : s'.table.proc x = s.table.proc x := congrFun hcarried.proc x
  have hstatus : (s'.procs.pcbs x).status = (s.procs.pcbs x).status := congrArg Proc.status hproc
  rw [hstatus]
  exact h x

namespace Shows

/-- At the end of the quantum the processes of the level are in the order of their turns. -/
lemma requeued_eq (h : Shows level t s) :
    s.procs.requeued t.holder level = t.waiting ++ [t.holder] := by
  rw [Procs.requeued, h.waiting, if_pos h.own_level]

/-- No level above is occupied. -/
lemma top (h : Shows level t s) : s.procs.Top t.holder level := by
  refine ⟨by rw [h.requeued_eq]; simp, fun l hl => ?_⟩
  have hne : (s.procs.pcbs t.holder).level.toNat ≠ l := fun heq =>
    absurd (Fin.ext (heq.symm.trans h.own_level)) (ne_of_lt hl)
  rw [Procs.requeued, h.higher l hl, if_neg hne, List.nil_append]

/-- **A quiet clock interrupt is one unit of the time** of the processes that take turns. -/
lemma next (cfg : Config) (context : Context) (h : Shows level t s) (hquiet : Quiet s)
    (hnode : HasNode s) :
    ∃ s', step cfg s (.clock context) = .ok s' ∧ Shows level (t.next quantumDefault.toNat) s' := by
  cases hleft : t.left with
  | succ left =>
      obtain ⟨s', hstep, hcur, hcarried, hleft'⟩ :=
        quiet_counts cfg context h.sound h.current hquiet (h.left.trans hleft)
      have hlevel : (s'.procs.pcbs t.holder).level = (s.procs.pcbs t.holder).level :=
        congrArg (fun f : PcbId → Proc => (f t.holder).level) hcarried.proc
      have hready : ∀ l, s'.procs.members (.ready l) = s.procs.members (.ready l) := fun l =>
        hcarried.ids (.ready l)
      rw [next_of_left hleft]
      refine ⟨s', hstep, h.sound.step hstep, h.no_zombies.carried hcarried,
        hcur, hleft', (hready level).trans h.waiting, ?_,
        fun l hl => (hready l).trans (h.higher l hl)⟩
      rw [hlevel]
      exact h.own_level
  | zero =>
      obtain ⟨s', t', hstep, horder, hleft', hshows⟩ :=
        quiet_expires cfg context h.sound h.no_zombies h.current hquiet (h.left.trans hleft) hnode
          h.top
      obtain ⟨hnext, hquantum⟩ := order_next (q := quantumDefault.toNat) hleft
      have hsame : t' = t.next quantumDefault.toNat :=
        eq_of_order (horder.trans (h.requeued_eq.trans hnext.symm)) (hleft'.trans hquantum.symm)
      exact ⟨s', hstep, hsame ▸ hshows⟩

end Shows

/-! ### Runs -/

/-- The first quantum: so many clock interrupts of it are over, and the queues are as they were. -/
structure FirstQuantum (s : KState) (c : PcbId) (n : ℕ) (s' : KState) : Prop where
  sound : RdSound s'
  no_zombies : NoZombies s'
  current : s'.procs.current = some c
  left : s'.procs.quantumLeft + n = s.procs.quantumLeft
  carried : Carried s.table s'.table

/-- After `n` quiet clock interrupts the first quantum goes on, or the processes of the level take
turns from its end on. -/
structure Rounds (level : Fin mlqLevels) (s : KState) (c : PcbId) (t : Turns PcbId) (n : ℕ)
    (s' : KState) : Prop where
  first : n ≤ s.procs.quantumLeft → FirstQuantum s c n s'
  turns : s.procs.quantumLeft < n →
    Shows level ((Turns.next quantumDefault.toNat)^[n - (s.procs.quantumLeft + 1)] t) s'

namespace Rounds

variable {n : ℕ} {s₀ : KState}

lemma init (hs : RdSound s) (hz : NoZombies s) (hcur : s.procs.current = some c) :
    Rounds level s c t 0 s :=
  ⟨fun _ => ⟨hs, hz, hcur, rfl, .refl _⟩, fun h => absurd h (Nat.not_lt_zero _)⟩

/-- **One clock interrupt more**, which the kernel comes back from. -/
lemma next (cfg : Config) (context : Context) (h : Rounds level s₀ c t n s)
    (hcur₀ : s₀.procs.current = some c) (htop : s₀.procs.Top c level)
    (horder : t.order = s₀.procs.requeued c level) (hleft : t.left = quantumDefault.toNat)
    (hquiet : Quiet s) (hnode : HasNode s) :
    ∃ s', step cfg s (.clock context) = .ok s' ∧ Rounds level s₀ c t (n + 1) s' := by
  have hcases := lt_trichotomy n s₀.procs.quantumLeft
  rcases hcases with hlt | heq | hgt
  · -- within the first quantum
    obtain ⟨hs, hz, hcur, hquantum, hcarried⟩ := h.first hlt.le
    obtain ⟨left, hsucc⟩ : ∃ left, s.procs.quantumLeft = left + 1 :=
      ⟨s.procs.quantumLeft - 1, by omega⟩
    obtain ⟨s', hstep, hcur', hcarried', hleft'⟩ := quiet_counts cfg context hs hcur hquiet hsucc
    exact ⟨s', hstep, fun _ => ⟨hs.step hstep, hz.carried hcarried', hcur',
      by omega, hcarried.trans hcarried'⟩, fun hlt' => absurd hlt' (by omega)⟩
  · -- its end
    obtain ⟨hs, hz, hcur, hquantum, hcarried⟩ := h.first heq.le
    have htables : Carried (s₀.procs.table (some c)) (s.procs.table (some c)) := by
      rw [KState.table, KState.table, hcur₀, hcur] at hcarried
      exact hcarried
    have hrequeued := requeued_congr htables
    have htop' : s.procs.Top c level :=
      ⟨hrequeued level ▸ htop.occupied, fun l hl => (hrequeued l).trans (htop.higher l hl)⟩
    obtain ⟨s', t', hstep, horder', hleft', hshows⟩ :=
      quiet_expires cfg context hs hz hcur hquiet (by omega) hnode htop'
    have hsame : t' = t :=
      eq_of_order (horder'.trans ((hrequeued level).trans horder.symm)) (hleft'.trans hleft.symm)
    refine ⟨s', hstep, fun hle => absurd hle (by omega), fun _ => ?_⟩
    rw [← heq, Nat.sub_self]
    exact hsame ▸ hshows
  · -- the turns after it
    obtain ⟨s', hstep, hshows⟩ := (h.turns hgt).next cfg context hquiet hnode
    refine ⟨s', hstep, fun hle => absurd hle (by omega), fun _ => ?_⟩
    rw [Nat.sub_add_comm hgt, Function.iterate_succ_apply']
    exact hshows

/-- A quiet clock interrupt more, in a run with requests. -/
lemma tick (cfg : Config) {s : RdKernel} {e : RdEvent} (h : Rounds level s₀ c t n s.toKState)
    (hcur₀ : s₀.procs.current = some c) (htop : s₀.procs.Top c level)
    (horder : t.order = s₀.procs.requeued c level) (hleft : t.left = quantumDefault.toNat)
    (he : QuietTick s e) (hsafe : TickSafe s) :
    ∃ s', requestStep cfg s e = .ok s' ∧ Rounds level s₀ c t (n + 1) s'.toKState := by
  obtain ⟨context, rfl, hquiet⟩ : ∃ context, e = .kernel (.clock context) ∧ Quiet s.toKState := by
    cases e with
    | kernel e =>
        cases e with
        | clock context => exact ⟨context, rfl, he⟩
        | _ => exact he.elim
    | _ => exact he.elim
  obtain ⟨k, hstep, hnext⟩ := h.next cfg context hcur₀ htop horder hleft hquiet hsafe.1
  exact ⟨s.withKernel k, by rw [requestStep, hstep], hnext⟩

/-- **The run lemma**, by induction on the run. -/
lemma run {s s' : RdKernel} (h : Rounds level s₀ c t n s.toKState)
    (hcur₀ : s₀.procs.current = some c) (htop : s₀.procs.Top c level)
    (horder : t.order = s₀.procs.requeued c level) (hleft : t.left = quantumDefault.toNat)
    {es : List RdEvent}
    (hrun : Transition.Run (requestStep cfg) (fun s e => QuietTick s e ∧ TickSafe s) s es s') :
    Rounds level s₀ c t (n + es.length) s'.toKState := by
  induction hrun generalizing n with
  | nil s => exact h
  | cons hallowed hstep _ ih =>
      obtain ⟨s₁, hstep', hnext⟩ :=
        h.tick cfg hcur₀ htop horder hleft hallowed.1 hallowed.2
      obtain rfl := Except.ok.inj (hstep'.symm.trans hstep)
      rw [List.length_cons, Nat.add_comm _ 1, ← Nat.add_assoc]
      exact ih hnext

/-- Who runs after that many clock interrupts. -/
lemma current (h : Rounds level s c t n s') (horder : t.order = s.procs.requeued c level)
    (hleft : t.left = quantumDefault.toNat) :
    s'.procs.current = if n ≤ s.procs.quantumLeft then some c
      else turnAt (s.procs.requeued c level) (n - (s.procs.quantumLeft + 1)) := by
  split_ifs with hle
  · exact (h.first hle).current
  · rw [(h.turns (not_le.mp hle)).current, holder_iterate hleft, horder, turnAt]

end Rounds

/-! ### The level that takes turns -/

/-- Some level is occupied, that of the running process if no other is. -/
lemma exists_top (hc : Core s.table) (hcur : s.procs.current = some c) :
    ∃ level, s.procs.Top c level := by
  obtain ⟨-, hlevel⟩ := hc.running c (s.table_cur.trans hcur)
  have hocc : s.procs.requeued c ⟨(s.procs.pcbs c).level.toNat, hlevel⟩ ≠ [] := by
    simp [Procs.requeued]
  obtain ⟨level, hlevel', hmin⟩ := wellFounded_lt.has_min {l | s.procs.requeued c l ≠ []} ⟨_, hocc⟩
  exact ⟨level, hlevel', fun l hl => by_contra fun hne => hmin l hne hl⟩

/-- Each process is in its ready queue once. -/
lemma nodup_requeued (hc : Core s.table) (hcur : s.procs.current = some c) (l : Fin mlqLevels) :
    (s.procs.requeued c l).Nodup := by
  have hnd : (s.procs.members (.ready l)).Nodup := nodup_ids hc.occ_le (.ready l)
  have hnot : c ∉ s.procs.members (.ready l) :=
    notMem_of_cur (hc.occ_le c) (s.table_cur.trans hcur)
  rw [Procs.requeued]
  split_ifs
  · exact List.nodup_append.mpr ⟨hnd, List.nodup_singleton c, fun x hx y hy hxy => by
      rw [List.mem_singleton.mp hy] at hxy
      exact hnot (hxy ▸ hx)⟩
  · rwa [List.append_nil]

/-- The processes of a ready queue are of its level. -/
lemma level_of_requeued (hc : Core s.table) {l : Fin mlqLevels} (hp : p ∈ s.procs.requeued c l) :
    (s.procs.pcbs p).level.toNat = l := by
  rcases List.mem_append.mp hp with hmem | hmem
  · obtain ⟨key, -, hlevel⟩ := hc.allows_of_mem hmem
    exact hlevel
  · split_ifs at hmem with hlevel
    · rw [List.mem_singleton.mp hmem]
      exact hlevel
    · exact absurd hmem List.not_mem_nil

end Steps

/-- The level of the processes that `_init` starts. -/
def mediumLevel : Fin mlqLevels := ⟨1, by decide⟩

/-- The first process submits nine writes, which use the free nodes up. -/
def fillPool : List RdEvent :=
  (List.range 9).flatMap fun n =>
    .fill (0x1000 + UInt32.ofNat n) demoWrite :: rdCall (0x1000 + UInt32.ofNat n)

end Sp2
