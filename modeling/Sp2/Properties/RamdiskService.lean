import Sp2.Kernel.Requests
import Sp2.Table.Boot

/-!
The service of a ramdisk read in the clock interrupt.

* `SameButBlocked`: two states of the process modules that differ only in `_blocked_requests`.
* `blockedLoop_found`: the loop over `_blocked_requests` stops at the first process that waits for
  the request; the processes in front of it are behind the others then.
* `blockedLoop_hangs`: if no process of a queue that is not empty waits for the request, the queue
  is turned round for ever.
* `Serviced`: what is to hold of the service of a read.
* `read_serviced`: this holds **exactly if the first process that waits for the request stands
  where its removal keeps the order, or the queue is empty**.
-/

namespace Sp2

/-! ### The statement -/

/-- The processes in `_blocked_requests`, first to last. -/
def Procs.blocked (s : Procs) : List PcbId := (s.queues.items .blockedRequests).map Prod.snd

/-- The process waits for the request. -/
def Procs.Waits (s : Procs) (dr : UInt32) (p : PcbId) : Prop := (s.pcbs p).pendingRequest = dr

/-- The process `p` is the first one in `_blocked_requests` that waits for the request: it stands
between the processes `front` and `back`. -/
structure Procs.FirstWaiting (s : Procs) (dr : UInt32) (front : List PcbId) (p : PcbId)
    (back : List PcbId) : Prop where
  blocked : s.blocked = front ++ p :: back
  front : ∀ x ∈ front, ¬ s.Waits dr x
  waits : s.Waits dr p

/-- The process is ready and put once into the ready queue of its level, and no other queue but
`_blocked_requests` changes. -/
structure Procs.ScheduledOnce (p : PcbId) (s s' : Procs) : Prop where
  status : (s.pcbs p).level.toNat < mlqLevels → (s'.pcbs p).status = .ready
  ready : ∀ level : Fin mlqLevels, (s.pcbs p).level.toNat = level →
    s'.queues.items (.pcbs (.ready level)) = s.queues.items (.pcbs (.ready level)) ++ [(0, p)]
  others : ∀ q ≠ .blockedRequests,
    (∀ level : Fin mlqLevels, (s.pcbs p).level.toNat = level → q ≠ .pcbs (.ready level)) →
    s'.queues.items q = s.queues.items q

/-- What is to hold of the service of the read `dr`. -/
structure Serviced (cfg : Config) (dr : UInt32) (s : KState) : Prop where
  /-- the search for the process ends -/
  terminates : ∃ fuel r, blockedLoop fuel dr s.procs = .ok r
  /-- a process that waits for the request is scheduled, and the others stay in order -/
  found : ∀ front p back, s.procs.FirstWaiting dr front p back →
    ∃ s', s.serveRequest cfg dr = .ok s' ∧ s'.procs.blocked = front ++ back
      ∧ s.procs.ScheduledOnce p s'.procs ∧ (s'.requests dr).status = diskStatusIoSuccess
  /-- without one the request ends with an error, and no queue changes -/
  missing : (∀ p ∈ s.procs.blocked, ¬ s.procs.Waits dr p) →
    ∃ s', s.serveRequest cfg dr = .ok s' ∧ s'.procs.queues.items = s.procs.queues.items
      ∧ (s'.requests dr).status = diskStatusIoFinishedError

/-! ### One round -/

/-- Two states of the process modules that differ only in `_blocked_requests`. -/
structure Procs.SameButBlocked (s s' : Procs) : Prop where
  pcbs : s'.pcbs = s.pcbs
  items : ∀ q ≠ .blockedRequests, s'.queues.items q = s.queues.items q

namespace Procs

variable {s s' s'' : Procs} {dr : UInt32} {p : PcbId} {l front back : List PcbId}

lemma SameButBlocked.refl (s : Procs) : SameButBlocked s s := ⟨rfl, fun _ _ => rfl⟩

lemma SameButBlocked.trans (h : SameButBlocked s s') (h' : SameButBlocked s' s'') :
    SameButBlocked s s'' :=
  ⟨h'.pcbs.trans h.pcbs, fun q hq => (h'.items q hq).trans (h.items q hq)⟩

lemma SameButBlocked.waits (h : SameButBlocked s s') : s'.Waits dr p ↔ s.Waits dr p := by
  rw [Waits, Waits, h.pcbs]

/-- A removal from `_blocked_requests`. -/
lemma remove_blocked (h : s.blocked = p :: l) :
    (s.qRemove .blockedRequests).1 = some p ∧ (s.qRemove .blockedRequests).2.blocked = l
      ∧ SameButBlocked s (s.qRemove .blockedRequests).2
      ∧ (s.qRemove .blockedRequests).2.queues.avail ≠ 0 := by
  have hfst := s.queues.remove_fst .blockedRequests
  have hitems := s.queues.items_remove .blockedRequests
  have havail := s.queues.avail_remove .blockedRequests
  obtain ⟨e, r, hq, rfl, rfl⟩ := List.map_eq_cons_iff.mp h
  refine ⟨hfst.trans (by rw [hq]; rfl), ?_, ⟨rfl, fun q hne => ?_⟩, ?_⟩
  · change ((s.queues.remove .blockedRequests).2.items .blockedRequests).map Prod.snd = _
    rw [hitems, Function.update_self, hq, List.tail_cons]
  · change (s.queues.remove .blockedRequests).2.items q = _
    rw [hitems, Function.update_of_ne hne]
  · change (s.queues.remove .blockedRequests).2.avail ≠ 0
    rw [havail, if_neg (by rw [hq]; exact List.cons_ne_nil _ _)]
    exact Nat.succ_ne_zero _

/-- The entries of the queues after an insertion with a free node. -/
lemma items_qInsert {q : QueueName} {x : q.Elem} (h : s.queues.avail ≠ 0) :
    (s.qInsert q x).2.queues.items
      = Function.update s.queues.items q (QSys.insertItem s.pcbs q x (s.queues.items q)) :=
  (s.queues.items_insert s.pcbs q x).trans (if_neg h)

/-- An insertion into `_blocked_requests` with a free node. -/
lemma insert_blocked (h : s.queues.avail ≠ 0) :
    (s.qInsert .blockedRequests p).2.blocked = s.blocked ++ [p]
      ∧ SameButBlocked s (s.qInsert .blockedRequests p).2 := by
  have hitems := items_qInsert (q := .blockedRequests) (x := p) h
  refine ⟨?_, ⟨rfl, fun q hne => ?_⟩⟩
  · rw [blocked, hitems, Function.update_self]
    exact List.map_append
  · rw [hitems, Function.update_of_ne hne]

/-- A round that meets a process waiting for another request puts it behind the others. -/
lemma blockedLoop_turn (h : s.blocked = p :: l) (hp : ¬ s.Waits dr p) :
    ∃ s₁, s₁.blocked = l ++ [p] ∧ SameButBlocked s s₁
      ∧ ∀ fuel, blockedLoop (fuel + 1) dr s = blockedLoop fuel dr s₁ := by
  obtain ⟨hfst, hblocked, hapart, havail⟩ := remove_blocked h
  obtain ⟨hblocked', hapart'⟩ := insert_blocked (p := p) havail
  refine ⟨_, by rw [hblocked', hblocked], hapart.trans hapart', fun fuel => ?_⟩
  have hp' : ¬ ((s.qRemove .blockedRequests).2.pcbs p).pendingRequest = dr := hp
  rw [blockedLoop, ← Prod.mk.eta (p := s.qRemove .blockedRequests), hfst]
  simp only [if_neg hp']

/-! ### The loop -/

/-- **The loop finds the first process that waits for the request**, by induction on the processes
in front of it: it is scheduled once they are all behind the others. -/
lemma blockedLoop_found : ∀ (front back : List PcbId) (fuel : ℕ) (s : Procs),
    s.FirstWaiting dr front p back → front.length < fuel →
    ∃ s₁, s₁.blocked = back ++ front ∧ SameButBlocked s s₁ ∧ s₁.queues.avail ≠ 0
      ∧ blockedLoop fuel dr s
        = .ok (true, ((s₁.setPcb p ({ · with pendingRequest := 0 })).schedule p).2)
  | _, _, 0, _, _, hfuel => absurd hfuel (Nat.not_lt_zero _)
  | [], back, fuel + 1, s, h, _ => by
      obtain ⟨hfst, hblocked, hapart, havail⟩ := remove_blocked h.blocked
      refine ⟨_, by rw [hblocked, List.append_nil], hapart, havail, ?_⟩
      have hp : ((s.qRemove .blockedRequests).2.pcbs p).pendingRequest = dr := h.waits
      rw [blockedLoop, ← Prod.mk.eta (p := s.qRemove .blockedRequests), hfst]
      simp only [if_pos hp]
  | x :: front, back, fuel + 1, s, h, hfuel => by
      obtain ⟨s₁, hblocked, hapart, hloop⟩ :=
        blockedLoop_turn h.blocked (h.front x List.mem_cons_self)
      have hnext : s₁.FirstWaiting dr front p (back ++ [x]) :=
        ⟨by rw [hblocked]; exact List.append_assoc ..,
          fun y hy => hapart.waits.not.mpr (h.front y (List.mem_cons_of_mem x hy)),
          hapart.waits.mpr h.waits⟩
      obtain ⟨s₂, hblocked', hapart', havail, heq⟩ :=
        blockedLoop_found front (back ++ [x]) fuel s₁ hnext
          (Nat.lt_of_succ_lt_succ hfuel)
      refine ⟨s₂, ?_, hapart.trans hapart', havail, by rw [hloop, heq]⟩
      rw [hblocked', List.append_assoc, List.singleton_append]

/-- **The loop never ends** if there are processes in the queue and none of them waits for the
request, by induction on the rounds: the queue keeps its processes. -/
lemma blockedLoop_hangs (dr : UInt32) : ∀ (fuel : ℕ) (s : Procs), s.blocked ≠ [] →
    (∀ x ∈ s.blocked, ¬ s.Waits dr x) → ∃ s', blockedLoop fuel dr s = .error (.hang, s')
  | 0, s, _, _ => ⟨s, rfl⟩
  | fuel + 1, s, hne, hwaits => by
      obtain ⟨p, l, h⟩ := List.exists_cons_of_ne_nil hne
      obtain ⟨s₁, hblocked, hapart, hloop⟩ :=
        blockedLoop_turn h (hwaits p (by rw [h]; exact List.mem_cons_self))
      rw [hloop]
      refine blockedLoop_hangs dr fuel s₁ (by simp [hblocked]) fun x hx => ?_
      refine hapart.waits.not.mpr (hwaits x ?_)
      rw [hblocked] at hx
      rw [h]
      simpa [or_comm] using hx

/-- With nothing in the queue the loop ends at once. -/
lemma blockedLoop_nil (dr : UInt32) (h : s.blocked = []) :
    ∃ s₁, s₁.queues.items = s.queues.items
      ∧ ∀ fuel, blockedLoop (fuel + 1) dr s = .ok (false, s₁) := by
  have hq : s.queues.items .blockedRequests = [] := List.map_eq_nil_iff.mp h
  have hitems := s.queues.items_remove .blockedRequests
  have hfst : (s.qRemove .blockedRequests).1 = none :=
    (s.queues.remove_fst .blockedRequests).trans (by rw [hq]; rfl)
  refine ⟨(s.qRemove .blockedRequests).2, ?_, fun fuel => ?_⟩
  · change (s.queues.remove .blockedRequests).2.items = _
    rw [hitems, hq, List.tail_nil, ← hq, Function.update_eq_self]
  · rw [blockedLoop, ← Prod.mk.eta (p := s.qRemove .blockedRequests), hfst]

/-- There are enough rounds to see every process. -/
lemma blocked_length_lt (h : s.blocked = front ++ p :: back) : front.length < blockedFuel := by
  have hpool := s.queues.avail_add_length
  have hle := Finset.single_le_sum (f := fun q => (s.queues.items q).length)
    (fun _ _ => Nat.zero_le _) (Finset.mem_univ QueueName.blockedRequests)
  have hlen : (s.queues.items .blockedRequests).length = (front ++ p :: back).length := by
    rw [← h, blocked, List.length_map]
  rw [List.length_append, List.length_cons] at hlen
  rw [blockedFuel]
  omega

/-- What `_schedule` does with a free node. -/
lemma scheduledOnce_schedule (havail : s.queues.avail ≠ 0) :
    s.ScheduledOnce p (s.schedule p).2 ∧ (s.schedule p).2.blocked = s.blocked := by
  rw [schedule]
  by_cases h : (s.pcbs p).level.toNat < mlqLevels
  · rw [dif_pos h]
    have hitems := items_qInsert (s := s.setPcb p ({ · with status := .ready }))
      (q := .pcbs (.ready ⟨(s.pcbs p).level.toNat, h⟩)) (x := p) havail
    refine ⟨⟨fun _ => ?_, fun level heq => ?_, fun q _ hother => ?_⟩, ?_⟩
    · exact congrArg Pcb.status (Function.update_self p _ s.pcbs)
    · obtain rfl : ⟨(s.pcbs p).level.toNat, h⟩ = level := Fin.ext heq
      rw [hitems, Function.update_self]
      rfl
    · rw [hitems, Function.update_of_ne (hother _ rfl)]
      rfl
    · rw [blocked, hitems, Function.update_of_ne (by simp)]
      rfl
  · rw [dif_neg h]
    exact ⟨⟨fun h' => absurd h' h, fun level heq => absurd (heq ▸ level.2) h, fun _ _ _ => rfl⟩,
      rfl⟩

/-- Stores into other fields of PCBs and changes of `_blocked_requests` before do not matter. -/
lemma ScheduledOnce.of_apart {s₁ : Procs} (h : s₁.ScheduledOnce p s')
    (hlevel : (s₁.pcbs p).level = (s.pcbs p).level)
    (hitems : ∀ q ≠ .blockedRequests, s₁.queues.items q = s.queues.items q) :
    s.ScheduledOnce p s' := by
  obtain ⟨hstatus, hready, hothers⟩ := h
  rw [hlevel] at hstatus hready hothers
  refine ⟨hstatus, fun level heq => ?_, fun q hne hother => ?_⟩
  · rw [hready level heq, hitems _ (by simp)]
  · rw [hothers q hne hother, hitems q hne]

end Procs

/-! ### The service of a read -/

section Service

variable {dr : UInt32} {s s' : KState} {front back : List PcbId} {p : PcbId}

/-- The service of a read whose process is found. -/
lemma serveRequest_found (cfg : Config) (hcmd : (s.requests dr).cmd = diskCmdRead)
    (h : s.procs.FirstWaiting dr front p back) :
    ∃ s', s.serveRequest cfg dr = .ok s' ∧ s'.procs.blocked = back ++ front
      ∧ s.procs.ScheduledOnce p s'.procs ∧ (s'.requests dr).status = diskStatusIoSuccess := by
  obtain ⟨s₁, hblocked, hapart, havail, hloop⟩ :=
    Procs.blockedLoop_found front back blockedFuel s.procs h (Procs.blocked_length_lt h.blocked)
  set s₂ := s₁.setPcb p ({ · with pendingRequest := 0 }) with hs₂
  obtain ⟨honce, hkeep⟩ := Procs.scheduledOnce_schedule (s := s₂) (p := p) havail
  have hlevel : (s₂.pcbs p).level = (s.procs.pcbs p).level := by
    simp [hs₂, Procs.setPcb, hapart.pcbs]
  refine ⟨KState.setRequestStatus dr diskStatusIoSuccess { s with
    mem := rdRead cfg.ramdisk (s.requests dr).lba (s.requests dr).nblocks
      (s.requests dr).buffer s.mem
    procs := (s₂.schedule p).2 }, ?_, hkeep.trans hblocked, honce.of_apart hlevel hapart.items, ?_⟩
  · simp [KState.serveRequest, hcmd, hloop, KState.setRequestStatus]
  · simp [KState.setRequestStatus]

/-- The service of a read while nothing is blocked. -/
lemma serveRequest_nil (cfg : Config) (hcmd : (s.requests dr).cmd = diskCmdRead)
    (h : s.procs.blocked = []) :
    ∃ s', s.serveRequest cfg dr = .ok s' ∧ s'.procs.queues.items = s.procs.queues.items
      ∧ ((s'.requests dr).status = diskStatusIoFinishedError
        ↔ (s.requests dr).status ≠ diskStatusIoSuccess) := by
  obtain ⟨s₁, hitems, hloop⟩ := Procs.blockedLoop_nil dr h
  have hloop' : blockedLoop blockedFuel dr s.procs = .ok (false, s₁) := hloop _
  by_cases hstatus : (s.requests dr).status = diskStatusIoSuccess
  · refine ⟨{ s with
      mem := rdRead cfg.ramdisk (s.requests dr).lba (s.requests dr).nblocks
        (s.requests dr).buffer s.mem
      procs := s₁ }, ?_, hitems, ?_⟩
    · simp [KState.serveRequest, hcmd, hloop', hstatus]
    · simp only [hstatus]
      decide
  · refine ⟨KState.setRequestStatus dr diskStatusIoFinishedError { s with
      mem := rdRead cfg.ramdisk (s.requests dr).lba (s.requests dr).nblocks
        (s.requests dr).buffer s.mem
      procs := s₁ }, ?_, hitems, ?_⟩
    · simp [KState.serveRequest, hcmd, hloop', hstatus]
    · simp [KState.setRequestStatus, hstatus]

/-- A queue has a first process that waits for the request, or none. -/
lemma Procs.firstWaiting_or (s : Procs) (dr : UInt32) :
    (∃ front p back, s.FirstWaiting dr front p back) ∨ ∀ p ∈ s.blocked, ¬ s.Waits dr p := by
  classical
  by_cases h : ∃ p ∈ s.blocked, s.Waits dr p
  · obtain ⟨p, hp, hwaits⟩ := h
    have hsome : (s.blocked.find? fun x => s.Waits dr x).isSome := by
      rw [List.find?_isSome]
      exact ⟨p, hp, by simpa using hwaits⟩
    obtain ⟨x, hx⟩ := Option.isSome_iff_exists.mp hsome
    obtain ⟨hw, front, back, heq, hfront⟩ := List.find?_eq_some_iff_append.mp hx
    exact Or.inl ⟨front, x, back, heq, fun y hy => by simpa using hfront y hy,
      by simpa using hw⟩
  · exact Or.inr fun p hp hw => h ⟨p, hp, hw⟩

/-- The first process that waits for the request is determined by the queue. -/
lemma Procs.FirstWaiting.unique {s : Procs} {front' back' : List PcbId} {p' : PcbId}
    (h : s.FirstWaiting dr front p back) (h' : s.FirstWaiting dr front' p' back') :
    front = front' ∧ p = p' ∧ back = back' := by
  -- a longer front would contain the process found in the other one
  have hnil : ∀ {f f' b b' c : List PcbId} {x x' : PcbId}, s.FirstWaiting dr f x b →
      s.FirstWaiting dr f' x' b' → f' = f ++ c → x :: b = c ++ x' :: b' → c = [] := by
    intro f f' b b' c x x' hx hx' hf hb
    cases c with
    | nil => rfl
    | cons y c =>
        obtain rfl : x = y := (List.cons.inj hb).1
        exact absurd hx.waits (hx'.front x (by simp [hf]))
  have heq := h.blocked.symm.trans h'.blocked
  rcases List.append_eq_append_iff.mp heq with ⟨c, hf, hb⟩ | ⟨c, hf, hb⟩
  · obtain rfl := hnil h h' hf hb
    simpa [hf] using hb
  · obtain rfl := hnil h' h hf hb
    simpa [hf, eq_comm] using hb

/-! ### The submission of a read -/

/-- A read that passes the check, with two free nodes: the process is put into
`_blocked_requests`, and goes on running. -/
lemma rdRequest_read (cfg : Config) {c : PcbId} (hdr : dr ≠ 0)
    (hcheck : RdCheck cfg (s.requests dr)) (hcmd : (s.requests dr).cmd = diskCmdRead)
    (hcur : s.procs.current = some c) (havail : 2 ≤ s.procs.queues.avail) :
    ∃ v s', s.rdRequest cfg dr = .ok (v, s') ∧ s'.procs.current = some c
      ∧ s'.procs.blocked = s.procs.blocked ++ [c] ∧ (s'.procs.pcbs c).pendingRequest = dr
      ∧ s'.procs.queues.items .ramdiskIoPending
        = s.procs.queues.items .ramdiskIoPending ++ [(0, dr)]
      ∧ s'.procs.queues.avail = s.procs.queues.avail - 2
      ∧ s'.requests = Function.update s.requests dr
        { s.requests dr with status := diskStatusReadPending } := by
  set s₁ := s.procs.setPcb c ({ · with pendingRequest := dr }) with hs₁
  set s₂ := (s₁.qInsert .ramdiskIoPending dr).2 with hs₂
  have havail₁ : s₁.queues.avail = s.procs.queues.avail := rfl
  have hitems : s₂.queues.items = Function.update s₁.queues.items .ramdiskIoPending _ :=
    Procs.items_qInsert (by omega)
  have havail₂ : s₂.queues.avail = s.procs.queues.avail - 1 :=
    s₁.queues.avail_insert s₁.pcbs .ramdiskIoPending dr
  have havail₃ : (s₂.qInsert .blockedRequests c).2.queues.avail = s₂.queues.avail - 1 :=
    s₂.queues.avail_insert s₂.pcbs .blockedRequests c
  obtain ⟨hblocked, hapart⟩ := Procs.insert_blocked (s := s₂) (p := c) (by omega)
  have hfst : (s₁.qInsert .ramdiskIoPending dr).1 = .success :=
    (s₁.queues.insert_fst s₁.pcbs .ramdiskIoPending dr).trans (if_neg (by omega))
  set s₃ : KState := { s.setRequestStatus dr diskStatusReadPending with
    procs := (s₂.qInsert .blockedRequests c).2 } with hs₃
  refine ⟨(s₃.requests dr).status, s₃, ?_, hcur, ?_, ?_, ?_, havail₃.trans (by omega), rfl⟩
  · simp only [KState.rdRequest, if_neg hdr, if_neg (not_not.mpr hcheck), if_pos hcmd, hcur,
      KState.enqueueRequest, KState.setRequestStatus, ← hs₁, hfst, ← hs₂, reduceCtorEq, if_false,
      hs₃]
  · change (s₂.qInsert .blockedRequests c).2.blocked = _
    rw [hblocked]
    refine congrArg (· ++ [c]) ?_
    rw [Procs.blocked, hitems, Function.update_of_ne (by simp)]
    rfl
  · change (s₁.pcbs c).pendingRequest = dr
    simp [hs₁, Procs.setPcb]
  · change (s₂.qInsert .blockedRequests c).2.queues.items .ramdiskIoPending = _
    rw [hapart.items _ (by simp), hitems, Function.update_self]
    rfl

/-! ### The theorem -/

/-- **The service of a read**: it ends, schedules the process that waits for the request and keeps
the order of the others, or ends with an error, exactly if a process waits for the request and the
processes in front of the first such one may as well stand behind the others, or nothing is blocked
and the request is not marked as successful already. -/
theorem read_serviced (cfg : Config) {dr : UInt32} {s : KState}
    (hcmd : (s.requests dr).cmd = diskCmdRead) :
    Serviced cfg dr s ↔
      (∃ front p back, s.procs.FirstWaiting dr front p back ∧ back ++ front = front ++ back)
        ∨ s.procs.blocked = [] ∧ (s.requests dr).status ≠ diskStatusIoSuccess := by
  constructor
  · intro h
    rcases s.procs.firstWaiting_or dr with ⟨front, p, back, hfirst⟩ | hnone
    · obtain ⟨s₁, hserve, hkept, -⟩ := h.found front p back hfirst
      obtain ⟨s₂, hserve', hturned, -⟩ := serveRequest_found cfg hcmd hfirst
      obtain rfl : s₁ = s₂ := Except.ok.inj (hserve.symm.trans hserve')
      exact Or.inl ⟨front, p, back, hfirst, hturned.symm.trans hkept⟩
    · by_cases hnil : s.procs.blocked = []
      · obtain ⟨s₁, hserve, -, hstatus⟩ := h.missing hnone
        obtain ⟨s₂, hserve', -, hiff⟩ := serveRequest_nil cfg hcmd hnil
        obtain rfl : s₁ = s₂ := Except.ok.inj (hserve.symm.trans hserve')
        exact Or.inr ⟨hnil, hiff.mp hstatus⟩
      · obtain ⟨fuel, r, hends⟩ := h.terminates
        obtain ⟨s', hhangs⟩ := Procs.blockedLoop_hangs dr fuel s.procs hnil hnone
        exact absurd (hends.symm.trans hhangs) (by simp)
  · rintro (⟨front, p, back, hfirst, hcomm⟩ | ⟨hnil, hstatus⟩)
    · obtain ⟨s₁, -, -, -, hloop⟩ := Procs.blockedLoop_found front back blockedFuel s.procs
        hfirst (Procs.blocked_length_lt hfirst.blocked)
      refine ⟨⟨_, _, hloop⟩, fun front' p' back' hfirst' => ?_, fun hnone => ?_⟩
      · obtain ⟨rfl, rfl, rfl⟩ := hfirst.unique hfirst'
        rw [← hcomm]
        exact serveRequest_found cfg hcmd hfirst
      · have hp : p ∈ s.procs.blocked := by
          rw [hfirst.blocked]
          exact List.mem_append_right front List.mem_cons_self
        exact absurd hfirst.waits (hnone p hp)
    · obtain ⟨s₁, -, hloop⟩ := Procs.blockedLoop_nil dr hnil
      obtain ⟨s', hserve, hitems, hiff⟩ := serveRequest_nil cfg hcmd hnil
      refine ⟨⟨1, _, hloop 0⟩, fun front p back hfirst => ?_,
        fun _ => ⟨s', hserve, hitems, hiff.mpr hstatus⟩⟩
      have hcons := hfirst.blocked.symm.trans hnil
      exact absurd hcons (by simp)

end Service

/-- A read of one block. -/
def demoRead : DiskRequest := ⟨diskCmdRead, 0, 0, 1, 0x5000⟩

/-- A process that is in no call fills a record in and submits it. -/
lemma read_run (dr : UInt32) {s : RdKernel} {c : PcbId} (hdr : dr ≠ 0)
    (hcur : s.procs.current = some c) (hidle : s.calls c = none)
    (havail : 2 ≤ s.procs.queues.avail) :
    ∃ s', Transition.Run (requestStep demoConfig) Uninterrupted s
        (.fill dr demoRead :: rdCall dr) s'
      ∧ s'.procs.current = some c ∧ s'.calls = s.calls ∧ s'.procs.blocked = s.procs.blocked ++ [c]
      ∧ s'.procs.Waits dr c
      ∧ s'.procs.queues.items .ramdiskIoPending
        = s.procs.queues.items .ramdiskIoPending ++ [(0, dr)]
      ∧ s'.procs.queues.avail = s.procs.queues.avail - 2 := by
  set s₁ : RdKernel := { s with requests := Function.update s.requests dr demoRead } with hs₁
  have hread : s₁.requests dr = demoRead := Function.update_self dr demoRead s.requests
  obtain ⟨v, k, hrequest, hcur', hblocked, hpending, hitems, havail', -⟩ :=
    rdRequest_read demoConfig (s := s₁.toKState) hdr (by rw [hread]; decide)
      (by rw [hread]; rfl) hcur havail
  have hrun : Transition.Run (requestStep demoConfig) Uninterrupted s₁ (rdCall dr) ⟨k, s₁.calls⟩ :=
    rdRequest_run hcur hidle hrequest
  exact ⟨⟨k, s₁.calls⟩, .cons trivial rfl hrun, hcur', rfl, hblocked, hpending, hitems, havail'⟩

/-- The state at the end of `_init`, with no process in a call. -/
def bootRdKernel : RdKernel := ⟨bootState, fun _ => none⟩

/-- What the pool and the queues of requests hold at the end of `_init`. -/
lemma bootState_queues : bootState.procs.queues.avail = 9 ∧ bootState.procs.blocked = []
    ∧ bootState.procs.queues.items .ramdiskIoPending = [] := by
  have havail := congrArg ProcTable.avail bootState_table
  have hreq := congrArg ProcTable.requests bootState_table
  exact ⟨havail, congrArg (List.map Prod.snd) (congrArg Requests.blocked hreq),
    congrArg Requests.ramdisk hreq⟩

/-- The first process reads, and after its quantum so does the second one. -/
def twoReads : List RdEvent :=
  .fill 0x1000 demoRead :: rdCall 0x1000 ++ List.replicate 3 (.kernel tick)
    ++ .fill 0x2000 demoRead :: rdCall 0x2000

/-- The process of the first read stands in front of the other one, and is put into its ready
queue. -/
theorem read_serviced_first : ∃ s : RdKernel,
    Transition.Run (requestStep demoConfig) Uninterrupted bootRdKernel twoReads s
      ∧ s.procs.blocked = [1, 2] ∧ Serviced demoConfig 0x1000 s.toKState := by
  obtain ⟨s, hrun, hs⟩ := Transition.exists_run (requestStep demoConfig) Uninterrupted bootRdKernel
    twoReads (f := fun s => (s.procs.blocked, (s.procs.pcbs 1).pendingRequest,
      (s.requests 0x1000).cmd)) (b := ([1, 2], 0x1000, diskCmdRead)) (by decide +kernel)
  obtain ⟨hblocked, hwaits, hcmd⟩ := by simpa only [Prod.mk.injEq] using hs
  have hfirst : s.procs.FirstWaiting 0x1000 [] 1 [2] :=
    ⟨hblocked, fun _ hx => absurd hx List.not_mem_nil, hwaits⟩
  exact ⟨s, hrun, hblocked, (read_serviced demoConfig hcmd).mpr (Or.inl ⟨[], 1, [2], hfirst, rfl⟩)⟩

/-- A process that submits a second read while the first one is pending is recorded for the second
one only. The loop that serves the first one finds nobody who waits for it, and never ends. -/
theorem second_read_hangs : ∃ s : RdKernel,
    Transition.Run (requestStep demoConfig) Uninterrupted bootRdKernel
      ((.fill 0x1000 demoRead :: rdCall 0x1000) ++ (.fill 0x2000 demoRead :: rdCall 0x2000)) s
    ∧ (s.procs.qRemove .ramdiskIoPending).1 = some 0x1000
    ∧ ¬ Serviced demoConfig 0x1000
      { s.toKState with procs := (s.procs.qRemove .ramdiskIoPending).2 } := by
  obtain ⟨havail, hblocked, hpending⟩ := bootState_queues
  obtain ⟨s₁, hrun₁, hcur₁, hcalls₁, hblocked₁, -, hpending₁, havail₁⟩ :=
    read_run 0x1000 (s := bootRdKernel) (by decide) bootState_current rfl
      (havail.symm ▸ by decide)
  have havail₁' : 2 ≤ s₁.procs.queues.avail := by
    rw [havail₁]
    exact havail.symm ▸ by decide
  obtain ⟨s₂, hrun₂, -, -, hblocked₂, hwaits₂, hpending₂, -⟩ :=
    read_run 0x2000 (by decide) hcur₁ (congrFun hcalls₁ 1) havail₁'
  have hboth : s₂.procs.blocked = [1, 1] := by
    rw [hblocked₂, hblocked₁]
    exact congrArg (fun l => l ++ [1] ++ [1]) hblocked
  have hqueue : s₂.procs.queues.items .ramdiskIoPending = [(0, 0x1000), (0, 0x2000)] := by
    rw [hpending₂, hpending₁]
    exact congrArg (fun l => l ++ [(0, 0x1000)] ++ [(0, 0x2000)]) hpending
  refine ⟨s₂, hrun₁.append hrun₂, ?_, fun h => ?_⟩
  · exact (s₂.procs.queues.remove_fst .ramdiskIoPending).trans (by rw [hqueue]; rfl)
  · have hsame : (s₂.procs.qRemove .ramdiskIoPending).2.blocked = [1, 1] := by
      change ((s₂.procs.queues.remove .ramdiskIoPending).2.items .blockedRequests).map _ = _
      rw [QSys.items_remove, Function.update_of_ne (by simp)]
      exact hboth
    obtain ⟨fuel, r, hends⟩ := h.terminates
    obtain ⟨s', hhangs⟩ := Procs.blockedLoop_hangs 0x1000 fuel
      (s₂.procs.qRemove .ramdiskIoPending).2 (by rw [hsame]; simp) fun x hx => by
        rw [hsame] at hx
        obtain rfl : x = 1 := by simpa using hx
        change ¬ (s₂.procs.pcbs 1).pendingRequest = 0x1000
        rw [show (s₂.procs.pcbs 1).pendingRequest = 0x2000 from hwaits₂]
        decide
    exact absurd (hends.symm.trans hhangs) (by simp)

end Sp2
