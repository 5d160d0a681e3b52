import Sp2.Devices.AtaSteps
import Sp2.Lib.History

/-!
The lifetime of a request of the disk driver.

* `Returned`: the request of a call of `_ata_request` that has returned is in no queue, so the
  requests on the free list are not, and `_ata_io_pending` has an entry for no others than the
  requests that are outstanding.
* `countAhead`: for each process, how many entries are to be taken out of `_ata_io_pending`
  until its request is. Only an interrupt that finds no request pending takes one out.
* `requests_returned`: **requests are returned in no queue** exactly as long as no process comes
  back from `_ata_request` before as many such interrupts as there were entries when it had
  inserted its own. Nothing in the driver waits for them.
-/

namespace Sp2

open Transition AtaState

/-! ### The statement -/

/-- The requests that are in a call of `_ata_request`. -/
def AtaState.outstanding (s : AtaState) : Finset RequestId :=
  Finset.univ.filter fun r =>
    ∃ p, (s.calls p).any (fun c => c.request = r ∧ c.point ≠ .prepare) = true

/-- A request that has been returned is in no queue. -/
structure Returned (s : AtaState) : Prop where
  /-- A process is at the head of its loop over the blocks before and after each call. -/
  unqueued : ∀ p, ∀ c ∈ s.calls p, c.point = .prepare → c.request ∉ s.ioPending
  free : ∀ r ∈ s.ioPending, r ∉ s.freeRequests
  bounded : s.ioPending.length ≤ s.outstanding.card

/-- For each process, the number of entries of `_ata_io_pending` up to its request: all of them
when it is inserted, and one less with every interrupt that finds no request pending. -/
def countAhead (s : AtaState) (e : AtaEvent) (ahead : PcbId → ℕ) : PcbId → ℕ :=
  match e with
  | .run p node =>
      match s.calls p with
      | some c =>
          if c.point = .insert ∧ node = true ∧ (s.requests c.request).Known then
            Function.update ahead p (s.ioPending.length + 1)
          else ahead
      | none => ahead
  | .interrupt => if s.Idle then fun p => ahead p - 1 else ahead
  | .start _ _ | .settle => ahead

/-- If a process returns from `_ata_request`, nothing is ahead of it any more. -/
def ReturnsLate (x : AtaState × (PcbId → ℕ)) : AtaEvent → Prop
  | .run p _ => ∀ c ∈ x.1.calls p, c.point = .done → x.2 p = 0
  | .start _ _ | .interrupt | .settle => True

instance (x : AtaState × (PcbId → ℕ)) : (e : AtaEvent) → Decidable (ReturnsLate x e)
  | .run p _ => inferInstanceAs (Decidable (∀ c ∈ x.1.calls p, c.point = .done → x.2 p = 0))
  | .start _ _ | .interrupt | .settle => inferInstanceAs (Decidable True)

/-! ### The invariant -/

section Place

variable {α : Type*} [DecidableEq α] {l : List α} {a b : α}

/-- The place of an element in a list, counted from one, or zero. -/
def placeIn (l : List α) (a : α) : ℕ := if a ∈ l then l.idxOf a + 1 else 0

lemma placeIn_eq_zero : placeIn l a = 0 ↔ a ∉ l := by
  rw [placeIn]
  split_ifs with h <;> simp [h]

lemma placeIn_concat_self (h : a ∉ l) : placeIn (l ++ [a]) a = l.length + 1 := by
  rw [placeIn, if_pos (by simp), List.idxOf_append_of_notMem h]
  simp

lemma placeIn_concat_of_ne (h : a ≠ b) : placeIn (l ++ [b]) a = placeIn l a := by
  by_cases ha : a ∈ l
  · rw [placeIn, placeIn, if_pos ha, if_pos (by simp [ha]), List.idxOf_append_of_mem ha]
  · rw [placeIn_eq_zero.mpr ha, placeIn_eq_zero.mpr (by simp [ha, h])]

lemma placeIn_tail (h : l.Nodup) : placeIn l.tail a = placeIn l a - 1 := by
  cases l with
  | nil => rfl
  | cons b l =>
      obtain ⟨hb, -⟩ := List.nodup_cons.mp h
      rw [List.tail_cons]
      by_cases hab : a = b
      · subst hab
        rw [placeIn_eq_zero.mpr hb, placeIn, if_pos List.mem_cons_self, List.idxOf_cons_self]
      · by_cases ha : a ∈ l
        · rw [placeIn, placeIn, if_pos ha, if_pos (List.mem_cons_of_mem b ha),
            List.idxOf_cons_ne _ (Ne.symm hab)]
          rfl
        · rw [placeIn_eq_zero.mpr ha, placeIn_eq_zero.mpr (by simp [ha, hab])]

end Place

/-- The queue has each request once, all of them of calls that have inserted it. -/
structure PoolSound (s : AtaState) : Prop extends CallsSound s where
  nodup : s.ioPending.Nodup
  owned : ∀ r ∈ s.ioPending, ∃ p, ∃ c ∈ s.calls p, c.request = r ∧ c.point.Queued

/-- The place of the request of a process in the queue. -/
def AtaState.place (s : AtaState) (p : PcbId) : ℕ :=
  (s.calls p).elim 0 fun c => placeIn s.ioPending c.request

/-- The pools are sound, and the count is the place in the queue. -/
structure Counted (x : AtaState × (PcbId → ℕ)) : Prop where
  sound : PoolSound x.1
  ahead : x.2 = x.1.place

section Invariant

variable {p q : PcbId} {node : Bool} {c c' : AtaCall} {s s' : AtaState} {e : AtaEvent}
  {ahead : PcbId → ℕ}

lemma place_of_call (hc : s.calls p = some c) : s.place p = placeIn s.ioPending c.request := by
  rw [place, hc]
  rfl

/-- A request that is not inserted yet, or has been returned, is in no queue. -/
lemma PoolSound.not_mem (hs : PoolSound s) (hc : s.calls p = some c) (h : ¬ c.point.Queued) :
    c.request ∉ s.ioPending := by
  intro hmem
  obtain ⟨q, d, hd, heq, hq⟩ := hs.owned _ hmem
  obtain rfl := hs.distinct q p d hd c hc heq
  obtain rfl : d = c := Option.some.inj (hd.symm.trans hc)
  exact h hq

/-- What is proved is what the invariant is for. -/
lemma PoolSound.returned (hs : PoolSound s) : Returned s where
  unqueued p c hc hp := hs.not_mem hc fun hq => hq.1 hp
  free r hr := by
    obtain ⟨p, c, hc, rfl, -⟩ := hs.owned r hr
    exact hs.taken p c hc
  bounded := by
    rw [← List.toFinset_card_of_nodup hs.nodup]
    refine Finset.card_le_card fun r hr => ?_
    obtain ⟨p, c, hc, rfl, hq⟩ := hs.owned r (List.mem_toFinset.mp hr)
    rw [AtaState.outstanding, Finset.mem_filter]
    refine ⟨Finset.mem_univ _, p, ?_⟩
    rw [Option.mem_def.mp hc]
    simpa using hq.1

/-- A process goes on to another point, with its request. -/
lemma PoolSound.goto (hs : PoolSound s) (hc : s.calls p = some c)
    (hcalls : s'.calls = Function.update s.calls p (some c')) (hr : c'.request = c.request)
    (hfree : s'.freeRequests = s.freeRequests) (hpending : s'.ioPending = s.ioPending)
    (hq : c.request ∈ s.ioPending → c'.point.Queued) : PoolSound s' := by
  refine ⟨hs.toCallsSound.goto hc hcalls hr hfree, hpending ▸ hs.nodup, fun r hr' => ?_⟩
  rw [hpending] at hr'
  obtain ⟨q, d, hd, rfl, hdq⟩ := hs.owned r hr'
  by_cases hqp : q = p
  · subst hqp
    obtain rfl : d = c := Option.some.inj (hd.symm.trans hc)
    exact ⟨q, c', by rw [hcalls, Function.update_self]; rfl, hr, hq hr'⟩
  · exact ⟨q, d, by rw [hcalls, Function.update_of_ne hqp]; exact hd, rfl, hdq⟩

lemma place_goto (hc : s.calls p = some c)
    (hcalls : s'.calls = Function.update s.calls p (some c')) (hr : c'.request = c.request)
    (hpending : s'.ioPending = s.ioPending) : s'.place = s.place := by
  funext q
  by_cases hqp : q = p
  · subst hqp
    rw [place_of_call hc, place_of_call (c := c') (by rw [hcalls, Function.update_self]), hr,
      hpending]
  · rw [place, place, hcalls, Function.update_of_ne hqp, hpending]

/-- The request of a process that leaves the driver goes to the free list. -/
lemma PoolSound.dealloc (hs : PoolSound s) (hc : s.calls p = some c) (hp : c.point = .prepare)
    (hcalls : s'.calls = Function.update s.calls p none)
    (hfree : s'.freeRequests = c.request :: s.freeRequests)
    (hpending : s'.ioPending = s.ioPending) : PoolSound s' ∧ s'.place = s.place := by
  have hnot : c.request ∉ s.ioPending := hs.not_mem hc fun h => h.1 hp
  constructor
  · refine ⟨hs.toCallsSound.dealloc hc hcalls hfree, hpending ▸ hs.nodup, fun r hr => ?_⟩
    rw [hpending] at hr
    obtain ⟨q, d, hd, rfl, hq⟩ := hs.owned r hr
    have hqp : q ≠ p := by
      rintro rfl
      obtain rfl : d = c := Option.some.inj (hd.symm.trans hc)
      exact hnot hr
    exact ⟨q, d, by rw [hcalls, Function.update_of_ne hqp]; exact hd, rfl, hq⟩
  · funext q
    by_cases hqp : q = p
    · subst hqp
      rw [place_of_call hc, placeIn_eq_zero.mpr hnot, place, hcalls, Function.update_self]
      rfl
    · rw [place, place, hcalls, Function.update_of_ne hqp, hpending]

/-- A request is inserted behind all others. -/
lemma PoolSound.enqueue (hs : PoolSound s) (hc : s.calls p = some c) (hp : c.point = .insert)
    (hcalls : s'.calls = Function.update s.calls p (some c')) (hr : c'.request = c.request)
    (hq : c'.point.Queued) (hfree : s'.freeRequests = s.freeRequests)
    (hpending : s'.ioPending = s.ioPending ++ [c.request]) :
    PoolSound s' ∧ s'.place = Function.update s.place p (s.ioPending.length + 1) := by
  have hnot : c.request ∉ s.ioPending := hs.not_mem hc fun h => h.2 hp
  -- first the process goes on, then its request is in the queue
  have hmid : PoolSound { s' with ioPending := s.ioPending } :=
    hs.goto hc hcalls hr hfree rfl fun h => absurd h hnot
  have hc' : s'.calls p = some c' := by rw [hcalls, Function.update_self]
  constructor
  · refine ⟨hmid.toCallsSound.congr rfl rfl, ?_, fun r hr' => ?_⟩
    · rw [hpending, ← List.concat_eq_append]
      exact hs.nodup.concat hnot
    · rw [hpending, List.mem_append, List.mem_singleton] at hr'
      rcases hr' with hr' | rfl
      · exact hmid.owned r hr'
      · exact ⟨p, c', hc', hr, hq⟩
  · funext q
    by_cases hqp : q = p
    · subst hqp
      rw [Function.update_self, place_of_call hc', hr, hpending, placeIn_concat_self hnot]
    · rw [Function.update_of_ne hqp, place, place, hcalls, Function.update_of_ne hqp, hpending]
      cases hd : s.calls q with
      | none => rfl
      | some d =>
          have hne : d.request ≠ c.request := fun heq => hqp (hs.distinct q p d hd c hc heq)
          exact placeIn_concat_of_ne hne

/-- The first entry is taken out. -/
lemma PoolSound.dequeue (hs : PoolSound s) (hcalls : s'.calls = s.calls)
    (hfree : s'.freeRequests = s.freeRequests) (hpending : s'.ioPending = s.ioPending.tail) :
    PoolSound s' ∧ s'.place = fun p => s.place p - 1 := by
  constructor
  · refine ⟨hs.toCallsSound.congr hcalls hfree, ?_, fun r hr => ?_⟩
    · rw [hpending]
      exact hs.nodup.tail
    · rw [hcalls]
      exact hs.owned r (List.mem_of_mem_tail (hpending ▸ hr))
  · funext p
    rw [place, place, hcalls, hpending]
    cases s.calls p with
    | none => rfl
    | some c => exact placeIn_tail hs.nodup

/-- The queue and the calls are as they were. -/
lemma PoolSound.congr (hs : PoolSound s) (hcalls : s'.calls = s.calls)
    (hfree : s'.freeRequests = s.freeRequests) (hpending : s'.ioPending = s.ioPending) :
    PoolSound s' ∧ s'.place = s.place := by
  refine ⟨⟨hs.toCallsSound.congr hcalls hfree, hpending ▸ hs.nodup,
    hcalls ▸ hpending ▸ hs.owned⟩, ?_⟩
  funext p
  rw [place, place, hcalls, hpending]

/-- A process takes a request from the free list. -/
lemma PoolSound.alloc {r : RequestId} {rest : List RequestId} (hs : PoolSound s)
    (hc : s.calls p = none) (hfree : s.freeRequests = r :: rest) (c' : AtaCall)
    (hr : c'.request = r) (hcalls : s'.calls = Function.update s.calls p (some c'))
    (hrest : s'.freeRequests = rest) (hpending : s'.ioPending = s.ioPending) :
    PoolSound s' ∧ s'.place = s.place := by
  constructor
  · refine ⟨hs.toCallsSound.alloc hfree hr hcalls hrest, hpending ▸ hs.nodup, fun r' hr' => ?_⟩
    rw [hpending] at hr'
    obtain ⟨q, d, hd, heq, hq⟩ := hs.owned r' hr'
    have hqp : q ≠ p := by
      rintro rfl
      exact absurd (hd.symm.trans hc) (by simp)
    exact ⟨q, d, by rw [hcalls, Function.update_of_ne hqp]; exact hd, heq, hq⟩
  · funext q
    by_cases hqp : q = p
    · subst hqp
      -- a request in the queue belongs to a call, so it is not free
      have hmem : r ∉ s.ioPending := by
        intro hmem
        obtain ⟨q', d, hd, heq, -⟩ := hs.owned r hmem
        exact hs.taken q' d hd (by rw [heq, hfree]; exact List.mem_cons_self)
      rw [place_of_call (c := c') (by rw [hcalls, Function.update_self]), hr, hpending,
        placeIn_eq_zero.mpr hmem, place, hc]
      rfl
    · rw [place, place, hcalls, Function.update_of_ne hqp, hpending]

/-- The count of a step of a process. -/
lemma countAhead_run (hc : s.calls p = some c) :
    countAhead s (.run p node) ahead
      = if c.point = .insert ∧ node = true ∧ (s.requests c.request).Known then
          Function.update ahead p (s.ioPending.length + 1)
        else ahead := by
  rw [countAhead, hc]

/-- A statement of a process: it keeps the invariant, unless it returns a request that is still
in the queue. -/
lemma Counted.run (hs : PoolSound s) (hc : s.calls p = some c)
    (h : runStep p node c s = .ok s') (hlate : c.point = .done → s.place p = 0) :
    Counted (s', countAhead s (.run p node) s.place) := by
  rw [countAhead_run hc]
  cases runStep_move hc h with
  | call hp hcalls hfree hpending =>
      rw [if_neg (by simp [hp])]
      have hnot : c.request ∉ s.ioPending := hs.not_mem hc fun h => h.1 hp
      exact ⟨hs.goto hc hcalls rfl hfree hpending fun h => absurd h hnot,
        (place_goto hc hcalls rfl hpending).symm⟩
  | dealloc hp hcalls hfree hpending =>
      rw [if_neg (by simp [hp])]
      obtain ⟨hs', hplace⟩ := hs.dealloc hc hp hcalls hfree hpending
      exact ⟨hs', hplace.symm⟩
  | enqueue hp hroom hknown hcalls hfree hpending =>
      rw [if_pos ⟨hp, hroom, hknown⟩]
      obtain ⟨hs', hplace⟩ := hs.enqueue hc hp hcalls rfl (by simp [AtaPoint.Queued]) hfree hpending
      exact ⟨hs', hplace.symm⟩
  | refuse hp hrefused hqueued hcalls hfree hpending =>
      rw [if_neg fun h => hrefused h.2]
      exact ⟨hs.goto hc hcalls rfl hfree hpending fun _ => hqueued,
        (place_goto hc hcalls rfl hpending).symm⟩
  | inside hp hqueued hcalls hfree hpending =>
      rw [if_neg fun h => hp.2 h.1]
      exact ⟨hs.goto hc hcalls rfl hfree hpending fun _ => hqueued,
        (place_goto hc hcalls rfl hpending).symm⟩
  | finish hp hcalls hfree hpending =>
      rw [if_neg (by simp [hp])]
      have hnot : c.request ∉ s.ioPending := by
        rw [← placeIn_eq_zero, ← place_of_call hc]
        exact hlate hp
      exact ⟨hs.goto hc hcalls rfl hfree hpending fun h => absurd h hnot,
        (place_goto hc hcalls rfl hpending).symm⟩

/-- An interrupt counts what it takes out. -/
lemma Counted.interrupt (hs : PoolSound s) (h : ataIsr s = .ok s') :
    Counted (s', countAhead s .interrupt s.place) := by
  obtain ⟨hcalls, hfree, hpending⟩ := ataIsr_frame h
  rw [countAhead]
  split_ifs at hpending ⊢
  · obtain ⟨hs', hplace⟩ := hs.dequeue hcalls hfree hpending
    exact ⟨hs', hplace.symm⟩
  · obtain ⟨hs', hplace⟩ := hs.congr hcalls hfree hpending
    exact ⟨hs', hplace.symm⟩

/-- **One step**: the invariant is kept by a step that returns no request too early. -/
lemma Counted.step (hs : PoolSound s) (h : ataStep s e = .ok s')
    (hlate : ReturnsLate (s, s.place) e) : Counted (s', countAhead s e s.place) := by
  cases e with
  | start p job =>
      rcases ataStep_start h with rfl | ⟨r, rest, hc, hfree, heq⟩
      · exact ⟨hs, rfl⟩
      · have key : PoolSound s' ∧ s'.place = s.place :=
          hs.alloc hc hfree ⟨job, 0, r, .prepare⟩ rfl (by rw [heq]) (by rw [heq]) (by rw [heq]; rfl)
        exact ⟨key.1, key.2.symm⟩
  | run p node =>
      obtain ⟨c, hc, h⟩ := ataStep_run h
      exact .run hs hc h (hlate c hc)
  | interrupt => exact .interrupt hs h
  | settle =>
      have heq := Except.ok.inj h
      have key : PoolSound s' ∧ s'.place = s.place :=
        hs.congr (by rw [← heq]) (by rw [← heq]) (by rw [← heq])
      exact ⟨key.1, key.2.symm⟩

/-- A request that is returned too early is in the queue afterwards. -/
lemma late_of_returned (h : ataStep s e = .ok s')
    (hs' : Returned s') : ReturnsLate (s, s.place) e := by
  cases e with
  | run p node =>
      intro c hc hp
      rw [ataStep, Option.mem_def.mp hc] at h
      simp only [runStep, hp] at h
      obtain rfl := Except.ok.inj h
      change s.place p = 0
      rw [place_of_call hc, placeIn_eq_zero]
      exact hs'.unqueued p { c with i := c.i + 1, point := .prepare } (Function.update_self ..) rfl
  | _ => trivial

end Invariant

/-! ### The proof -/

/-- **The lifetime of a request**, in runs of the steps. -/
lemma returned_iff {s₀ s : AtaState} {es : List AtaEvent} (h₀ : AtaInitial s₀)
    (h : Transition.Run ataStep (fun _ _ => True) s₀ es s) :
    Throughout ataStep (fun _ _ => True) Returned s₀ es
      ↔ ∀ t ∈ trace (noted ataStep countAhead) (s₀, fun _ => 0) es,
        ReturnsLate t.before t.event := by
  have hs : Counted (s₀, fun _ => 0) := by
    refine ⟨⟨h₀.callsSound, ?_, ?_⟩, ?_⟩
    · simp [h₀.pending]
    · simp [h₀.pending]
    · funext p
      simp [place, h₀.calls p]
  obtain ⟨n, h'⟩ := h.exists_noted countAhead fun _ => 0
  rw [← throughout_noted countAhead fun _ => 0]
  refine h'.always_iff_of hs (fun x hx => hx.sound.returned) fun x e x' hx _ hstep => ?_
  obtain ⟨hstep, hnote⟩ := noted_ok.mp hstep
  obtain ⟨s, ahead⟩ := x
  obtain ⟨s', ahead'⟩ := x'
  obtain rfl : ahead = s.place := hx.ahead
  obtain rfl : countAhead s e s.place = ahead' := hnote
  exact ⟨late_of_returned hstep, .step hx.sound hstep⟩

/-- **The lifetime of a request**: it is returned in no queue, and the queue has no others than
the requests that are outstanding, throughout a run in which no section is disturbed, exactly if no
process returns from `_ata_request` before as many interrupts have found no request pending as there
were entries in `_ata_io_pending` when it had inserted its own. -/
theorem requests_returned {s₀ : AtaState} {x : AtaSystem} {es : List AtaSystemEvent}
    (h₀ : AtaInitial s₀)
    (h : Transition.Run ataSystemStep (Unbroken ataSections) (.start PcbId s₀) es x) :
    Throughout ataSystemStep (Unbroken ataSections) (fun x => Returned x.state)
        (.start PcbId s₀) es
      ↔ ∀ t ∈ trace (noted ataStep countAhead) (s₀, fun _ => 0) (es.flatMap SectionEvent.steps),
        ReturnsLate t.before t.event := by
  have hsteps : ∀ (x : AtaSystem) e, Unbroken ataSections x e →
      StepMeets (fun _ _ => True) x e := fun x e _ => by cases e <;> trivial
  rw [h.throughout_machine hsteps]
  exact returned_iff h₀ (h.machine hsteps)

/-- A process reads a block. The given events come when it has inserted its request, and the
interrupt of the drive while it waits. -/
def readsBlock (early : List AtaSystemEvent) : List AtaSystemEvent :=
  ataBegin 1 (ataReadData 0 1 0x1000) ++ early ++ ataRuns 1 14
    ++ [.step .settle, .step .interrupt] ++ ataRuns 1 2 ++ [.enter 1, .step (.run 1 true)]

/-- With an interrupt while no request is pending yet, the request is returned in no queue. -/
theorem requests_returned_read :
    Throughout ataSystemStep (Unbroken ataSections) (fun x => Returned x.state) ataSystemStart
      (readsBlock [.step .interrupt]) := by
  obtain ⟨x, h, -⟩ := exists_run ataSystemStep (Unbroken ataSections) ataSystemStart
    (readsBlock [.step .interrupt]) (f := fun x => x.state.freeRequests.head?)
    (b := some firstRequest) (by decide +kernel)
  exact (requests_returned ataInitial_start h).mpr (by decide +kernel)

/-- Without one, the request of a block that has been read stays in `_ata_io_pending` when it goes
to the free list, and no call is in the driver any more. -/
theorem request_leaks : ∃ x : AtaSystem,
    Transition.Run ataSystemStep (Unbroken ataSections) ataSystemStart (readsBlock []) x
    ∧ x.state.ioPending = [firstRequest] ∧ x.state.freeRequests.head? = some firstRequest
    ∧ x.state.outstanding.card = 0 ∧ ¬ Returned x.state := by
  obtain ⟨x, h, hx⟩ := exists_run ataSystemStep (Unbroken ataSections) ataSystemStart
    (readsBlock []) (f := fun x => (x.state.ioPending, x.state.freeRequests.head?,
      x.state.outstanding.card)) (b := ([firstRequest], some firstRequest, 0)) (by decide +kernel)
  obtain ⟨hpending, hfree, hcard⟩ : x.state.ioPending = [firstRequest]
      ∧ x.state.freeRequests.head? = some firstRequest ∧ x.state.outstanding.card = 0 := by
    simpa using hx
  refine ⟨x, h, hpending, hfree, hcard, fun hr => ?_⟩
  have hbound := hr.bounded
  rw [hpending, hcard] at hbound
  exact absurd hbound (by simp)

end Sp2
