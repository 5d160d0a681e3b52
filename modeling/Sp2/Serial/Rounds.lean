import Sp2.Lib.Flow
import Sp2.Serial.Buffer
import Sp2.Table.Events

/-!
The serial interrupt as a run of rounds, and who waits for a character.

* `sioRound`, `served`: one round of the loop of `_isr_sio`, and the rounds in which an
  event is pending; `isrSio_ok_iff` makes the interrupt a run of them.
* `Round`: **what a round can do**: transmit, wake a reader up, store a character or drop
  it.
* `Move.ids_reading`, `Moves.ids_reading`: only a read that finds nothing and a wake-up
  change who waits.
* `isrSio_sound`: the rounds keep a state sound.
-/

namespace Sp2

open ProcTable Procs

/-! ### Rounds -/

/-- The pending event is a transmitter interrupt. -/
def isTx (poll : UInt8 × UInt8) : Prop := poll.1 &&& 0x0f = 0x02

/-- The pending event is a received character. -/
def isRx (poll : UInt8 × UInt8) : Prop := poll.1 &&& 0x0f = 0x04

instance (poll : UInt8 × UInt8) : Decidable (isTx poll) :=
  inferInstanceAs (Decidable (_ = _))

instance (poll : UInt8 × UInt8) : Decidable (isRx poll) :=
  inferInstanceAs (Decidable (_ = _))

/-- One round of the loop of `_isr_sio` in which an event is pending. -/
def sioRound (s : KState) (poll : UInt8 × UInt8) : Res KState :=
  if isTx poll then .ok { s with sio := s.sio.txInterrupt }
  else if isRx poll then rxInterrupt poll.2 s
  else .error (.panic .deviceStatus, s)

/-- The rounds before the first one in which no event is pending. -/
def served (polls : List (UInt8 × UInt8)) : List (UInt8 × UInt8) :=
  polls.takeWhile fun poll => decide (poll.1 &&& 0x0f ≠ 0x01)

/-- **The interrupt routine is a run of its rounds.** -/
lemma isrSio_ok_iff {polls : List (UInt8 × UInt8)} {s s' : KState} :
    isrSio polls s = .ok s' ↔ Transition.Run sioRound (fun _ _ => True) s (served polls) s' := by
  induction polls generalizing s with
  | nil =>
      rw [isrSio, served, List.takeWhile_nil, Transition.run_nil, Except.ok.injEq]
      exact eq_comm
  | cons poll polls ih =>
      by_cases hnone : poll.1 &&& 0x0f = 0x01
      · have hserved : served (poll :: polls) = [] := by simp [served, hnone]
        rw [hserved, Transition.run_nil]
        simp only [isrSio, hnone]
        simp [eq_comm]
      · have hserved : served (poll :: polls) = poll :: served polls := by simp [served, hnone]
        rw [hserved, Transition.run_cons]
        simp only [isrSio, hnone, if_false, sioRound, true_and]
        by_cases htx : isTx poll
        · have h : poll.1 &&& 0x0f = 0x02 := htx
          simp [htx, h, ih]
        · have h : ¬ poll.1 &&& 0x0f = 0x02 := htx
          by_cases hrx : isRx poll
          · have h' : poll.1 &&& 0x0f = 0x04 := hrx
            simp only [if_neg htx, if_pos hrx, if_neg h, if_pos h']
            cases rxInterrupt poll.2 s with
            | ok t => simp [ih]
            | error _ => simp
          · have h' : ¬ poll.1 &&& 0x0f = 0x04 := hrx
            simp [htx, hrx, h, h']

/-- **What a round can do.** -/
inductive Round (s : KState) (poll : UInt8 × UInt8) : KState → Prop
  | transmit (is_tx : isTx poll) : Round s poll { s with sio := s.sio.txInterrupt }
  /-- The first waiting process gets the character. -/
  | wake {p : PcbId} {ps : Procs} (is_rx : isRx poll) (is_first : s.table.At p (.queue .reading))
      (moves : Move (.requeue (.queue .reading) p) s.table (ps.table ps.current))
      (current : ps.current = s.procs.current)
      (eax : (ps.pcbs p).context.map Context.eax = some (received poll.2).toUInt32) :
      Round s poll { s with procs := ps }
  | store (is_rx : isRx poll) (nobody : s.table.queue .reading = [])
      (room : s.sio.inbuffer.count < UInt32.ofNat bufSize) :
      Round s poll
        { s with sio := { s.sio with inbuffer := s.sio.inbuffer.put (received poll.2) } }
  | drop (is_rx : isRx poll) (nobody : s.table.queue .reading = [])
      (full : ¬ s.sio.inbuffer.count < UInt32.ofNat bufSize) : Round s poll s

section Rounds

variable {s s' : KState} {poll : UInt8 × UInt8} {polls : List (UInt8 × UInt8)} {p : PcbId}

lemma sioRound_round (hc : Core s.table) (h : sioRound s poll = .ok s') : Round s poll s' := by
  rw [sioRound] at h
  by_cases htx : isTx poll
  · rw [if_pos htx] at h
    obtain rfl := Except.ok.inj h
    exact .transmit htx
  · rw [if_neg htx] at h
    by_cases hrx : isRx poll
    · rw [if_pos hrx] at h
      by_cases hempty : s.table.queue .reading = []
      · rw [rxInterrupt_buffer hempty] at h
        obtain rfl := Except.ok.inj h
        split_ifs with hroom
        · exact .store hrx hempty hroom
        · exact .drop hrx hempty hroom
      · obtain ⟨p, hp⟩ := exists_head hempty
        obtain ⟨ps, heq, hps, hcur, hmove⟩ := rxInterrupt_wake poll.2 hc hp
        obtain rfl := Except.ok.inj (heq.symm.trans h)
        refine .wake hrx hp (by rwa [hcur]) hcur ?_
        -- scheduling leaves the save area alone, which the process has, being in use
        have hsaved : (s.procs.pcbs p).context.isSome = true :=
          hc.saved p (hc.used_of_at (.queue .reading) hp (by simp))
        obtain ⟨context, hcontext⟩ := Option.isSome_iff_exists.mp hsaved
        rw [hps, keeps_schedule.context, setEax_context, if_pos rfl]
        change Option.map Context.eax (((s.procs.pcbs p).context).map _) = _
        rw [hcontext]
        rfl
    · rw [if_neg hrx] at h
      cases h

/-- A round makes at most the move that wakes a reader up. -/
lemma Round.moves (h : Round s poll s') (hcur : s.procs.current ≠ none) :
    Moves (fun l => ∃ p, l = .requeue (.queue .reading) p) s.table s'.table
      ∧ s'.procs.current ≠ none := by
  cases h with
  | transmit is_tx => exact ⟨Moves.refl _, hcur⟩
  | @wake p ps is_rx is_first moves current eax =>
      exact ⟨Moves.single moves ⟨p, rfl⟩, by rwa [← current] at hcur⟩
  | store is_rx nobody room => exact ⟨Moves.refl _, hcur⟩
  | drop is_rx nobody full => exact ⟨Moves.refl _, hcur⟩

/-- A round keeps a state sound. -/
lemma Round.sound (h : Round s poll s') (hs : Sound s) : Sound s' := by
  obtain ⟨hms, hcur⟩ := h.moves hs.runs
  refine ⟨hms.core hs.core, hcur, ?_⟩
  exact hms.invariant hs.core (I := fun t => t.requests = noRequests) hs.no_requests
    fun l t t' _ _ hm hI => hm.requests_eq.trans hI

lemma isrSave_sound (context : Context) (hs : Sound s) : Sound (s.isrSave context) := by
  have htable := isrSave_table context hs.core
  refine ⟨htable ▸ hs.core, ?_, htable ▸ hs.no_requests⟩
  rw [isrSave_current]
  exact hs.runs

/-- A round of a sound state. -/
lemma Sound.round (hs : Sound s) (h : sioRound s poll = .ok s') :
    Round s poll s' ∧ Sound s' := by
  have hround := sioRound_round hs.core h
  exact ⟨hround, hround.sound hs⟩

end Rounds

/-! ### Who waits for a character -/

namespace ProcTable

section Reading

variable {t t' : ProcTable} {l : Label} {p : PcbId} {P : Label → Prop}

/-- Whoever else moves, the readers stay. -/
lemma Move.queue_reading (hm : Move l t t') (hblock : ∀ p, l ≠ .block p)
    (hwake : ∀ p, l ≠ .requeue (.queue .reading) p) : t'.queue .reading = t.queue .reading :=
  hm.queue_waiting (Or.inr rfl) (by simp) (fun _ => hblock) hwake

lemma Moves.queue_reading (hms : Moves P t t') (hc : Core t)
    (hP : ∀ l, P l → (∀ p, l ≠ .block p) ∧ ∀ p, l ≠ .requeue (.queue .reading) p) :
    t'.queue .reading = t.queue .reading :=
  hms.invariant hc (I := fun u => u.queue .reading = t.queue .reading) rfl
    fun l _ _ hl _ hm hu => (hm.queue_reading (hP l hl).1 (hP l hl).2).trans hu

/-- A process that waits is the last of the readers. -/
lemma Move.ids_block (hm : Move (.block p) t t') : t'.ids .reading = t.ids .reading ++ [p] := by
  cases hm with
  | block is_cur has_node =>
      have hnode : ((t.take .cur).setStatus p .blocked).avail ≠ 0 := has_node
      simp only [ids, push, if_neg hnode, Function.update_self, PcbQueue.insertItem,
        List.map_append]
      rfl

/-- The process that is woken up was the first of the readers. -/
lemma Move.ids_wake (hm : Move (.requeue (.queue .reading) p) t t') :
    t.ids .reading = p :: t'.ids .reading := by
  cases hm with
  | @requeue _ _ p level is_next is_process is_level =>
      have hqueue : (((t.take (.queue .reading)).setStatus p .ready).push (.ready level) p).ids
          .reading = (t.ids .reading).tail := by
        rw [ids, push_queue_of_ne (by simp)]
        simp [take, pop, ids]
      rw [hqueue]
      exact (List.cons_head?_tail is_next).symm

end Reading

end ProcTable

end Sp2
