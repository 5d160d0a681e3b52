import Sp2.Lib.Progress
import Sp2.Properties.SerialOutput

/-!
How soon serial output leaves.

* `transmits`: the number of transmitter interrupts that a serial interrupt handles.
* `Sio.txInterrupt_gains`, `rounds_gain`, `step_gains`: a transmitter interrupt hands a byte over
  while there are any, so do all those of one event, and no event takes a byte back.
* `sent_within`: **the first `n` bytes that wait are sent within `n` transmitter interrupts**.
-/

namespace Sp2

open Transition

/-- The number of transmitter interrupts among the events that the device reports. -/
def transmits : Event → ℕ
  | .sio _ polls => (served polls).countP (isTx ·)
  | _ => 0

/-- The output buffer is in order, and the bytes sent and left start with `base`. -/
structure Outputs (base : List UInt8) (s : KState) : Prop where
  sound : Sound s
  bounded : s.sio.Bounded
  sent : base <+: s.sio.sent

section Rounds

variable {base : List UInt8} {cfg : Config} {s s' : KState} {e : Event} {context : Context}
  {es : List Event} {polls : List (UInt8 × UInt8)} {poll : UInt8 × UInt8} {n : ℕ}

lemma Sio.length_sent (s : Sio) : s.sent.length = s.txd.length + s.outbuffer.contents.length := by
  rw [Sio.sent, List.length_append, List.length_reverse]

/-- **A transmitter interrupt** hands a byte over, unless all have been. -/
lemma Sio.txInterrupt_gains {s : Sio} (hs : s.Sends) :
    min (s.txd.length + 1) s.sent.length ≤ s.txInterrupt.txd.length := by
  by_cases h : (s.sending && decide (0 < s.outbuffer.count)) = true
  · rw [txInterrupt, if_pos h]
    exact Nat.min_le_left _ _
  · have hnil : s.outbuffer.contents = [] := by
      by_cases hsending : s.sending = true
      · refine hs.fits.contents_eq_nil ?_
        rw [hsending, Bool.true_and, decide_eq_true_eq] at h
        by_contra hne
        exact h (UInt32.pos_iff_ne_zero.mpr hne)
      · exact contents_of_idle hs.idle (Bool.eq_false_iff.mpr hsending)
    rw [txInterrupt, if_neg h, Sio.length_sent, hnil]
    exact Nat.min_le_right _ _

lemma Sio.length_txd_sioWrite {s : Sio} {ch : UInt32} :
    s.txd.length ≤ (s.sioWrite ch).txd.length := by
  have hsend (s : Sio) (ch : UInt8) : s.txd.length ≤ (s.sioSend ch).txd.length := by
    rw [sioSend]
    split_ifs
    · exact le_rfl
    · exact Nat.le_succ _
  rw [sioWrite]
  split_ifs
  · exact (hsend _ _).trans (hsend _ _)
  · exact hsend _ _

/-- Other functions leave the output alone. -/
lemma Outputs.of_same (h : Outputs base s) (hs' : Sound s') (hsame : Sio.SameOutput s.sio s'.sio) :
    Outputs base s' :=
  ⟨hs', ⟨hsame.sends h.bounded.toSends, hsame.outbuffer ▸ h.bounded.inside⟩, hsame.sent ▸ h.sent⟩

lemma not_isTx_of_isRx (h : isRx poll) : ¬ isTx poll := fun htx =>
  absurd (h.symm.trans htx) (by decide)

/-- **A round**, as far as the output goes. -/
lemma round_gains (h : Outputs base s) (hstep : sioRound s poll = .ok s') :
    Outputs base s' ∧ min (s.sio.txd.length + if isTx poll then 1 else 0) base.length
      ≤ s'.sio.txd.length := by
  obtain ⟨hround, hs'⟩ := h.sound.round hstep
  have hlen := h.sent.length_le
  have hkept (hrx : isRx poll) (hsame : Sio.SameOutput s.sio s'.sio) :
      Outputs base s' ∧ min (s.sio.txd.length + if isTx poll then 1 else 0) base.length
        ≤ s'.sio.txd.length := by
    rw [if_neg (not_isTx_of_isRx hrx), hsame.txd]
    exact ⟨h.of_same hs' hsame, Nat.min_le_left _ _⟩
  cases hround with
  | transmit is_tx =>
      obtain ⟨hsends, hsent⟩ := Sio.txInterrupt_sent h.bounded.toSends
      have hgain := Sio.txInterrupt_gains h.bounded.toSends
      refine ⟨⟨hs', ⟨hsends, Sio.txInterrupt_overrun.trans h.bounded.inside⟩,
        hsent.symm ▸ h.sent⟩, ?_⟩
      rw [if_pos is_tx]
      dsimp only
      omega
  | wake is_rx is_first moves current eax => exact hkept is_rx (.refl _)
  | store is_rx nobody room => exact hkept is_rx ⟨rfl, rfl, rfl⟩
  | drop is_rx nobody full => exact hkept is_rx (.refl _)

/-- The rounds of one interrupt. -/
lemma rounds_gain (h : Outputs base s)
    (hrun : Transition.Run sioRound (fun _ _ => True) s polls s') :
    Outputs base s' ∧ min (s.sio.txd.length + polls.countP (isTx ·)) base.length
      ≤ s'.sio.txd.length := by
  have hgains := hrun.gains (I := Outputs base) (m := fun s => s.sio.txd.length)
    (w := fun poll => if isTx poll then 1 else 0) h fun _ _ _ h _ hstep => round_gains h hstep
  rwa [sum_map_weight] at hgains

/-- **A step**: every transmitter interrupt in it hands a byte over. -/
lemma step_gains (h : Outputs base s) (hfit : WriteFits s e) (hstep : step cfg s e = .ok s') :
    Outputs base s' ∧ min (s.sio.txd.length + transmits e) base.length ≤ s'.sio.txd.length := by
  by_cases hsio : ∃ context polls, e = .sio context polls
  · obtain ⟨context, polls, rfl⟩ := hsio
    have hsave : Outputs base (s.isrSave context) :=
      h.of_same (isrSave_sound context h.sound) (isrSave_sio (s := s) ▸ .refl _)
    have hrounds := rounds_gain hsave (isrSio_ok_iff.mp hstep)
    rwa [isrSave_sio] at hrounds
  · have hnone : transmits e = 0 := by
      cases e <;> first | rfl | exact absurd ⟨_, _, rfl⟩ hsio
    have hs' := step_sound h.sound hstep
    rw [hnone, Nat.add_zero]
    rcases step_output_cases h.sound hstep with
      ⟨context, args, rfl, hnum, heq⟩ | ⟨context, polls, rfl, -⟩ | ⟨-, hsame⟩
    · have hb := Sio.sioWrite_bounded h.bounded (hfit hnum)
      have hsent := (Sio.sioWrite_sent h.bounded.toSends hb.inside).2
      refine ⟨⟨hs', heq ▸ hb, ?_⟩, (Nat.min_le_left _ _).trans ?_⟩
      · rw [heq, hsent]
        exact h.sent.trans (List.prefix_append _ _)
      · rw [heq]
        exact Sio.length_txd_sioWrite
    · exact absurd ⟨context, polls, rfl⟩ hsio
    · rw [hsame.txd]
      exact ⟨h.of_same hs' hsame, Nat.min_le_left _ _⟩

lemma reachable_bounded (h : Reachable cfg WriteFits s) : Sound s ∧ s.sio.Bounded := by
  refine h.invariant (J := fun s => Sound s ∧ s.sio.Bounded)
    (fun s h => ⟨initial_sound h, (initial_sends h).1, ?_⟩) ?_
  · rw [initial_sio h]
    rfl
  · rintro s e s' ⟨hs, hb⟩ hfit h
    exact ⟨step_sound hs h, step_output_bounded hs hb hfit h⟩

/-- **Output leaves soon**: the bytes that wait follow those that have been sent, and the first `n`
of them have left once `n` transmitter interrupts have been handled, whatever is written
meanwhile. -/
theorem sent_within (hs : Reachable cfg WriteFits s) (h : Run cfg WriteFits s es s')
    (hn : n ≤ s.sio.outbuffer.contents.length) (hcount : n ≤ (es.map transmits).sum) :
    s.sio.txd.reverse ++ s.sio.outbuffer.contents.take n <+: s'.sio.txd.reverse := by
  obtain ⟨hsound, hb⟩ := reachable_bounded hs
  have hfirst : s.sio.txd.reverse ++ s.sio.outbuffer.contents.take n <+: s.sio.sent :=
    (List.prefix_append_right_inj _).mpr (List.take_prefix _ _)
  obtain ⟨hout, hgain⟩ := h.gains
    (I := Outputs (s.sio.txd.reverse ++ s.sio.outbuffer.contents.take n))
    (m := fun s => s.sio.txd.length) (w := transmits) ⟨hsound, hb, hfirst⟩
    fun _ _ _ h hfit hstep => step_gains h hfit hstep
  rw [List.length_append, List.length_reverse, List.length_take, Nat.min_eq_left hn] at hgain
  -- both are the beginning of what is sent in the end
  refine List.prefix_of_prefix_length_le hout.sent (List.prefix_append _ _) ?_
  rw [List.length_append, List.length_reverse, List.length_reverse, List.length_take,
    Nat.min_eq_left hn]
  omega

end Rounds

/-- The first process writes two new lines. -/
def twoLines : List Event := [call 6 [10], call 6 [10]]

/-- A character is written, and the device asks for two. -/
def askedTwice : List Event :=
  [call 6 [105], .sio Context.zero [(0x02, 0), (0x02, 0), (0x01, 0)]]

/-- Two of the three bytes that wait are sent when the device has asked for them. -/
theorem sent_within_lines : ∃ s s', Reachable demoConfig WriteFits s
    ∧ Run demoConfig WriteFits s askedTwice s'
    ∧ s.sio.txd.reverse ++ s.sio.outbuffer.contents.take 2 <+: s'.sio.txd.reverse := by
  obtain ⟨s, hrun, hs⟩ := exists_run (step demoConfig) WriteFits bootState twoLines
    (f := fun s => (decide (2 ≤ s.sio.outbuffer.contents.length),
      (exec (step demoConfig) WriteFits s askedTwice).map fun _ => ()))
    (b := (true, some ())) (by decide +kernel)
  obtain ⟨hwaiting, hrest⟩ := Prod.mk.inj hs
  obtain ⟨s', hrun', -⟩ := exists_run _ _ _ _ hrest
  have hreach : Reachable demoConfig WriteFits s :=
    Reachable.run (.of_init initial_bootState) hrun
  exact ⟨s, s', hreach, hrun', sent_within hreach hrun' (of_decide_eq_true hwaiting) (by decide)⟩

end Sp2
