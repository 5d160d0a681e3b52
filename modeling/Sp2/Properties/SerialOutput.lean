import Sp2.Properties.SerialInput

/-!
Serial output.

* `Sio.Sends`, `Sio.sent`: what holds of the output variables, and the bytes that have been
  handed to the transmitter followed by those that wait in `_outbuffer`.
* `sioWrite_sent`, `txInterrupt_sent`: a write appends its character, a LF as CR LF, and the
  transmitter interrupt changes nothing of it.
* `output_ordered`: **the bytes leave in the order in which they were written**, while no
  store has fallen outside `_outbuffer`, and an idle transmitter has left none.
* `WriteFits`, `output_bounds`: the bounds of `_outbuffer` hold in every run in which what
  a write stores has room. `_sio_write` does not test it.
* `output_overruns`: more than a buffer written before the first interrupt.
-/

namespace Sp2

open ProcTable Procs Transition

/-- A character as it is sent: a LF is CR LF. -/
def expand (ch : UInt32) : List UInt8 :=
  if ch = lineFeed.toUInt32 then [carriageReturn, lineFeed] else [ch.toUInt8]

/-- The bytes that an event wants sent. -/
def written (_ : KState) : Event → List UInt8
  | .syscall context args =>
      if SysCall.ofNum context.eax = .write then expand (args 0) else []
  | _ => []

/-! ### The output variables -/

namespace Sio

variable {s s' : Sio} {ch : UInt8}

/-- The bytes sent so far, followed by those in the buffer. -/
def sent (s : Sio) : List UInt8 := s.txd.reverse ++ s.outbuffer.contents

/-- **An idle transmitter has left nothing.** -/
def Idle (s : Sio) : Prop :=
  s.sending = false → s.outbuffer.next = s.outbuffer.last ∧ s.outbuffer.count = 0

/-- The pointers of the buffer are right, and an idle transmitter has left nothing. -/
structure Sends (s : Sio) : Prop where
  fits : s.outbuffer.Fits
  idle : s.Idle

/-- The output variables are the same. -/
structure SameOutput (s s' : Sio) : Prop where
  outbuffer : s'.outbuffer = s.outbuffer
  sending : s'.sending = s.sending
  txd : s'.txd = s.txd

lemma SameOutput.refl (s : Sio) : SameOutput s s := ⟨rfl, rfl, rfl⟩

lemma SameOutput.idle (h : SameOutput s s') (hs : s.Idle) : s'.Idle := by
  intro hidle
  rw [h.outbuffer]
  exact hs (h.sending ▸ hidle)

lemma SameOutput.sends (h : SameOutput s s') (hs : s.Sends) : s'.Sends :=
  ⟨h.outbuffer ▸ hs.fits, h.idle hs.idle⟩

lemma SameOutput.sent (h : SameOutput s s') : s'.sent = s.sent := by
  rw [Sio.sent, Sio.sent, h.txd, h.outbuffer]

lemma contents_of_idle (hs : s.Idle) (h : s.sending = false) : s.outbuffer.contents = [] := by
  rw [SioBuffer.contents, (hs h).1, Nat.sub_self]
  rfl

/-! ### Writing -/

lemma sioSend_sending : (s.sioSend ch).sending = true := by
  rw [sioSend]
  split_ifs with h
  · exact h
  · rfl

/-- A transmitter that has been started is not idle. -/
lemma sioSend_idle : (s.sioSend ch).Idle := fun h =>
  absurd (h.symm.trans sioSend_sending) (by simp)

/-- A byte goes to the device, or to the buffer if it has room. -/
lemma sioSend_outbuffer : (s.sioSend ch).outbuffer
    = if s.sending then s.outbuffer.put ch else s.outbuffer := by
  rw [sioSend]
  split_ifs <;> rfl

lemma sioSend_overrun (h : (s.sioSend ch).outbuffer.overrun = false) :
    s.outbuffer.overrun = false ∧ (s.sending = true → s.outbuffer.last < bufSize) := by
  rw [sioSend_outbuffer] at h
  split_ifs at h with hsending
  · have hput := SioBuffer.overrun_put.mp h
    exact ⟨hput.1, fun _ => hput.2⟩
  · exact ⟨h, fun hs => absurd hs hsending⟩

/-- **A byte** is the last to be sent, whichever way it takes. -/
lemma sioSend_sent (ch : UInt8) (hs : s.Sends)
    (hroom : s.sending = true → s.outbuffer.last < bufSize) :
    (s.sioSend ch).Sends ∧ (s.sioSend ch).sent = s.sent ++ [ch] := by
  by_cases hsending : s.sending = true
  · have heq : s.sioSend ch = { s with outbuffer := s.outbuffer.put ch } := by
      rw [sioSend, if_pos hsending]
    obtain ⟨hfits, hcontents⟩ := hs.fits.put ch (hroom hsending)
    refine ⟨⟨by rw [heq]; exact hfits, sioSend_idle⟩, ?_⟩
    rw [heq, sent, sent, hcontents, List.append_assoc]
  · have heq : s.sioSend ch = ({ s with sending := true }).outTxd ch := by
      rw [sioSend, if_neg hsending]
    have hnil := contents_of_idle hs.idle (Bool.eq_false_iff.mpr hsending)
    refine ⟨⟨by rw [heq]; exact hs.fits, sioSend_idle⟩, ?_⟩
    rw [heq]
    change (ch :: s.txd).reverse ++ s.outbuffer.contents = s.txd.reverse ++ s.outbuffer.contents
      ++ [ch]
    rw [hnil, List.append_nil, List.append_nil, List.reverse_cons]

lemma sioWrite_lineFeed : s.sioWrite lineFeed.toUInt32
    = (s.sioSend carriageReturn).sioSend lineFeed := by
  rw [sioWrite, if_pos rfl]
  rfl

lemma sioWrite_other {ch : UInt32} (h : ch ≠ lineFeed.toUInt32) :
    s.sioWrite ch = s.sioSend ch.toUInt8 := by
  rw [sioWrite, if_neg h]

lemma sioWrite_idle {ch : UInt32} : (s.sioWrite ch).Idle := by
  rw [sioWrite]
  exact sioSend_idle

lemma sioWrite_overrun {ch : UInt32} (h : (s.sioWrite ch).outbuffer.overrun = false) :
    s.outbuffer.overrun = false := by
  by_cases hlf : ch = lineFeed.toUInt32
  · subst hlf
    rw [sioWrite_lineFeed] at h
    exact (sioSend_overrun (sioSend_overrun h).1).1
  · rw [sioWrite_other hlf] at h
    exact (sioSend_overrun h).1

/-- **A write** appends its character, a LF as CR LF. -/
lemma sioWrite_sent {ch : UInt32} (hs : s.Sends)
    (hq : (s.sioWrite ch).outbuffer.overrun = false) :
    (s.sioWrite ch).Sends ∧ (s.sioWrite ch).sent = s.sent ++ expand ch := by
  by_cases hlf : ch = lineFeed.toUInt32
  · subst hlf
    rw [sioWrite_lineFeed] at hq ⊢
    obtain ⟨hq₁, hroom₁⟩ := sioSend_overrun hq
    obtain ⟨hs₁, hsent₁⟩ := sioSend_sent carriageReturn hs (sioSend_overrun hq₁).2
    obtain ⟨hs₂, hsent₂⟩ := sioSend_sent lineFeed hs₁ hroom₁
    refine ⟨hs₂, ?_⟩
    rw [hsent₂, hsent₁, expand, if_pos rfl, List.append_assoc]
    rfl
  · rw [sioWrite_other hlf] at hq ⊢
    rw [expand, if_neg hlf]
    exact sioSend_sent _ hs (sioSend_overrun hq).2

/-! ### The transmitter interrupt -/

lemma txInterrupt_overrun : s.txInterrupt.outbuffer.overrun = s.outbuffer.overrun := by
  rw [txInterrupt]
  split_ifs <;> rfl

lemma txInterrupt_idle : s.txInterrupt.Idle := by
  intro hidle
  rw [txInterrupt] at hidle ⊢
  split_ifs at hidle ⊢ with h
  · -- a byte has been sent, so that the transmitter is not idle
    have hsending : s.sending = true := by
      rw [Bool.and_eq_true] at h
      exact h.1
    exact absurd (hidle.symm.trans hsending) (by simp)
  · exact ⟨rfl, rfl⟩

/-- **The transmitter interrupt** moves a byte from the buffer to the device, or finds none
left. -/
lemma txInterrupt_sent (hs : s.Sends) : s.txInterrupt.Sends ∧ s.txInterrupt.sent = s.sent := by
  by_cases h : (s.sending && decide (0 < s.outbuffer.count)) = true
  · have heq : s.txInterrupt
        = { (s.outTxd s.outbuffer.peek) with outbuffer := s.outbuffer.drop } := by
      rw [txInterrupt, if_pos h]
    have hcount : 0 < s.outbuffer.count := by
      rw [Bool.and_eq_true, decide_eq_true_eq] at h
      exact h.2
    obtain ⟨hfits, hcontents⟩ := hs.fits.drop hcount
    refine ⟨⟨by rw [heq]; exact hfits, txInterrupt_idle⟩, ?_⟩
    rw [heq]
    change (s.outbuffer.peek :: s.txd).reverse ++ s.outbuffer.drop.contents = s.sent
    rw [sent, ← hcontents, List.reverse_cons, List.append_assoc]
    rfl
  · have heq : s.txInterrupt = { s with
        outbuffer := { s.outbuffer.rewind with count := 0 }, sending := false } := by
      rw [txInterrupt, if_neg h]
    have hnil : s.outbuffer.contents = [] := by
      by_cases hsending : s.sending = true
      · refine hs.fits.contents_eq_nil ?_
        rw [hsending, Bool.true_and, decide_eq_true_eq] at h
        by_contra hne
        exact h (UInt32.pos_iff_ne_zero.mpr hne)
      · exact contents_of_idle hs.idle (Bool.eq_false_iff.mpr hsending)
    refine ⟨⟨?_, txInterrupt_idle⟩, ?_⟩
    · rw [heq]
      exact ⟨le_rfl, Nat.zero_le _, rfl⟩
    · rw [heq, sent, sent, hnil]
      rfl

end Sio

/-! ### Steps -/

section Steps

variable {cfg : Config} {s s' : KState} {e : Event} {p : PcbId} {poll : UInt8 × UInt8}
  {context : Context} {args : Args}

/-- What a round does to the output. -/
lemma Round.output (h : Round s poll s') :
    s'.sio = s.sio.txInterrupt ∨ Sio.SameOutput s.sio s'.sio := by
  cases h with
  | transmit is_tx => exact Or.inl rfl
  | wake is_rx is_first moves current eax => exact Or.inr (.refl _)
  | store is_rx nobody room => exact Or.inr ⟨rfl, rfl, rfl⟩
  | drop is_rx nobody full => exact Or.inr (.refl _)

/-- A write is `_sio_write` of its argument. -/
lemma step_write (hs : Sound s) (hnum : SysCall.ofNum context.eax = .write)
    (h : step cfg s (.syscall context args) = .ok s') : s'.sio = s.sio.sioWrite (args 0) := by
  obtain ⟨p, hcur⟩ := hs.exists_cur
  rw [step_syscall hcur] at h
  rw [(sysHandler_frame h).2, isrSave_sio, hnum]
  rfl

/-- **Every event** but a write and a serial interrupt leaves the output alone. -/
lemma step_output_frame (hs : Sound s) (h : step cfg s e = .ok s')
    (hwrite : e.call ≠ some .write) (hsio : ∀ context polls, e ≠ .sio context polls) :
    Sio.SameOutput s.sio s'.sio := by
  obtain ⟨p, hcur⟩ := hs.exists_cur
  cases e with
  | syscall context args =>
      rw [step_syscall hcur] at h
      rw [(sysHandler_frame h).2, isrSave_sio]
      have hcall : SysCall.ofNum context.eax ≠ .write := fun h => hwrite (congrArg some h)
      cases hnum : SysCall.ofNum context.eax
      case write => exact absurd hnum hcall
      case read =>
        change Sio.SameOutput s.sio s.sio.sioRead.2
        rw [Sio.sioRead]
        split_ifs <;> exact ⟨rfl, rfl, rfl⟩
      all_goals exact .refl _
  | clock context =>
      obtain ⟨t, -, -, -, -, hok⟩ := step_clock cfg context hs hcur
      rw [(hok s' h).2.1]
      exact .refl _
  | sio context polls => exact absurd rfl (hsio context polls)
  | store address byte =>
      obtain rfl := Except.ok.inj h
      exact .refl _
  | record address segment =>
      obtain rfl := Except.ok.inj h
      rw [KState.storeRecord]
      split_ifs <;> exact .refl _

/-- **What a step does to the output**: a write, rounds, or nothing. -/
lemma step_output_cases (hs : Sound s) (h : step cfg s e = .ok s') :
    (∃ context args, e = .syscall context args ∧ SysCall.ofNum context.eax = .write
      ∧ s'.sio = s.sio.sioWrite (args 0)) ∨
    (∃ context polls, e = .sio context polls
      ∧ Transition.Run sioRound (fun _ _ => True) (s.isrSave context) (served polls) s') ∨
    e.call ≠ some .write ∧ Sio.SameOutput s.sio s'.sio := by
  by_cases hwrite : e.call = some .write
  · cases e with
    | syscall context args =>
        have hnum : SysCall.ofNum context.eax = .write := Option.some.inj hwrite
        exact Or.inl ⟨context, args, rfl, hnum, step_write hs hnum h⟩
    | _ => exact absurd hwrite (by simp [Event.call])
  · by_cases hsio : ∃ context polls, e = .sio context polls
    · obtain ⟨context, polls, rfl⟩ := hsio
      exact Or.inr (Or.inl ⟨context, polls, rfl, isrSio_ok_iff.mp h⟩)
    · exact Or.inr (Or.inr ⟨hwrite, step_output_frame hs h hwrite fun context polls he =>
        hsio ⟨context, polls, he⟩⟩)

/-- Rounds keep what the transmitter interrupt and every other function keep. -/
lemma rounds_output {polls : List (UInt8 × UInt8)} {I : Sio → Prop} (hs : Sound s) (hI : I s.sio)
    (h : Transition.Run sioRound (fun _ _ => True) (s.isrSave context) polls s')
    (htx : ∀ sio, I sio → I sio.txInterrupt)
    (hsame : ∀ sio sio', Sio.SameOutput sio sio' → I sio → I sio') : I s'.sio := by
  refine (h.invariant (I := fun s => Sound s ∧ I s.sio)
    ⟨isrSave_sound context hs, by rwa [isrSave_sio]⟩ ?_).2
  rintro s poll s' ⟨hs, hI⟩ - h
  obtain ⟨hround, hs'⟩ := hs.round h
  refine ⟨hs', ?_⟩
  rcases hround.output with heq | hout
  · rw [heq]
    exact htx _ hI
  · exact hsame _ _ hout hI

/-- **One step** leaves an idle transmitter with nothing. -/
lemma step_idle (hs : Sound s) (hidle : s.sio.Idle) (h : step cfg s e = .ok s') :
    s'.sio.Idle := by
  rcases step_output_cases hs h with
    ⟨context, args, -, -, heq⟩ | ⟨context, polls, -, hrun⟩ | ⟨-, hsame⟩
  · rw [heq]
    exact Sio.sioWrite_idle
  · exact rounds_output hs hidle hrun (fun _ _ => Sio.txInterrupt_idle)
      fun _ _ hsame hidle => hsame.idle hidle
  · exact hsame.idle hidle

/-- A store of an earlier step that fell outside is not undone. -/
lemma step_output_overrun (hs : Sound s) (h : step cfg s e = .ok s')
    (hq : s'.sio.outbuffer.overrun = false) : s.sio.outbuffer.overrun = false := by
  rcases step_output_cases hs h with
    ⟨context, args, -, -, heq⟩ | ⟨context, polls, -, hrun⟩ | ⟨-, hsame⟩
  · rw [heq] at hq
    exact Sio.sioWrite_overrun hq
  · have heq : s'.sio.outbuffer.overrun = s.sio.outbuffer.overrun :=
      rounds_output (I := fun sio => sio.outbuffer.overrun = s.sio.outbuffer.overrun) hs rfl hrun
        (fun _ hI => Sio.txInterrupt_overrun.trans hI)
        fun _ _ hsame hI => (congrArg SioBuffer.overrun hsame.outbuffer).trans hI
    rwa [heq] at hq
  · rwa [hsame.outbuffer] at hq

/-- Only a call of `write` wants bytes sent. -/
lemma written_frame (h : e.call ≠ some .write) : written s e = [] := by
  cases e with
  | syscall context args => exact if_neg fun hnum => h (congrArg some hnum)
  | _ => rfl

/-- **One step** appends what it wants sent to what has been sent and is left. -/
lemma step_sent (hs : Sound s) (hsends : s.sio.Sends) (h : step cfg s e = .ok s')
    (hq : s'.sio.outbuffer.overrun = false) :
    s'.sio.Sends ∧ s'.sio.sent = s.sio.sent ++ written s e := by
  rcases step_output_cases hs h with
    ⟨context, args, rfl, hnum, heq⟩ | ⟨context, polls, rfl, hrun⟩ | ⟨hwrite, hsame⟩
  · rw [heq] at hq ⊢
    rw [written, if_pos hnum]
    exact Sio.sioWrite_sent hsends hq
  · rw [written_frame (by simp [Event.call]), List.append_nil]
    refine rounds_output (I := fun sio => sio.Sends ∧ sio.sent = s.sio.sent) hs ⟨hsends, rfl⟩ hrun
      (fun sio hI => ?_) fun _ _ hsame hI => ⟨hsame.sends hI.1, hsame.sent.trans hI.2⟩
    obtain ⟨hsends', hsent⟩ := Sio.txInterrupt_sent hI.1
    exact ⟨hsends', hsent.trans hI.2⟩
  · rw [written_frame hwrite, List.append_nil]
    exact ⟨hsame.sends hsends, hsame.sent⟩

end Steps

/-! ### Runs -/

section Runs

variable {cfg : Config} {s₀ s : KState} {es : List Event}

/-- At the end of `_init` nothing has been sent. -/
lemma initial_sends (h : Initial cfg s) : s.sio.Sends ∧ s.sio.sent = [] := by
  rw [initial_sio h]
  exact ⟨⟨SioBuffer.fits_init.1, fun _ => ⟨rfl, rfl⟩⟩, rfl⟩

/-- **Output leaves in order.** In every run an idle transmitter has left nothing in the
buffer; and while no store has fallen outside the buffer, the bytes sent, followed by what
is left in the buffer, are those written, each LF as CR LF. -/
theorem output_ordered (h₀ : Initial cfg s₀) (h : Run cfg (fun _ _ => True) s₀ es s) :
    (s.sio.sending = false → s.sio.outbuffer.contents = [] ∧ s.sio.outbuffer.count = 0)
      ∧ (s.sio.outbuffer.overrun = false →
        s.sio.txd.reverse ++ s.sio.outbuffer.contents = gather (step cfg) written s₀ es) := by
  obtain ⟨hsends, hnil⟩ := initial_sends h₀
  have hidle : Sound s ∧ s.sio.Idle := by
    refine h.invariant (I := fun s => Sound s ∧ s.sio.Idle) ⟨initial_sound h₀, hsends.idle⟩ ?_
    rintro s e s' ⟨hs, hidle⟩ - h
    exact ⟨step_sound hs h, step_idle hs hidle h⟩
  refine ⟨fun h => ⟨Sio.contents_of_idle hidle.2 h, (hidle.2 h).2⟩, fun hq => ?_⟩
  obtain ⟨-, hrun⟩ := h.backwards (I := Sound)
    (Q := fun s => s.sio.outbuffer.overrun = false) (initial_sound h₀) hq
    fun _ _ _ hs _ h => ⟨step_sound hs h, step_output_overrun hs h⟩
  obtain ⟨-, hflow⟩ := hrun.accumulates (I := fun s => Sound s ∧ s.sio.Sends) written
    (fun s => s.sio.sent) ⟨initial_sound h₀, hsends⟩ (by
      rintro s e s' ⟨hs, hsends⟩ ⟨-, hq⟩ h
      obtain ⟨hsends', hsent⟩ := step_sent hs hsends h (hq s' h)
      exact ⟨⟨step_sound hs h, hsends'⟩, hsent⟩)
  rwa [hnil, List.nil_append] at hflow

end Runs

/-- Two processes write, with a transmitter interrupt between them. -/
def printed : List Event :=
  [call 6 [72], call 6 [10], .sio Context.zero [(0x02, 0), (0x01, 0)], call 6 [105]]

theorem output_ordered_printed : ∃ s, Run demoConfig (fun _ _ => True) bootState printed s ∧
    (s.sio.sending = false → s.sio.outbuffer.contents = [] ∧ s.sio.outbuffer.count = 0)
      ∧ (s.sio.outbuffer.overrun = false → s.sio.txd.reverse ++ s.sio.outbuffer.contents
        = gather (step demoConfig) written bootState printed) := by
  obtain ⟨s, hrun, -⟩ := exists_run (step demoConfig) (fun _ _ => True)
    bootState printed (f := fun _ => ()) (b := ()) (by decide +kernel)
  exact ⟨s, hrun, output_ordered initial_bootState hrun⟩

/-! ### The bounds of the buffer -/

/-- The number of bytes a write stores: all of them, or all but the first, which goes to an
idle device. -/
def stored (ch : UInt32) (s : Sio) : ℕ := (expand ch).length - if s.sending then 0 else 1

/-- The bytes a write stores have room behind those that were sent since the transmitter
was last idle and those that are left. -/
def WriteFits (s : KState) : Event → Prop
  | .syscall context args => SysCall.ofNum context.eax = .write →
      s.sio.outbuffer.next + s.sio.outbuffer.count.toNat + stored (args 0) s.sio ≤ bufSize
  | _ => True

instance (s : KState) (e : Event) : Decidable (WriteFits s e) :=
  match e with
  | .syscall context args => inferInstanceAs (Decidable (SysCall.ofNum context.eax = .write →
      s.sio.outbuffer.next + s.sio.outbuffer.count.toNat + stored (args 0) s.sio ≤ bufSize))
  | .clock _ => isTrue trivial
  | .sio _ _ => isTrue trivial
  | .store _ _ => isTrue trivial
  | .record _ _ => isTrue trivial

namespace Sio

variable {s : Sio} {ch : UInt8}

/-- The pointers of the buffer are right, an idle transmitter has left nothing, and every
store fell inside. -/
structure Bounded (s : Sio) : Prop extends Sends s where
  inside : s.outbuffer.overrun = false

/-- Where `_outlast` is after a byte. -/
lemma sioSend_last : (s.sioSend ch).outbuffer.last
    = s.outbuffer.last + if s.sending then 1 else 0 := by
  rw [sioSend_outbuffer]
  split_ifs <;> rfl

lemma sioSend_bounded (hs : s.Bounded) (hroom : s.sending = true → s.outbuffer.last < bufSize) :
    (s.sioSend ch).Bounded := by
  refine ⟨(sioSend_sent ch hs.toSends hroom).1, ?_⟩
  rw [sioSend_outbuffer]
  split_ifs with hsending
  · exact SioBuffer.overrun_put.mpr ⟨hs.inside, hroom hsending⟩
  · exact hs.inside

/-- **A write that has room** keeps the bounds. -/
lemma sioWrite_bounded {ch : UInt32} (hs : s.Bounded)
    (hroom : s.outbuffer.next + s.outbuffer.count.toNat + stored ch s ≤ bufSize) :
    (s.sioWrite ch).Bounded := by
  rw [← hs.fits.last_eq, stored] at hroom
  by_cases hlf : ch = lineFeed.toUInt32
  · subst hlf
    rw [expand, if_pos rfl] at hroom
    rw [sioWrite_lineFeed]
    refine sioSend_bounded (sioSend_bounded hs fun hsending => ?_) fun _ => ?_
    · rw [hsending] at hroom
      exact lt_of_lt_of_le (by simp) hroom
    · -- the first byte is stored only if the device was busy
      rw [sioSend_last]
      by_cases hsending : s.sending = true
      · rw [hsending] at hroom ⊢
        exact lt_of_lt_of_le (by simp) hroom
      · rw [if_neg hsending] at hroom ⊢
        exact lt_of_lt_of_le (by simp) hroom
  · rw [expand, if_neg hlf] at hroom
    rw [sioWrite_other hlf]
    refine sioSend_bounded hs fun hsending => ?_
    rw [hsending] at hroom
    exact lt_of_lt_of_le (by simp) hroom

end Sio

section Bounds

variable {cfg : Config} {s s' : KState} {e : Event}

lemma step_output_bounded (hs : Sound s) (hb : s.sio.Bounded) (hfit : WriteFits s e)
    (h : step cfg s e = .ok s') : s'.sio.Bounded := by
  rcases step_output_cases hs h with
    ⟨context, args, rfl, hnum, heq⟩ | ⟨context, polls, -, hrun⟩ | ⟨-, hsame⟩
  · rw [heq]
    exact Sio.sioWrite_bounded hb (hfit hnum)
  · exact rounds_output hs hb hrun
      (fun _ hb => ⟨(Sio.txInterrupt_sent hb.toSends).1, Sio.txInterrupt_overrun.trans hb.inside⟩)
      fun _ _ hsame hb => ⟨hsame.sends hb.toSends, hsame.outbuffer ▸ hb.inside⟩
  · exact ⟨hsame.sends hb.toSends, hsame.outbuffer ▸ hb.inside⟩

/-- **The bounds of the output buffer** hold in every run in which each write has room: the
pointers are in order and inside the buffer, their distance is the count, and every store so
far has fallen inside. -/
theorem output_bounds (h : Reachable cfg WriteFits s) :
    s.sio.outbuffer.Fits ∧ s.sio.outbuffer.overrun = false := by
  have hs : Sound s ∧ s.sio.Bounded := by
    refine h.invariant (J := fun s => Sound s ∧ s.sio.Bounded)
      (fun s h => ⟨initial_sound h, (initial_sends h).1, ?_⟩) ?_
    · rw [initial_sio h]
      rfl
    · rintro s e s' ⟨hs, hb⟩ hfit h
      exact ⟨step_sound hs h, step_output_bounded hs hb hfit h⟩
  exact ⟨hs.2.fits, hs.2.inside⟩

end Bounds

theorem output_bounds_printed : ∃ s, Reachable demoConfig WriteFits s
    ∧ s.sio.outbuffer.Fits ∧ s.sio.outbuffer.overrun = false := by
  obtain ⟨s, hrun, -⟩ := exists_run (step demoConfig) WriteFits
    bootState printed (f := fun _ => ()) (b := ()) (by decide +kernel)
  have hreach : Reachable demoConfig WriteFits s :=
    Reachable.run (.of_init initial_bootState) hrun
  exact ⟨s, hreach, output_bounds hreach⟩

/-- New lines are written before the first transmitter interrupt comes. -/
def newlines : List Event := List.replicate 513 (call 6 [10])

/-- **A buffer that is written to faster than it is sent overruns**: nothing tests its
bounds. -/
theorem output_overruns : Initial demoConfig bootState ∧
    ∃ s, Run demoConfig (fun _ _ => True) bootState newlines s
      ∧ ¬ s.sio.outbuffer.last ≤ bufSize ∧ s.sio.outbuffer.overrun = true := by
  obtain ⟨s, hrun, hlast⟩ := exists_run (step demoConfig) (fun _ _ => True)
    bootState newlines (f := fun s => (s.sio.outbuffer.last, s.sio.outbuffer.overrun))
    (b := (1025, true)) (by decide +kernel)
  obtain ⟨hlast, hover⟩ := Prod.mk.inj hlast
  exact ⟨initial_bootState, s, hrun, by rw [hlast]; decide, hover⟩

end Sp2
