import Sp2.Properties.Places
import Sp2.Serial.Rounds

/-!
Serial input.

* `handed`, `accepted`, `readers`: what an event hands to readers, the characters it takes
  in, and the callers of `read`.
* `input_delivered`: **characters are delivered in order, once each, to the readers in the
  order of their calls**, and no reader waits while characters do. The characters are those
  received while no store has fallen outside `_inbuffer`.
* `StoresFit`, `input_bounds`: the bounds of `_inbuffer` hold in every run in which a
  character that is stored finds room behind `_inlast`. `_isr_sio` tests the count only.
* `input_overruns`: a buffer that is filled, read from once and filled again.
-/

namespace Sp2

open ProcTable Procs Transition

/-! ### The statement -/

/-- The EAX that holds a character. -/
def inEax (ch : UInt8) : Option UInt32 := some ch.toUInt32

/-- What a round hands over: the processes that leave `_reading` in it, each with its EAX
afterwards. -/
def handedRound (s : KState) (poll : UInt8 × UInt8) : List (PcbId × Option UInt32) :=
  match sioRound s poll with
  | .ok s' => ((s.procs.members .reading).filter (· ∉ s'.procs.members .reading)).map
      fun p => (p, s'.eax p)
  | .error _ => []

/-- What a round takes in: the character it receives, with CR mapped to LF, unless no
process waits and `_incount` is `BUF_SIZE`. -/
def acceptedRound (s : KState) (poll : UInt8 × UInt8) : List UInt8 :=
  if isRx poll ∧ ¬ (s.procs.members .reading = []
      ∧ s.sio.inbuffer.count = UInt32.ofNat bufSize) then [received poll.2]
  else []

/-- What an event hands to readers: in a serial interrupt round by round, and in a call of
`read` the caller with its EAX, unless it waits afterwards. -/
def handed (cfg : Config) (s : KState) (e : Event) : List (PcbId × Option UInt32) :=
  match e with
  | .sio context polls => gather sioRound handedRound (s.isrSave context) (served polls)
  | .syscall context _ =>
      if SysCall.ofNum context.eax = .read then
        match s.procs.current, step cfg s e with
        | some p, .ok s' => if p ∈ s'.procs.members .reading then [] else [(p, s'.eax p)]
        | _, _ => []
      else []
  | _ => []

/-- The characters an event takes in. -/
def accepted (s : KState) : Event → List UInt8
  | .sio context polls => gather sioRound acceptedRound (s.isrSave context) (served polls)
  | _ => []

/-- The caller of `read`, if the event is one. -/
def readers (s : KState) (e : Event) : List PcbId :=
  if e.call = some .read then s.procs.current.toList else []

/-! ### Rounds -/

section Rounds

variable {s s' : KState} {poll : UInt8 × UInt8} {polls : List (UInt8 × UInt8)} {p : PcbId}
  {context : Context}

/-- **Readers and characters do not both wait.** -/
structure Exclusive (s : KState) : Prop extends Sound s where
  excl : s.procs.members .reading ≠ [] → s.sio.inbuffer.count = 0

lemma members_eq_nil : s.procs.members .reading = [] ↔ s.table.queue .reading = [] :=
  List.map_eq_nil_iff

lemma not_isRx (h : isTx poll) : ¬ isRx poll := by
  intro hrx
  exact absurd (h.symm.trans hrx) (by decide)

/-- The members of a queue are a list without repetition. -/
lemma Sound.nodup_members (hs : Sound s) (q : PcbQueue) : (s.procs.members q).Nodup :=
  nodup_ids hs.core.occ_le q

lemma handedRound_eq (h : sioRound s poll = .ok s') : handedRound s poll
    = ((s.procs.members .reading).filter (· ∉ s'.procs.members .reading)).map
      fun p => (p, s'.eax p) := by
  rw [handedRound, h]

/-- While nobody leaves `_reading`, nothing is handed over. -/
lemma handedRound_nil (h : sioRound s poll = .ok s')
    (hsame : s'.procs.members .reading = s.procs.members .reading) :
    handedRound s poll = [] := by
  rw [handedRound_eq h, hsame, List.filter_eq_nil_iff.mpr (by simp), List.map_nil]

/-- The reader that is woken up is the first, and gets the character. -/
lemma handedRound_wake (hs : Sound s) (h : sioRound s poll = .ok s')
    (hmembers : s.procs.members .reading = p :: s'.procs.members .reading) :
    handedRound s poll = [(p, s'.eax p)] := by
  have hnodup := hs.nodup_members .reading
  rw [hmembers] at hnodup
  have hrest : (s'.procs.members .reading).filter (· ∉ s'.procs.members .reading) = [] :=
    List.filter_eq_nil_iff.mpr (by simp)
  have hfirst : p ∉ s'.procs.members .reading := (List.nodup_cons.mp hnodup).1
  rw [handedRound_eq h, hmembers, List.filter_cons_of_pos (by simpa using hfirst), hrest,
    List.map_singleton]

/-- **A round** serves the readers in their order. -/
lemma round_readers (hs : Exclusive s) (h : sioRound s poll = .ok s') :
    Exclusive s' ∧ (handedRound s poll).map Prod.fst ++ s'.procs.members .reading
      = s.procs.members .reading ++ [] := by
  obtain ⟨hround, hs'⟩ := hs.toSound.round h
  rw [List.append_nil]
  cases hround with
  | transmit is_tx =>
      refine ⟨⟨hs', fun hne => ?_⟩, ?_⟩
      · rw [← hs.excl hne]
        exact congrArg SioBuffer.count Sio.txInterrupt_inbuffer
      · rw [handedRound_nil h rfl]
        rfl
  | @wake p ps is_rx is_first moves current eax =>
      have hmembers : s.procs.members .reading = p :: ps.members .reading := moves.ids_wake
      refine ⟨⟨hs', fun _ => hs.excl (by simp [hmembers])⟩, ?_⟩
      rw [handedRound_wake hs.toSound h hmembers, hmembers]
      rfl
  | store is_rx nobody room =>
      refine ⟨⟨hs', fun hne => absurd (members_eq_nil.mpr nobody) hne⟩, ?_⟩
      rw [handedRound_nil h rfl]
      rfl
  | drop is_rx nobody full =>
      refine ⟨hs, ?_⟩
      rw [handedRound_nil h rfl]
      rfl

/-- A store that fell outside is not undone. -/
lemma Round.overrun (h : Round s poll s') (hq : s'.sio.inbuffer.overrun = false) :
    s.sio.inbuffer.overrun = false := by
  cases h with
  | transmit is_tx =>
      rw [← hq]
      exact congrArg SioBuffer.overrun Sio.txInterrupt_inbuffer.symm
  | wake is_rx is_first moves current eax => exact hq
  | store is_rx nobody room => exact (SioBuffer.overrun_put.mp hq).1
  | drop is_rx nobody full => exact hq

/-- Readers and characters do not both wait, and the pointers of the buffer are right. -/
structure Delivers (s : KState) : Prop extends Exclusive s where
  fits : s.sio.inbuffer.Fits

/-- **A round** takes a character to a reader, to the buffer, or nowhere. -/
lemma round_delivers (hs : Delivers s) (h : sioRound s poll = .ok s')
    (hfits : s'.sio.inbuffer.overrun = false) :
    Delivers s' ∧ (handedRound s poll).map Prod.snd ++ s'.sio.inbuffer.contents.map inEax
      = s.sio.inbuffer.contents.map inEax ++ (acceptedRound s poll).map inEax := by
  obtain ⟨hexcl, -⟩ := round_readers hs.toExclusive h
  obtain ⟨hround, -⟩ := hs.toSound.round h
  cases hround with
  | transmit is_tx =>
      have hbuffer : ({ s with sio := s.sio.txInterrupt } : KState).sio.inbuffer
          = s.sio.inbuffer := Sio.txInterrupt_inbuffer
      refine ⟨⟨hexcl, by rw [hbuffer]; exact hs.fits⟩, ?_⟩
      rw [handedRound_nil h rfl, hbuffer, acceptedRound, if_neg fun h => not_isRx is_tx h.1]
      simp
  | @wake p ps is_rx is_first moves current eax =>
      have hmembers : s.procs.members .reading = p :: ps.members .reading := moves.ids_wake
      have hne : s.procs.members .reading ≠ [] := by simp [hmembers]
      refine ⟨⟨hexcl, hs.fits⟩, ?_⟩
      rw [handedRound_wake hs.toSound h hmembers, acceptedRound,
        if_pos ⟨is_rx, fun h => hne h.1⟩, hs.fits.contents_eq_nil (hs.excl hne)]
      exact congrArg (· :: []) eax
  | store is_rx nobody room =>
      obtain ⟨hput, hcontents⟩ := hs.fits.put (received poll.2)
        (SioBuffer.overrun_put.mp hfits).2
      have hne : s.sio.inbuffer.count ≠ UInt32.ofNat bufSize := by
        intro heq
        exact absurd room (by rw [heq]; decide)
      refine ⟨⟨hexcl, hput⟩, ?_⟩
      rw [handedRound_nil h rfl, acceptedRound, if_pos ⟨is_rx, fun h => hne h.2⟩]
      change ((s.sio.inbuffer.put (received poll.2)).contents).map inEax = _
      rw [hcontents, List.map_append]
  | drop is_rx nobody full =>
      have hcount : s.sio.inbuffer.count = UInt32.ofNat bufSize := by
        have hle : s.sio.inbuffer.count.toNat ≤ bufSize := by
          have := hs.fits.last_eq
          have := hs.fits.last_le
          omega
        have hge : bufSize ≤ s.sio.inbuffer.count.toNat :=
          UInt32.le_iff_toNat_le.mp (Std.not_lt.mp full)
        exact UInt32.toNat_inj.mp (Nat.le_antisymm hle hge)
      refine ⟨hs, ?_⟩
      rw [handedRound_nil h rfl, acceptedRound,
        if_neg fun h => h.2 ⟨members_eq_nil.mpr nobody, hcount⟩]
      simp

end Rounds

/-! ### Steps -/

section Steps

variable {cfg : Config} {s s' : KState} {e : Event} {p : PcbId} {context : Context}
  {polls : List (UInt8 × UInt8)}

lemma isrSave_members (context : Context) {q : PcbQueue} :
    (s.isrSave context).procs.members q = s.procs.members q :=
  congrArg (List.map Prod.snd) isrSave_items

lemma Exclusive.isrSave (hs : Exclusive s) : Exclusive (s.isrSave context) := by
  refine ⟨isrSave_sound context hs.toSound, fun hne => ?_⟩
  rw [isrSave_members] at hne
  rw [isrSave_sio]
  exact hs.excl hne

lemma Delivers.isrSave (hs : Delivers s) : Delivers (s.isrSave context) :=
  ⟨hs.toExclusive.isrSave, by rw [isrSave_sio]; exact hs.fits⟩

/-- **Every other event** leaves the input alone. -/
lemma step_input_frame (hs : Sound s) (h : step cfg s e = .ok s') (hread : e.call ≠ some .read)
    (hsio : ∀ context polls, e ≠ .sio context polls) :
    s'.procs.members .reading = s.procs.members .reading
      ∧ s'.sio.inbuffer = s.sio.inbuffer := by
  obtain ⟨p, hcur⟩ := hs.exists_cur
  constructor
  · have hqueue : s'.table.queue .reading = s.table.queue .reading := by
      refine (step_moves hs hcur h).queue_reading hs.core fun l hl => ⟨fun x => ?_, fun x => ?_⟩
      · rintro rfl
        exact hread hl.cause.2
      · rintro rfl
        rcases hl.cause with ⟨hq, -⟩ | ⟨-, context, polls, rfl⟩
        · exact absurd hq (by simp)
        · exact hsio context polls rfl
    exact congrArg (List.map Prod.snd) hqueue
  · cases e with
    | syscall context args =>
        rw [step_syscall hcur] at h
        rw [(sysHandler_frame h).2, isrSave_sio]
        have hcall : SysCall.ofNum context.eax ≠ .read := fun h => hread (congrArg some h)
        cases hnum : SysCall.ofNum context.eax
        case read => exact absurd hnum hcall
        case write => exact Sio.sioWrite_inbuffer _
        all_goals rfl
    | clock context =>
        obtain ⟨t, -, -, -, -, hok⟩ := step_clock cfg context hs hcur
        exact congrArg Sio.inbuffer (hok s' h).2.1
    | sio context polls => exact absurd rfl (hsio context polls)
    | store address byte =>
        obtain rfl := Except.ok.inj h
        rfl
    | record address segment =>
        obtain rfl := Except.ok.inj h
        rw [KState.storeRecord]
        split_ifs <;> rfl

/-- **The two outcomes of a read**: the caller gets the next character, or becomes the last
of the readers. -/
lemma step_read (hs : Sound s) (hcur : s.procs.current = some p) (hcall : e.call = some .read)
    (h : step cfg s e = .ok s') :
    (0 < s.sio.inbuffer.count ∧ s'.procs.members .reading = s.procs.members .reading
      ∧ s'.sio.inbuffer = s.sio.inbuffer.take ∧ s'.eax p = inEax s.sio.inbuffer.peek) ∨
    (s.sio.inbuffer.count = 0 ∧ s'.procs.members .reading = s.procs.members .reading ++ [p]
      ∧ s'.sio = s.sio) := by
  obtain ⟨context, args, rfl, hnum, heq⟩ := step_call cfg hcur hcall
  obtain ⟨-, htable, -, hcontext⟩ := isrSave_running context hs.core hcur
  rw [heq, sysHandler, sysRead, isrSave_sio] at h
  by_cases hcount : s.sio.inbuffer.count = 0
  · right
    rw [Sio.sioRead_none hcount] at h
    obtain ⟨ps, hblock, rfl⟩ := liftProcs_ok h
    refine ⟨hcount, ?_, rfl⟩
    change (s.isrSave context).procs.blockReading p = .ok ps at hblock
    by_cases hfree : (s.isrSave context).procs.queues.avail = 0
    · obtain ⟨ps', hpanic⟩ := blockReading_panic (p := p) hfree
      exact absurd (hpanic.symm.trans hblock) (by simp)
    · obtain ⟨ps', hdispatch, -, hmove⟩ := blockReading_block (p := p) hfree
      rw [htable] at hmove
      rcases dispatch_spec (hmove.core hs.core) with
        ⟨ps'', q, hres, -, -, hms⟩ | ⟨ps'', hres, -⟩
      · obtain rfl : ps'' = ps := Except.ok.inj (hres.symm.trans (hdispatch.symm.trans hblock))
        have hqueue : (ps''.table (some q)).queue .reading = (ps'.table none).queue .reading :=
          hms.queue_reading (hmove.core hs.core) fun l hl =>
            ⟨fun x => by rintro rfl; exact hl, fun x => by rintro rfl; exact hl⟩
        change (ps''.table (some q)).ids .reading = s.table.ids .reading ++ [p]
        rw [← hmove.ids_block]
        exact congrArg (List.map Prod.snd) hqueue
      · exact absurd (hres.symm.trans (hdispatch.symm.trans hblock)) (by simp)
  · left
    have hpos : 0 < s.sio.inbuffer.count := UInt32.pos_iff_ne_zero.mpr hcount
    rw [Sio.sioRead_some hpos] at h
    obtain rfl := Except.ok.inj h
    refine ⟨hpos, isrSave_members context, rfl, ?_⟩
    change (((s.isrSave context).procs.setEax p _).pcbs p).context.map Context.eax = _
    rw [setEax_context, if_pos rfl, hcontext]
    rfl

/-- What a read hands over. -/
lemma handed_read (hcur : s.procs.current = some p) (hcall : e.call = some .read)
    (h : step cfg s e = .ok s') :
    handed cfg s e = if p ∈ s'.procs.members .reading then [] else [(p, s'.eax p)] := by
  cases e with
  | syscall context args =>
      have hnum : SysCall.ofNum context.eax = .read := Option.some.inj hcall
      simp only [handed, hnum, if_true, hcur, h]
  | _ => exact absurd hcall (by simp [Event.call])

/-- The other events hand nothing over and take nothing in. -/
lemma handed_frame (hread : e.call ≠ some .read) (hsio : ∀ context polls, e ≠ .sio context polls) :
    handed cfg s e = [] := by
  cases e with
  | syscall context args => exact if_neg fun h => hread (congrArg some h)
  | sio context polls => exact absurd rfl (hsio context polls)
  | _ => rfl

lemma accepted_frame (hsio : ∀ context polls, e ≠ .sio context polls) : accepted s e = [] := by
  cases e with
  | sio context polls => exact absurd rfl (hsio context polls)
  | _ => rfl

/-- The running process does not wait for a character. -/
lemma Sound.notMem_reading (hs : Sound s) (hcur : s.procs.current = some p) :
    p ∉ s.procs.members .reading :=
  notMem_of_cur (hs.core.occ_le p) hcur

/-- **One step** serves the readers in their order, a new one being the last. -/
lemma step_readers (hs : Exclusive s) (h : step cfg s e = .ok s') :
    Exclusive s' ∧ (handed cfg s e).map Prod.fst ++ s'.procs.members .reading
      = s.procs.members .reading ++ readers s e := by
  obtain ⟨p, hcur⟩ := hs.exists_cur
  by_cases hread : e.call = some .read
  · have hs' := step_sound hs.toSound h
    rw [readers, if_pos hread, hcur, handed_read hcur hread h]
    rcases step_read hs.toSound hcur hread h with
      ⟨hcount, hmembers, hbuffer, -⟩ | ⟨hcount, hmembers, hsio⟩
    · -- a character was there, so that nobody waited
      have hnil : s.procs.members .reading = [] := by
        by_contra hne
        rw [hs.excl hne] at hcount
        exact absurd hcount (by decide)
      refine ⟨⟨hs', fun hne => absurd (hmembers.trans hnil) hne⟩, ?_⟩
      rw [hmembers, hnil, if_neg List.not_mem_nil]
      rfl
    · refine ⟨⟨hs', fun _ => by rw [hsio]; exact hcount⟩, ?_⟩
      rw [hmembers, if_pos (by simp)]
      rfl
  · rw [readers, if_neg hread, List.append_nil]
    by_cases hsio : ∃ context polls, e = .sio context polls
    · obtain ⟨context, polls, rfl⟩ := hsio
      obtain ⟨hs', hflow⟩ := (isrSio_ok_iff.mp h).conserves (I := Exclusive)
        (fun s poll => (handedRound s poll).map Prod.fst) (fun _ _ => [])
        (fun s => s.procs.members .reading) hs.isrSave
        fun _ _ _ hs _ h => round_readers hs h
      refine ⟨hs', ?_⟩
      rw [handed, map_gather, hflow, gather_none, List.append_nil, isrSave_members]
    · have hsio' : ∀ context polls, e ≠ .sio context polls := fun context polls he =>
        hsio ⟨context, polls, he⟩
      obtain ⟨hmembers, hbuffer⟩ := step_input_frame hs.toSound h hread hsio'
      refine ⟨⟨step_sound hs.toSound h, fun hne => ?_⟩, ?_⟩
      · rw [hbuffer]
        exact hs.excl (hmembers ▸ hne)
      · rw [handed_frame hread hsio', hmembers]
        rfl

/-- A store of an earlier step that fell outside is not undone. -/
lemma step_overrun (hs : Sound s) (h : step cfg s e = .ok s')
    (hq : s'.sio.inbuffer.overrun = false) : s.sio.inbuffer.overrun = false := by
  obtain ⟨p, hcur⟩ := hs.exists_cur
  by_cases hread : e.call = some .read
  · rcases step_read hs hcur hread h with ⟨-, -, hbuffer, -⟩ | ⟨-, -, hsio⟩
    · rwa [hbuffer, SioBuffer.take_overrun] at hq
    · rwa [hsio] at hq
  · by_cases hsio : ∃ context polls, e = .sio context polls
    · obtain ⟨context, polls, rfl⟩ := hsio
      obtain ⟨hback, -⟩ := (isrSio_ok_iff.mp h).backwards (I := Sound)
        (Q := fun s => s.sio.inbuffer.overrun = false) (isrSave_sound context hs) hq
        fun _ _ _ hs _ h => ⟨(hs.round h).2, (hs.round h).1.overrun⟩
      rwa [isrSave_sio] at hback
    · have hframe := step_input_frame hs h hread fun context polls he => hsio ⟨context, polls, he⟩
      rwa [hframe.2] at hq

/-- **One step** hands over what was first in the buffer or comes in, in that order. -/
lemma step_delivers (hs : Delivers s) (h : step cfg s e = .ok s')
    (hq : s'.sio.inbuffer.overrun = false) :
    Delivers s' ∧ (handed cfg s e).map Prod.snd ++ s'.sio.inbuffer.contents.map inEax
      = s.sio.inbuffer.contents.map inEax ++ (accepted s e).map inEax := by
  obtain ⟨p, hcur⟩ := hs.exists_cur
  obtain ⟨hexcl, -⟩ := step_readers hs.toExclusive h
  by_cases hread : e.call = some .read
  · have hsio : ∀ context polls, e ≠ .sio context polls := by
      rintro context polls rfl
      exact absurd hread (by simp [Event.call])
    rw [accepted_frame hsio, handed_read hcur hread h]
    rcases step_read hs.toSound hcur hread h with
      ⟨hcount, hmembers, hbuffer, heax⟩ | ⟨hcount, hmembers, hsio⟩
    · obtain ⟨hfits, hcontents⟩ := hs.fits.take hcount
      refine ⟨⟨hexcl, by rw [hbuffer]; exact hfits⟩, ?_⟩
      rw [if_neg (by rw [hmembers]; exact hs.toSound.notMem_reading hcur), hbuffer, ← hcontents]
      simp [heax]
    · refine ⟨⟨hexcl, by rw [hsio]; exact hs.fits⟩, ?_⟩
      rw [if_pos (by simp [hmembers]), hsio]
      simp
  · by_cases hsio : ∃ context polls, e = .sio context polls
    · obtain ⟨context, polls, rfl⟩ := hsio
      -- no round loses a store either
      obtain ⟨-, hrun⟩ := (isrSio_ok_iff.mp h).backwards (I := Sound)
        (Q := fun s => s.sio.inbuffer.overrun = false) (isrSave_sound context hs.toSound) hq
        fun _ _ _ hs _ h => ⟨(hs.round h).2, (hs.round h).1.overrun⟩
      obtain ⟨hs', hflow⟩ := hrun.conserves (I := Delivers)
        (fun s poll => (handedRound s poll).map Prod.snd)
        (fun s poll => (acceptedRound s poll).map inEax)
        (fun s => s.sio.inbuffer.contents.map inEax) hs.isrSave
        fun s _ s' hs hq h => round_delivers hs h (hq.2 s' h)
      refine ⟨hs', ?_⟩
      rw [handed, accepted, map_gather, map_gather, hflow, isrSave_sio]
    · have hsio' : ∀ context polls, e ≠ .sio context polls := fun context polls he =>
        hsio ⟨context, polls, he⟩
      obtain ⟨-, hbuffer⟩ := step_input_frame hs.toSound h hread hsio'
      refine ⟨⟨hexcl, by rw [hbuffer]; exact hs.fits⟩, ?_⟩
      rw [handed_frame hread hsio', accepted_frame hsio', hbuffer]
      simp

end Steps

/-! ### Runs -/

section Runs

variable {cfg : Config} {s₀ s : KState} {es : List Event}

/-- The variables of the serial module at the end of `_init`. -/
lemma initial_sio (h : Initial cfg s) : s.sio = { Sio.init with ier := 3 } := by
  obtain ⟨loaded, h⟩ := h
  obtain ⟨s', heq, -, -, hsio⟩ := init_spec cfg loaded
  obtain rfl : s' = s := Except.ok.inj (heq.symm.trans h)
  exact hsio

/-- At the end of `_init` nobody waits. -/
lemma initial_reading (h : Initial cfg s) : s.procs.members .reading = [] := by
  rw [members_eq_nil, initial_table h]
  rfl

lemma initial_delivers (h : Initial cfg s) : Delivers s := by
  refine ⟨⟨initial_sound h, fun hne => absurd (initial_reading h) hne⟩, ?_⟩
  rw [initial_sio h]
  exact SioBuffer.fits_init.1

/-- **Characters are delivered in order and once each.** In every run no reader waits while
characters do; the readers are served in the order of their calls, one character each; and
while no store has fallen outside the buffer, what they get, followed by what is left in the
buffer, is what has been taken in. -/
theorem input_delivered (h₀ : Initial cfg s₀) (h : Run cfg (fun _ _ => True) s₀ es s) :
    (s.procs.members .reading ≠ [] → s.sio.inbuffer.count = 0)
      ∧ (gather (step cfg) (handed cfg) s₀ es).map Prod.fst ++ s.procs.members .reading
        = gather (step cfg) readers s₀ es
      ∧ (s.sio.inbuffer.overrun = false →
        (gather (step cfg) (handed cfg) s₀ es).map Prod.snd
          ++ s.sio.inbuffer.contents.map inEax = (gather (step cfg) accepted s₀ es).map inEax
        ∧ s.sio.inbuffer.contents.length = s.sio.inbuffer.count.toNat) := by
  have hs₀ := initial_delivers h₀
  have hbuffer : s₀.sio.inbuffer.contents = [] := by
    rw [initial_sio h₀]
    exact SioBuffer.fits_init.2
  obtain ⟨hs, hreaders⟩ := h.conserves (I := Exclusive)
    (fun s e => (handed cfg s e).map Prod.fst) readers (fun s => s.procs.members .reading)
    hs₀.toExclusive
    fun _ _ _ hs _ h => step_readers hs h
  refine ⟨hs.excl, ?_, fun hq => ?_⟩
  · rw [map_gather, hreaders, initial_reading h₀, List.nil_append]
  · obtain ⟨-, hrun⟩ := h.backwards (I := Sound)
      (Q := fun s => s.sio.inbuffer.overrun = false) hs₀.toSound hq
      fun _ _ _ hs _ h => ⟨step_sound hs h, step_overrun hs h⟩
    obtain ⟨hs, hflow⟩ := hrun.conserves (I := Delivers)
      (fun s e => (handed cfg s e).map Prod.snd) (fun s e => (accepted s e).map inEax)
      (fun s => s.sio.inbuffer.contents.map inEax) hs₀
      fun s _ s' hs hq h => step_delivers hs h (hq.2 s' h)
    refine ⟨?_, hs.fits.length_contents⟩
    rw [map_gather, map_gather, hflow, hbuffer, List.map_nil, List.nil_append]

end Runs

/-- One process waits, a CR comes for it and two more characters, and another process
reads. -/
def typed : List Event :=
  [call 5 [], .sio Context.zero [(0x04, 13), (0x04, 97), (0x04, 98), (0x01, 0)], call 5 []]

theorem input_delivered_typed : ∃ s, Run demoConfig (fun _ _ => True) bootState typed s ∧
    (s.procs.members .reading ≠ [] → s.sio.inbuffer.count = 0)
      ∧ (gather (step demoConfig) (handed demoConfig) bootState typed).map Prod.fst
          ++ s.procs.members .reading
        = gather (step demoConfig) readers bootState typed
      ∧ (s.sio.inbuffer.overrun = false →
        (gather (step demoConfig) (handed demoConfig) bootState typed).map Prod.snd
          ++ s.sio.inbuffer.contents.map inEax
          = (gather (step demoConfig) accepted bootState typed).map inEax
        ∧ s.sio.inbuffer.contents.length = s.sio.inbuffer.count.toNat) := by
  obtain ⟨s, hrun, -⟩ := exists_run (step demoConfig) (fun _ _ => True)
    bootState typed (f := fun _ => ()) (b := ()) (by decide +kernel)
  exact ⟨s, hrun, input_delivered initial_bootState hrun⟩

/-! ### The bounds of the buffer -/

/-- Where a round stores a character, going by the count: behind the characters read since
the buffer was last empty and those that are still in it. -/
def storeOffset (s : KState) (poll : UInt8 × UInt8) : List ℕ :=
  if isRx poll ∧ s.procs.members .reading = []
      ∧ s.sio.inbuffer.count < UInt32.ofNat bufSize then
    [s.sio.inbuffer.next + s.sio.inbuffer.count.toNat]
  else []

/-- Every character that a serial interrupt stores has room behind those before it. -/
def StoresFit (s : KState) : Event → Prop
  | .sio context polls =>
      ∀ n ∈ gather sioRound storeOffset (s.isrSave context) (served polls), n < bufSize
  | _ => True

instance (s : KState) (e : Event) : Decidable (StoresFit s e) :=
  match e with
  | .syscall _ _ => isTrue trivial
  | .clock _ => isTrue trivial
  | .sio context polls => inferInstanceAs (Decidable (∀ n ∈ gather sioRound storeOffset
      (s.isrSave context) (served polls), n < bufSize))
  | .store _ _ => isTrue trivial
  | .record _ _ => isTrue trivial

section Bounds

variable {cfg : Config} {s s' : KState} {e : Event} {poll : UInt8 × UInt8}

/-- The pointers of the buffer are right, and every store fell inside. -/
structure Bounded (s : KState) : Prop extends Sound s where
  fits : s.sio.inbuffer.Fits
  inside : s.sio.inbuffer.overrun = false

lemma round_bounded (hs : Bounded s) (h : sioRound s poll = .ok s')
    (hfit : ∀ n ∈ storeOffset s poll, n < bufSize) : Bounded s' := by
  obtain ⟨hround, hs'⟩ := hs.toSound.round h
  cases hround with
  | transmit is_tx =>
      have hbuffer : ({ s with sio := s.sio.txInterrupt } : KState).sio.inbuffer
          = s.sio.inbuffer := Sio.txInterrupt_inbuffer
      exact ⟨hs', by rw [hbuffer]; exact hs.fits, by rw [hbuffer]; exact hs.inside⟩
  | wake is_rx is_first moves current eax => exact ⟨hs', hs.fits, hs.inside⟩
  | store is_rx nobody room =>
      have hlast : s.sio.inbuffer.last < bufSize := by
        rw [hs.fits.last_eq]
        refine hfit _ ?_
        rw [storeOffset, if_pos ⟨is_rx, members_eq_nil.mpr nobody, room⟩]
        exact List.mem_singleton.mpr rfl
      exact ⟨hs', (hs.fits.put _ hlast).1, SioBuffer.overrun_put.mpr ⟨hs.inside, hlast⟩⟩
  | drop is_rx nobody full => exact hs

lemma step_bounded (hs : Bounded s) (hfit : StoresFit s e) (h : step cfg s e = .ok s') :
    Bounded s' := by
  obtain ⟨p, hcur⟩ := hs.exists_cur
  have hs' := step_sound hs.toSound h
  by_cases hread : e.call = some .read
  · rcases step_read hs.toSound hcur hread h with ⟨hcount, -, hbuffer, -⟩ | ⟨-, -, hsio⟩
    · refine ⟨hs', by rw [hbuffer]; exact (hs.fits.take hcount).1, ?_⟩
      rw [hbuffer, SioBuffer.take_overrun]
      exact hs.inside
    · exact ⟨hs', by rw [hsio]; exact hs.fits, by rw [hsio]; exact hs.inside⟩
  · by_cases hsio : ∃ context polls, e = .sio context polls
    · obtain ⟨context, polls, rfl⟩ := hsio
      have hsave : Bounded (s.isrSave context) :=
        ⟨isrSave_sound context hs.toSound, by rw [isrSave_sio]; exact hs.fits,
          by rw [isrSave_sio]; exact hs.inside⟩
      exact ((isrSio_ok_iff.mp h).observed hfit).invariant hsave
        fun _ _ _ hs hfit h => round_bounded hs h hfit.2
    · have hframe := step_input_frame hs.toSound h hread fun context polls he =>
        hsio ⟨context, polls, he⟩
      exact ⟨hs', by rw [hframe.2]; exact hs.fits, by rw [hframe.2]; exact hs.inside⟩

/-- **The bounds of the input buffer** hold in every run in which each character that is
stored has room: the pointers are in order and inside the buffer, their distance is the
count, every store so far has fallen inside, and so will the next load. -/
theorem input_bounds (h : Reachable cfg StoresFit s) : s.sio.inbuffer.Fits
    ∧ s.sio.inbuffer.overrun = false
    ∧ (0 < s.sio.inbuffer.count → s.sio.inbuffer.next < bufSize) := by
  have hs : Bounded s := by
    refine h.invariant (fun s h => ?_) fun _ _ _ hs hfit h => step_bounded hs hfit h
    refine ⟨initial_sound h, ?_, ?_⟩
    · rw [initial_sio h]
      exact SioBuffer.fits_init.1
    · rw [initial_sio h]
      rfl
  exact ⟨hs.fits, hs.inside, hs.fits.next_lt⟩

end Bounds

theorem input_bounds_typed : ∃ s, Reachable demoConfig StoresFit s ∧ s.sio.inbuffer.Fits
    ∧ s.sio.inbuffer.overrun = false
    ∧ (0 < s.sio.inbuffer.count → s.sio.inbuffer.next < bufSize) := by
  obtain ⟨s, hrun, -⟩ := exists_run (step demoConfig) StoresFit
    bootState typed (f := fun _ => ()) (b := ()) (by decide +kernel)
  have hreach : Reachable demoConfig StoresFit s :=
    Reachable.run (.of_init initial_bootState) hrun
  exact ⟨s, hreach, input_bounds hreach⟩

/-- The buffer is filled, one character is read, and one more comes. -/
def refilled : List Event :=
  [.sio Context.zero (List.replicate bufSize (0x04, 65)), call 5 [],
    .sio Context.zero [(0x04, 66)]]

/-- **A buffer that is not read empty overruns**: the count leaves room, the pointer does
not. -/
theorem input_overruns : Initial demoConfig bootState ∧
    ∃ s, Run demoConfig (fun _ _ => True) bootState refilled s
      ∧ ¬ s.sio.inbuffer.last ≤ bufSize ∧ s.sio.inbuffer.overrun = true := by
  obtain ⟨s, hrun, hlast⟩ := exists_run (step demoConfig) (fun _ _ => True)
    bootState refilled (f := fun s => (s.sio.inbuffer.last, s.sio.inbuffer.overrun))
    (b := (1025, true)) (by decide +kernel)
  obtain ⟨hlast, hover⟩ := Prod.mk.inj hlast
  exact ⟨initial_bootState, s, hrun, by rw [hlast]; decide, hover⟩

end Sp2
