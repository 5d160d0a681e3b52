import Sp2.Shared.Strings

/-!
Messages in shared memory.

* `Isolated`: a `shmwrite` returns, changes only bytes of its segment, and refuses what does
  not fit.
* `ReadsBack`: a `shmread` returns the message written.
* `shared_strings`: **when they do**. Nothing compares the message with the size of the
  segment.
* `shmwrite_overruns`: a message of three bytes is written to a segment of one.
-/

namespace Sp2

open ProcTable Procs Transition Address

/-- The `shmwrite` returns, changes no byte outside the segment, and refuses a string of `n`
bytes that does not fit with its NUL. -/
def Isolated (cfg : Config) (s : KState) (e : Event) (n : ℕ) : Prop :=
  ∃ s', step cfg s e = .ok s'
    ∧ (∀ x, ¬ (s.shm.segments (e.args 0)).Has x → s'.mem x = s.mem x)
    ∧ ((s.shm.segments (e.args 0)).capacity ≤ n → s.answer s' = some minusOne)

/-- The caller is refused, or the message fits and the segment does not begin within it. -/
def MessageFits (s : KState) (e : Event) (n : ℕ) : Prop :=
  (s.shm.segments (e.args 0)).hasMember s.callerPid = false
    ∨ n < (s.shm.segments (e.args 0)).capacity
      ∧ ¬ Follows (e.args 1) (s.shm.segments (e.args 0)).address n

/-- The step changes none of the `n + 1` bytes at an address. -/
def NoWrite (cfg : Config) (a : UInt32) (n : ℕ) (s : KState) (e : Event) : Prop :=
  ∀ s', step cfg s e = .ok s' → ∀ k ≤ n, s'.mem (a + UInt32.ofNat k) = s.mem (a + UInt32.ofNat k)

/-- The `shmread` succeeds, and the caller's buffer has the `n` bytes of the message and its
NUL. -/
def ReadsBack (cfg : Config) (s : KState) (e : Event) (message : ℕ → UInt8) (n : ℕ) : Prop :=
  ∃ s', step cfg s e = .ok s' ∧ s.answer s' = some 1
    ∧ ∀ k ≤ n, s'.mem (e.args 1 + UInt32.ofNat k) = message k

/-- The caller is recorded, and its buffer does not begin within the bytes it is to read. -/
def BufferFits (s : KState) (e : Event) (n : ℕ) : Prop :=
  (s.shm.segments (e.args 0)).hasMember s.callerPid = true
    ∧ ¬ Follows (s.shm.segments (e.args 0)).address (e.args 1) n

section Copies

variable {mem : Memory} {dst src : UInt32} {n k : ℕ}

/-- What has been copied is at the destination. -/
lemma copied_apply (hn : n < memorySize) (hk : k ≤ n) :
    copied dst src n mem (dst + UInt32.ofNat k) = mem (src + UInt32.ofNat k) := by
  have hoffset : (UInt32.ofNat k).toNat = k := toNat_ofNat_lt (lt_of_le_of_lt hk hn)
  rw [copied, add_sub_cancel_left', hoffset, if_pos hk]

/-- What is elsewhere is as it was. -/
lemma copied_outside {segment : SharedmemSegment} {x : UInt32} (hn : n < segment.capacity)
    (hx : ¬ segment.Has x) : copied segment.address src n mem x = mem x := by
  rw [SharedmemSegment.capacity] at hn
  split_ifs at hn with hnull
  · exact absurd hn (Nat.not_lt_zero n)
  · refine if_neg fun hle => hx ⟨hnull, lt_of_le_of_lt hle hn⟩

end Copies

section Steps

variable {cfg : Config} {s s' : KState} {e : Event} {n : ℕ}

lemma isolated_iff (hs : Sound s) (hcall : e.call = some .shmwrite)
    (hmessage : IsString s.mem (e.args 1) n) : Isolated cfg s e n ↔ MessageFits s e n := by
  have hcopy : Copies s e (s.shm.segments (e.args 0)).address (e.args 1) :=
    Or.inl ⟨hcall, rfl, rfl⟩
  rw [MessageFits]
  by_cases hmember : (s.shm.segments (e.args 0)).hasMember s.callerPid = false
  · obtain ⟨s', hstep, hanswer, -, hmem⟩ := step_copies_refused cfg hs hcopy hmember
    exact ⟨fun _ => Or.inl hmember,
      fun _ => ⟨s', hstep, fun x _ => by rw [hmem], fun _ => hanswer⟩⟩
  obtain ⟨hnever, hreturns⟩ := step_copies cfg hs hcopy hmessage
    (Bool.not_eq_false _ ▸ hmember)
  rw [or_iff_right hmember]
  constructor
  · rintro ⟨s', hstep, -, hrefuse⟩
    have hover : ¬ Follows (e.args 1) (s.shm.segments (e.args 0)).address n :=
      fun hover => hnever hover s' hstep
    obtain ⟨t, hstep', hanswer, -⟩ := hreturns hover
    obtain rfl : t = s' := Except.ok.inj (hstep'.symm.trans hstep)
    refine ⟨?_, hover⟩
    by_contra hlong
    have hfail := hrefuse (not_lt.mp hlong)
    rw [hanswer] at hfail
    exact absurd hfail (by decide)
  · rintro ⟨hfits, hover⟩
    obtain ⟨s', hstep, -, -, hmem⟩ := hreturns hover
    refine ⟨s', hstep, fun x hx => ?_, fun hlong => absurd hfits (not_lt.mpr hlong)⟩
    rw [hmem]
    exact copied_outside hfits hx

/-- After a `shmwrite` that succeeded the segment holds the message. -/
lemma holds_message (hs : Sound s) (hcall : e.call = some .shmwrite)
    (hmessage : IsString s.mem (e.args 1) n) (hstep : step cfg s e = .ok s')
    (hanswer : s.answer s' = some 1) : ∀ k ≤ n,
      s'.mem ((s.shm.segments (e.args 0)).address + UInt32.ofNat k)
        = s.mem (e.args 1 + UInt32.ofNat k) := by
  have hcopy : Copies s e (s.shm.segments (e.args 0)).address (e.args 1) :=
    Or.inl ⟨hcall, rfl, rfl⟩
  by_cases hmember : (s.shm.segments (e.args 0)).hasMember s.callerPid = false
  · obtain ⟨t, hstep', hrefused, -⟩ := step_copies_refused cfg hs hcopy hmember
    obtain rfl : t = s' := Except.ok.inj (hstep'.symm.trans hstep)
    rw [hanswer] at hrefused
    exact absurd hrefused (by decide)
  obtain ⟨hnever, hreturns⟩ := step_copies cfg hs hcopy hmessage
    (Bool.not_eq_false _ ▸ hmember)
  obtain ⟨t, hstep', -, -, hmem⟩ := hreturns fun hover => hnever hover s' hstep
  obtain rfl : t = s' := Except.ok.inj (hstep'.symm.trans hstep)
  intro k hk
  rw [hmem, copied_apply hmessage.lt hk]

lemma readsBack_iff {message : ℕ → UInt8} (hs : Sound s) (hcall : e.call = some .shmread)
    (hstring : IsString s.mem (s.shm.segments (e.args 0)).address n)
    (hmessage : ∀ k ≤ n,
      s.mem ((s.shm.segments (e.args 0)).address + UInt32.ofNat k) = message k) :
    ReadsBack cfg s e message n ↔ BufferFits s e n := by
  have hcopy : Copies s e (e.args 1) (s.shm.segments (e.args 0)).address :=
    Or.inr ⟨hcall, rfl, rfl⟩
  rw [BufferFits]
  by_cases hmember : (s.shm.segments (e.args 0)).hasMember s.callerPid = false
  · refine ⟨?_, fun h => absurd (h.1.symm.trans hmember) (by simp)⟩
    rintro ⟨s', hstep, hanswer, -⟩
    obtain ⟨t, hstep', hrefused, -⟩ := step_copies_refused cfg hs hcopy hmember
    obtain rfl : t = s' := Except.ok.inj (hstep'.symm.trans hstep)
    rw [hanswer] at hrefused
    exact absurd hrefused (by decide)
  have hmember' := Bool.not_eq_false _ ▸ hmember
  obtain ⟨hnever, hreturns⟩ := step_copies cfg hs hcopy hstring hmember'
  constructor
  · rintro ⟨s', hstep, -⟩
    exact ⟨hmember', fun hover => hnever hover s' hstep⟩
  · rintro ⟨-, hover⟩
    obtain ⟨s', hstep, hanswer, -, hmem⟩ := hreturns hover
    refine ⟨s', hstep, hanswer, fun k hk => ?_⟩
    rw [hmem, copied_apply hstring.lt hk, hmessage k hk]

/-- A run without writes leaves the bytes as they are. -/
lemma run_noWrite {a : UInt32} {es : List Event} (h : Run cfg (NoWrite cfg a n) s es s') :
    ∀ k ≤ n, s'.mem (a + UInt32.ofNat k) = s.mem (a + UInt32.ofNat k) := by
  refine h.invariant (I := fun t => ∀ k ≤ n, t.mem (a + UInt32.ofNat k)
    = s.mem (a + UInt32.ofNat k)) (fun _ _ => rfl) ?_
  intro t e t' hsame hno hstep k hk
  rw [hno t' hstep k hk, hsame k hk]

end Steps

section Reachable

variable {cfg : Config} {P : KState → Event → Prop} {s : KState} {e : Event} {n : ℕ}

/-- **Messages in shared memory**, for every reachable state, every segment and every
message: a `shmwrite` returns, keeps to its segment and refuses what does not fit, exactly
when the caller is refused or the message fits and the segment does not begin within it; and
after a `shmwrite` that succeeded, with no write in between, a `shmread` returns the message
exactly when the caller is recorded and its buffer does not begin within the message. -/
theorem shared_strings (h : Reachable cfg P s) (hcall : e.call = some .shmwrite)
    (hmessage : IsString s.mem (e.args 1) n) :
    (Isolated cfg s e n ↔ MessageFits s e n)
      ∧ ∀ s' es t e', step cfg s e = .ok s' → s.answer s' = some 1 →
        Run cfg (NoWrite cfg (s.shm.segments (e.args 0)).address n) s' es t →
        (t.shm.segments (e.args 0)).address = (s.shm.segments (e.args 0)).address →
        e'.call = some .shmread → e'.args 0 = e.args 0 →
        (ReadsBack cfg t e' (fun k => s.mem (e.args 1 + UInt32.ofNat k)) n
          ↔ BufferFits t e' n) := by
  have hs := reachable_sound h
  refine ⟨isolated_iff hs hcall hmessage, ?_⟩
  intro s' es t e' hstep hanswer hrun haddress hcall' hsame
  have ht : Sound t := hrun.invariant (I := Sound) (step_sound hs hstep)
    fun _ _ _ hu _ hstep' => step_sound hu hstep'
  have hbytes : ∀ k ≤ n, t.mem ((t.shm.segments (e'.args 0)).address + UInt32.ofNat k)
      = s.mem (e.args 1 + UInt32.ofNat k) := by
    intro k hk
    rw [hsame, haddress, run_noWrite hrun k hk, holds_message hs hcall hmessage hstep hanswer k hk]
  exact readsBack_iff ht hcall' (hmessage.congr hbytes) hbytes

end Reachable

/-! ### A message that does not fit -/

/-- A process has the string `hi` at an address of its own, makes a segment of the given size
and attaches to it. -/
def prepared (size : UInt32) : List Event :=
  [.store 0x5000 104, .store 0x5001 105, call 11 [size, 2], call 12 [0]]

/-- The process writes the string to the segment. -/
def writeHi : Event := call 13 [demoConfig.shm 0, 0x5000]

/-- The process reads it into another buffer. -/
def readHi : Event := call 14 [demoConfig.shm 0, 0x6000]

/-- What the messages below depend on: the string, the record of the segment, and that the
process can write and is still recorded. -/
structure Prepared (size : UInt32) (s : KState) : Prop where
  reachable : Reachable demoConfig (fun _ _ => True) s
  message : IsString s.mem 0x5000 2
  address : (s.shm.segments (demoConfig.shm 0)).address = demoConfig.memory
  size : (s.shm.segments (demoConfig.shm 0)).size = size
  write : ∃ s', step demoConfig s writeHi = .ok s' ∧ s.answer s' = some 1
    ∧ (s'.shm.segments (demoConfig.shm 0)).address = demoConfig.memory
    ∧ (s'.shm.segments (demoConfig.shm 0)).hasMember s'.callerPid = true

/-- The data of `Prepared`, to be computed. -/
def isPrepared (size : UInt32) (s : KState) : Bool :=
  decide (s.mem 0x5000 = 104 ∧ s.mem 0x5001 = 105 ∧ s.mem 0x5002 = 0
      ∧ (s.shm.segments (demoConfig.shm 0)).address = demoConfig.memory
      ∧ (s.shm.segments (demoConfig.shm 0)).size = size)
    && match step demoConfig s writeHi with
      | .ok s' => decide (s.answer s' = some 1
          ∧ (s'.shm.segments (demoConfig.shm 0)).address = demoConfig.memory
          ∧ (s'.shm.segments (demoConfig.shm 0)).hasMember s'.callerPid = true)
      | .error _ => false

lemma exists_prepared (size : UInt32) (h : (exec (step demoConfig) (fun _ _ => True) bootState
      (prepared size)).map (isPrepared size) = some true) : ∃ s, Prepared size s := by
  obtain ⟨s, hrun, hs⟩ := exists_run _ _ _ _ h
  rw [isPrepared, Bool.and_eq_true, decide_eq_true_eq] at hs
  obtain ⟨⟨h0, h1, h2, haddress, hsize⟩, hwrite⟩ := hs
  refine ⟨s, Transition.Reachable.run (.of_init initial_bootState) hrun, ⟨by decide, ?_, h2⟩,
    haddress, hsize, ?_⟩
  · intro k hk
    match k with
    | 0 =>
        change s.mem 0x5000 ≠ 0
        rw [h0]
        decide
    | 1 =>
        change s.mem 0x5001 ≠ 0
        rw [h1]
        decide
  · cases hstep : step demoConfig s writeHi with
    | error halt =>
        rw [hstep] at hwrite
        exact Bool.noConfusion hwrite
    | ok s' =>
        rw [hstep] at hwrite
        exact ⟨s', rfl, of_decide_eq_true hwrite⟩

theorem shared_strings_prepared : ∃ s s', Prepared 96 s ∧ Isolated demoConfig s writeHi 2
    ∧ step demoConfig s writeHi = .ok s'
    ∧ ReadsBack demoConfig s' readHi (fun k => s.mem (0x5000 + UInt32.ofNat k)) 2 := by
  obtain ⟨s, hs⟩ := exists_prepared 96 (by decide +kernel)
  obtain ⟨s', hstep, hanswer, haddress, hmember⟩ := hs.write
  obtain ⟨hisolated, hback⟩ := shared_strings hs.reachable (e := writeHi) rfl hs.message
  refine ⟨s, s', hs, hisolated.mpr (Or.inr ⟨?_, ?_⟩), hstep, ?_⟩
  · change 2 < (s.shm.segments (demoConfig.shm 0)).capacity
    rw [SharedmemSegment.capacity, hs.address, hs.size]
    decide
  · change ¬ Follows 0x5000 (s.shm.segments (demoConfig.shm 0)).address 2
    rw [hs.address]
    decide
  · refine (hback s' [] s' readHi hstep hanswer (.nil s') ?_ rfl rfl).mpr ⟨hmember, ?_⟩
    · exact haddress.trans hs.address.symm
    · change ¬ Follows (s'.shm.segments (demoConfig.shm 0)).address 0x6000 2
      rw [haddress]
      decide

/-- **A message of three bytes is written to a segment of one**: `_sys_shmwrite` copies up to
the NUL, whatever the size. -/
theorem shmwrite_overruns : ∃ s, Prepared 1 s ∧ ¬ Isolated demoConfig s writeHi 2 := by
  obtain ⟨s, hs⟩ := exists_prepared 1 (by decide +kernel)
  obtain ⟨s', hstep, hanswer, -⟩ := hs.write
  refine ⟨s, hs, ?_⟩
  rintro ⟨t, hstep', -, hrefuse⟩
  obtain rfl : s' = t := Except.ok.inj (hstep.symm.trans hstep')
  have hsmall : (s.shm.segments (demoConfig.shm 0)).capacity ≤ 2 := by
    rw [SharedmemSegment.capacity, hs.address, hs.size]
    decide
  exact absurd (hanswer.symm.trans (hrefuse hsmall)) (by decide)

end Sp2
