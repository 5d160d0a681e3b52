import Sp2.Lib.Address
import Sp2.Shared.Calls

/-!
Strings in memory and the calls that copy them.

* `IsString`: the bytes at an address up to their NUL.
* `copied`, `strcpy_eq_some`, `strcpy_eq_none`: **what `_strcpy` does with a string**: it
  copies it, or it never ends because it overwrites the NUL before it has read it.
* `Copies`, `step_copies`, `step_copies_refused`: `shmwrite` and `shmread` are one call, which
  copies between a segment and the caller's memory.
-/

namespace Sp2

open ProcTable Procs Address

/-- The string at an address: `n` bytes that are not NUL, and the NUL. -/
structure IsString (mem : Memory) (src : UInt32) (n : ℕ) : Prop where
  lt : n < memorySize
  byte : ∀ k < n, mem (src + UInt32.ofNat k) ≠ 0
  nul : mem (src + UInt32.ofNat n) = 0

/-- Memory after `n + 1` bytes have been copied. -/
def copied (dst src : UInt32) (n : ℕ) (mem : Memory) : Memory := fun x =>
  if (x - dst).toNat ≤ n then mem (src + (x - dst)) else mem x

/-- The address is one of the `n` after another. -/
def Follows (src dst : UInt32) (n : ℕ) : Prop := 0 < (dst - src).toNat ∧ (dst - src).toNat ≤ n

instance (src dst : UInt32) (n : ℕ) : Decidable (Follows src dst n) :=
  inferInstanceAs (Decidable (0 < (dst - src).toNat ∧ (dst - src).toNat ≤ n))

section Copying

variable {mem mem' : Memory} {dst src x : UInt32} {n d fuel : ℕ}

lemma copied_zero : copied dst src 0 mem = Function.update mem dst (mem src) := by
  funext x
  rw [copied]
  by_cases hx : x = dst
  · subst hx
    rw [Function.update_self, if_pos (by simp)]
    simp
  · rw [Function.update_of_ne hx, if_neg]
    intro hle
    refine hx (UInt32.toNat_inj.mp ?_)
    have hsub := UInt32.toNat_sub x dst
    have := x.toNat_lt
    have := dst.toNat_lt
    omega

/-- The first byte copied, and then the others. -/
lemma copied_succ (hn : n + 1 < memorySize) (hover : ¬ Follows src dst (n + 1)) :
    copied (dst + 1) (src + 1) n (Function.update mem dst (mem src))
      = copied dst src (n + 1) mem := by
  funext x
  rw [copied, copied]
  by_cases hx : x = dst
  · subst hx
    have hlast : ¬ (x - (x + 1)).toNat ≤ n := by
      simp only [UInt32.toNat_sub, UInt32.toNat_add, UInt32.toNat_one]
      have := x.toNat_lt
      rw [memorySize] at hn
      omega
    rw [if_neg hlast, Function.update_self, if_pos (by simp)]
    simp
  · have hstep := toNat_sub_add_one hx
    by_cases hle : (x - dst).toNat ≤ n + 1
    · rw [if_pos hle, if_pos (by omega), add_one_add_sub, Function.update_of_ne]
      -- a byte that has been overwritten would be one of those to be copied
      intro heq
      have hsub : dst - src = x - dst := by rw [← heq, add_sub_cancel_left', heq]
      refine hover ⟨?_, ?_⟩ <;> rw [hsub] <;> omega
    · rw [if_neg hle, if_neg (by omega), Function.update_of_ne hx]

lemma IsString.head (h : IsString mem src (n + 1)) : mem src ≠ 0 := by
  simpa using h.byte 0 (Nat.succ_pos n)

/-- The rest of a string, whose first byte has been copied. -/
lemma IsString.tail (h : IsString mem src (n + 1)) (hover : ¬ Follows src dst (n + 1)) :
    IsString (Function.update mem dst (mem src)) (src + 1) n := by
  have hlt := h.lt
  have hkeep : ∀ k ≤ n, Function.update mem dst (mem src) (src + 1 + UInt32.ofNat k)
      = mem (src + UInt32.ofNat (k + 1)) := by
    intro k hk
    rw [add_one_add_ofNat, Function.update_of_ne]
    intro heq
    have hsub : (dst - src).toNat = k + 1 := by
      rw [← heq, add_sub_cancel_left', toNat_ofNat_lt (by rw [memorySize] at hlt; omega)]
    exact hover ⟨by omega, by omega⟩
  refine ⟨by omega, fun k hk => ?_, ?_⟩
  · rw [hkeep k (by omega)]
    exact h.byte (k + 1) (by omega)
  · rw [hkeep n le_rfl]
    exact h.nul

lemma not_follows_add_one (hover : ¬ Follows src dst (n + 1)) :
    ¬ Follows (src + 1) (dst + 1) n := by
  rintro ⟨hpos, hle⟩
  rw [add_one_sub_add_one] at hpos hle
  exact hover ⟨hpos, by omega⟩

/-- **`_strcpy` copies a string** and its NUL if it does not write into what it has not read
yet, by induction on the length. -/
theorem strcpy_eq_some (h : IsString mem src n) (hover : ¬ Follows src dst n) (hfuel : n < fuel) :
    strcpy dst src fuel mem = some (copied dst src n mem) := by
  induction n generalizing dst src mem fuel with
  | zero =>
      obtain ⟨fuel, rfl⟩ := Nat.exists_eq_add_of_lt hfuel
      have hnul : mem src = 0 := by simpa using h.nul
      rw [strcpy]
      simp only [hnul, if_true]
      rw [copied_zero, hnul]
  | succ n ih =>
      obtain ⟨fuel, rfl⟩ := Nat.exists_eq_add_of_lt hfuel
      rw [strcpy]
      simp only [if_neg h.head]
      rw [ih (h.tail hover) (not_follows_add_one hover) (by omega), copied_succ h.lt hover]

/-- **`_strcpy` never ends** when the destination follows the source before its NUL: the `d`
bytes it has not read yet are never NUL, by induction on the fuel. -/
theorem strcpy_eq_none (hd : (dst - src).toNat = d) (hpos : 0 < d)
    (hbyte : ∀ k < d, mem (src + UInt32.ofNat k) ≠ 0) : strcpy dst src fuel mem = none := by
  induction fuel generalizing dst src mem with
  | zero => rfl
  | succ fuel ih =>
      have hhead : mem src ≠ 0 := by simpa using hbyte 0 hpos
      rw [strcpy]
      simp only [if_neg hhead]
      refine ih (by rw [add_one_sub_add_one, hd]) fun k hk => ?_
      rw [add_one_add_ofNat]
      by_cases heq : src + UInt32.ofNat (k + 1) = dst
      · rw [heq, Function.update_self]
        exact hhead
      · rw [Function.update_of_ne heq]
        refine hbyte (k + 1) (lt_of_le_of_ne hk fun hlast => heq ?_)
        have hlt := (dst - src).toNat_lt
        rw [hlast, ← hd, UInt32.ofNat_toNat]
        rw [← UInt32.toNat_inj, UInt32.toNat_add, UInt32.toNat_sub]
        have := dst.toNat_lt
        have := src.toNat_lt
        omega

/-- `_strcpy` ends exactly when the destination does not follow the source before its NUL. -/
lemma strcpy_of_string (h : IsString mem src n) : strcpy dst src memorySize mem
    = if Follows src dst n then none else some (copied dst src n mem) := by
  split_ifs with hover
  · exact strcpy_eq_none rfl hover.1 fun k hk => h.byte k (lt_of_lt_of_le hk hover.2)
  · exact strcpy_eq_some h hover h.lt

/-- A string with the same bytes. -/
lemma IsString.congr (h : IsString mem src n)
    (hsame : ∀ k ≤ n, mem' (dst + UInt32.ofNat k) = mem (src + UInt32.ofNat k)) :
    IsString mem' dst n := by
  refine ⟨h.lt, fun k hk => ?_, ?_⟩
  · rw [hsame k hk.le]
    exact h.byte k hk
  · rw [hsame n le_rfl]
    exact h.nul

/-- An address that is none of the destination is not changed. -/
lemma copied_of_ne (hx : ∀ k ≤ n, x ≠ dst + UInt32.ofNat k) : copied dst src n mem x = mem x := by
  refine if_neg fun hle => hx _ hle ?_
  rw [UInt32.ofNat_toNat, UInt32.add_comm, UInt32.sub_add_cancel]

/-- Copies of the same bytes. -/
lemma copied_congr (hsame : ∀ k ≤ n, mem' (src + UInt32.ofNat k) = mem (src + UInt32.ofNat k))
    (hx : mem' x = mem x) : copied dst src n mem' x = copied dst src n mem x := by
  rw [copied, copied]
  split_ifs with hle
  · have hbyte := hsame _ hle
    rwa [UInt32.ofNat_toNat] at hbyte
  · exact hx

end Copying

/-! ### The calls -/

/-- What `_sys_shmwrite` and `_sys_shmread` do for a member of the record passed, and for
others. -/
def KState.copyString (p : PcbId) (record dst src : UInt32) (s : KState) : Res KState :=
  if (s.shm.segments record).hasMember (s.procs.pcbs p).pid = false then
    .ok (s.setEax p minusOne)
  else
    match strcpy dst src memorySize s.mem with
    | none => .error (.hang, s)
    | some mem => .ok ({ s with mem := mem }.setEax p 1)

/-- The event is a `shmwrite` or a `shmread` that copies from one address to another, if it
copies. -/
def Copies (s : KState) (e : Event) (dst src : UInt32) : Prop :=
  (e.call = some .shmwrite ∧ dst = (s.shm.segments (e.args 0)).address ∧ src = e.args 1)
    ∨ e.call = some .shmread ∧ dst = e.args 1 ∧ src = (s.shm.segments (e.args 0)).address

section Calls

variable {cfg : Config} {s : KState} {e : Event} {p : PcbId} {dst src : UInt32} {args : Args}
  {n : ℕ}

lemma sysShmwrite_eq : sysShmwrite p args s
    = s.copyString p (args 0) (s.shm.segments (args 0)).address (args 1) := by
  cases hmember : (s.shm.segments (args 0)).hasMember (s.procs.pcbs p).pid <;>
    cases hcopy : strcpy (s.shm.segments (args 0)).address (args 1) memorySize s.mem <;>
    simp [sysShmwrite, KState.copyString, hmember, hcopy]

lemma sysShmread_eq : sysShmread p args s
    = s.copyString p (args 0) (args 1) (s.shm.segments (args 0)).address := by
  cases hmember : (s.shm.segments (args 0)).hasMember (s.procs.pcbs p).pid <;>
    cases hcopy : strcpy (args 1) (s.shm.segments (args 0)).address memorySize s.mem <;>
    simp [sysShmread, KState.copyString, hmember, hcopy]

lemma step_copyString (cfg : Config) {context : Context} (hcur : s.procs.current = some p)
    (hcopy : Copies s (.syscall context args) dst src) :
    step cfg s (.syscall context args) = (s.isrSave context).copyString p (args 0) dst src := by
  rw [step_syscall hcur]
  rcases hcopy with ⟨hcall, rfl, rfl⟩ | ⟨hcall, rfl, rfl⟩
  · rw [Option.some.inj hcall, sysHandler, sysShmwrite_eq, isrSave_shm]
    rfl
  · rw [Option.some.inj hcall, sysHandler, sysShmread_eq, isrSave_shm]
    rfl

lemma Copies.isSyscall (h : Copies s e dst src) : ∃ context args, e = .syscall context args := by
  cases e with
  | syscall context args => exact ⟨context, args, rfl⟩
  | _ => exact absurd h (by simp [Copies, Event.call])

/-- What the check of the calls sees when the kernel has been entered. -/
lemma hasMember_isrSave {context : Context} (hs : Sound s) (hcur : s.procs.current = some p)
    (record : UInt32) : ((s.isrSave context).shm.segments record).hasMember
      ((s.isrSave context).procs.pcbs p).pid = (s.shm.segments record).hasMember s.callerPid := by
  have hpid : ((s.isrSave context).procs.pcbs p).pid = s.pidOf p :=
    (isrSave_shared context hs hcur).2.1
  rw [isrSave_shm, hpid, callerPid_eq hcur]

/-- The state after a call by a caller that is not recorded in the record passed. -/
lemma step_refused_eq (cfg : Config) {context : Context} (hs : Sound s)
    (hcur : s.procs.current = some p) (hcopy : Copies s (.syscall context args) dst src)
    (hmember : (s.shm.segments (args 0)).hasMember s.callerPid = false) :
    step cfg s (.syscall context args) = .ok ((s.isrSave context).setEax p minusOne) := by
  rw [step_copyString cfg hcur hcopy, KState.copyString, hasMember_isrSave hs hcur, if_pos hmember]

/-- The state after a call by a caller that is recorded, if it returns. -/
lemma step_copied_eq (cfg : Config) {context : Context} (hs : Sound s)
    (hcur : s.procs.current = some p) (hcopy : Copies s (.syscall context args) dst src)
    (hmember : (s.shm.segments (args 0)).hasMember s.callerPid = true)
    (h : IsString s.mem src n) : step cfg s (.syscall context args)
      = if Follows src dst n then .error (.hang, s.isrSave context)
        else .ok ({ s.isrSave context with mem := copied dst src n s.mem }.setEax p 1) := by
  rw [step_copyString cfg hcur hcopy, KState.copyString, hasMember_isrSave hs hcur, hmember,
    if_neg (by simp), isrSave_mem, strcpy_of_string h]
  split_ifs <;> rfl

/-- A caller that is not recorded in the record passed is refused. -/
lemma step_copies_refused (cfg : Config) (hs : Sound s) (hcopy : Copies s e dst src)
    (hmember : (s.shm.segments (e.args 0)).hasMember s.callerPid = false) :
    ∃ s', step cfg s e = .ok s' ∧ s.answer s' = some minusOne ∧ SameShared s s'
      ∧ s'.mem = s.mem := by
  obtain ⟨p, hcur⟩ := hs.exists_cur
  obtain ⟨context, args, rfl⟩ := hcopy.isSyscall
  obtain ⟨hsame, -, -⟩ := isrSave_shared context hs hcur
  obtain ⟨-, -, -, hcontext⟩ := isrSave_running context hs.core hcur
  refine ⟨_, step_refused_eq cfg hs hcur hcopy hmember, ?_, hsame.trans sameShared_setEax,
    isrSave_mem⟩
  rw [answer_eq hcur]
  exact eax_setEax hcontext

/-- **What the calls do for a caller that is recorded**: they copy the string, or never
return. -/
lemma step_copies (cfg : Config) (hs : Sound s) (hcopy : Copies s e dst src)
    (h : IsString s.mem src n)
    (hmember : (s.shm.segments (e.args 0)).hasMember s.callerPid = true) :
    (Follows src dst n → ∀ s', step cfg s e ≠ .ok s')
      ∧ (¬ Follows src dst n → ∃ s', step cfg s e = .ok s' ∧ s.answer s' = some 1
        ∧ SameShared s s' ∧ s'.mem = copied dst src n s.mem) := by
  obtain ⟨p, hcur⟩ := hs.exists_cur
  obtain ⟨context, args, rfl⟩ := hcopy.isSyscall
  obtain ⟨hsame, -, -⟩ := isrSave_shared context hs hcur
  obtain ⟨-, -, -, hcontext⟩ := isrSave_running context hs.core hcur
  have heq := step_copied_eq cfg hs hcur hcopy hmember h
  constructor
  · intro hover s' hstep
    rw [if_pos hover] at heq
    exact absurd (heq.symm.trans hstep) (by simp)
  · intro hover
    rw [if_neg hover] at heq
    refine ⟨_, heq, ?_, ⟨hsame.shm, hsame.pool⟩, rfl⟩
    rw [answer_eq hcur]
    exact eax_setEax hcontext

/-- A copy that ends has read a string. -/
lemma exists_string {mem : Memory} {fuel : ℕ} (h : strcpy dst src fuel mem ≠ none) :
    ∃ n, IsString mem src n := by
  by_contra hno
  have hbyte : ∀ n, n < memorySize → mem (src + UInt32.ofNat n) ≠ 0 := by
    intro n
    induction n using Nat.strong_induction_on with
    | _ n ih => exact fun hn hnul => hno ⟨n, hn, fun k hk => ih k hk (hk.trans hn), hnul⟩
  have hall : ∀ x, mem x ≠ 0 := by
    intro x
    have hx := hbyte (x - src).toNat (x - src).toNat_lt
    rwa [UInt32.ofNat_toNat, UInt32.add_comm, UInt32.sub_add_cancel] at hx
  have hnone : ∀ (fuel : ℕ) (dst src : UInt32) (mem : Memory), (∀ x, mem x ≠ 0) →
      strcpy dst src fuel mem = none := by
    intro fuel
    induction fuel with
    | zero => exact fun _ _ _ _ => rfl
    | succ fuel ih =>
        intro dst src mem hall
        rw [strcpy]
        simp only [if_neg (hall src)]
        refine ih _ _ _ fun x => ?_
        by_cases hx : x = dst
        · rw [hx, Function.update_self]
          exact hall src
        · rw [Function.update_of_ne hx]
          exact hall x
  exact h (hnone fuel dst src mem hall)

/-- A call that returns to a caller that is recorded has copied a string. -/
lemma exists_string_of_step {s' : KState} (hs : Sound s) (hcopy : Copies s e dst src)
    (hmember : (s.shm.segments (e.args 0)).hasMember s.callerPid = true)
    (hstep : step cfg s e = .ok s') : ∃ n, IsString s.mem src n := by
  obtain ⟨p, hcur⟩ := hs.exists_cur
  obtain ⟨context, args, rfl⟩ := hcopy.isSyscall
  suffices hends : strcpy dst src memorySize s.mem ≠ none from exists_string hends
  intro hnone
  have heq := step_copyString cfg hcur hcopy
  change (s.shm.segments (args 0)).hasMember s.callerPid = true at hmember
  rw [KState.copyString, hasMember_isrSave hs hcur, hmember, isrSave_mem, hnone] at heq
  exact absurd (heq.symm.trans hstep) (by simp)

end Calls

end Sp2
