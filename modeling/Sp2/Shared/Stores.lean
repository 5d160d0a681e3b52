import Sp2.Lib.Descriptors
import Sp2.Shared.Strings

/-!
What the kernel stores at addresses that come from a process.

* `Procs.activePids`, `foldl_round`, `sysGetpidlist_eq`: the PIDs that `getpidlist` stores.
* `StoresAt`: the bytes of memory that a step stores at addresses of a process. `step_mem`: **it
  stores no others**.
* `ProperRecord`: what may be passed as a record, an element of `_shms` or what shares no byte
  with the kernel's data. `step_segments`: which records a step changes.
* `SparesKernel`: a step that stores nothing into the kernel's data and is passed a proper
  record. `kernel_spared`: in runs of such steps only proper records are changed.
-/

namespace Sp2

open ProcTable Procs Words X86 Address

/-! ### The PIDs of `getpidlist` -/

/-- The PIDs of the active ones of some PCBs. -/
def pidsOf (pcbs : PcbId → Pcb) (ps : List PcbId) : List UInt16 :=
  (ps.filter fun p => (pcbs p).status.isActive).map fun p => (pcbs p).pid

/-- The PIDs of the active processes, in the order of their PCBs. -/
def Procs.activePids (s : Procs) : List UInt16 := pidsOf s.pcbs (List.finRange maxProcs)

section Loop

variable {s s' : Procs} {p : PcbId}

lemma pidsOf_cons_of_pos {pcbs : PcbId → Pcb} {ps : List PcbId}
    (h : (pcbs p).status.isActive = true) :
    pidsOf pcbs (p :: ps) = (pcbs p).pid :: pidsOf pcbs ps := by
  rw [pidsOf, List.filter_cons, if_pos h]
  rfl

lemma pidsOf_cons_of_neg {pcbs : PcbId → Pcb} {ps : List PcbId}
    (h : ¬ (pcbs p).status.isActive = true) : pidsOf pcbs (p :: ps) = pidsOf pcbs ps := by
  rw [pidsOf, List.filter_cons, if_neg h]
  rfl

/-- **The loop**, by induction on the PCBs that are left. -/
lemma foldl_round (pcbs : PcbId → Pcb) : ∀ (ps : List PcbId) (l : PidList),
    (ps.foldl (fun l p => l.round (pcbs p)) l).num = l.num + UInt32.ofNat (pidsOf pcbs ps).length
      ∧ (ps.foldl (fun l p => l.round (pcbs p)) l).mem
        = storeHalves l.ptr ((pidsOf pcbs ps).take l.size.toNat) l.mem
  | [], l => by simp [pidsOf, storeHalves]
  | p :: ps, l => by
      obtain ⟨hnum, hmem⟩ := foldl_round pcbs ps (l.round (pcbs p))
      rw [List.foldl_cons, hnum, hmem]
      by_cases hactive : (pcbs p).status.isActive
      · rw [pidsOf_cons_of_pos hactive, List.length_cons]
        have hcount (n : ℕ) : l.num + 1 + UInt32.ofNat n = l.num + UInt32.ofNat (n + 1) :=
          add_one_add_ofNat l.num n
        by_cases hsize : l.size = 0
        · have hround : l.round (pcbs p) = { l with num := l.num + 1 } := by
            rw [PidList.round, if_pos hactive]
            exact if_neg (not_not.mpr hsize)
          rw [hround, ← hcount, hsize]
          exact ⟨rfl, rfl⟩
        · have hround : l.round (pcbs p)
              = ⟨store16 l.ptr (pcbs p).pid l.mem, l.ptr + 2, l.size - 1, l.num + 1⟩ := by
            rw [PidList.round, if_pos hactive]
            exact if_pos hsize
          have hpos : 0 < l.size.toNat := by
            rw [Nat.pos_iff_ne_zero]
            exact fun h => hsize (UInt32.toNat_inj.mp h)
          have hless : l.size.toNat = (l.size - 1).toNat + 1 := by
            have := l.size.toNat_lt
            rw [UInt32.toNat_sub, UInt32.toNat_one]
            omega
          rw [hround, ← hcount, hless, List.take_succ_cons]
          exact ⟨rfl, rfl⟩
      · rw [pidsOf_cons_of_neg hactive, PidList.round, if_neg hactive]
        exact ⟨rfl, rfl⟩

lemma activePids_congr (hstatus : ∀ p, (s'.pcbs p).status = (s.pcbs p).status)
    (hpid : ∀ p, (s'.pcbs p).pid = (s.pcbs p).pid) : s'.activePids = s.activePids := by
  simp only [activePids, pidsOf, hstatus, hpid]

end Loop

section Call

variable {s : KState} {p : PcbId} {context : Context} {args : Args}

lemma isrSave_activePids (hs : Sound s) (hcur : s.procs.current = some p) :
    (s.isrSave context).procs.activePids = s.procs.activePids := by
  obtain ⟨-, htable, -, -⟩ := isrSave_running context hs.core hcur
  have hproc (x : PcbId) := congrArg (fun t => t.proc x) htable
  exact activePids_congr (fun x => congrArg Proc.status (hproc x))
    fun x => congrArg Proc.pid (hproc x)

/-- What the call does. -/
lemma sysGetpidlist_eq : sysGetpidlist p args s
    = .ok ({ s with mem := storeHalves (args 0) (s.procs.activePids.take (args 1).toNat) s.mem
      }.setEax p (UInt32.ofNat s.procs.activePids.length)) := by
  obtain ⟨hnum, hmem⟩ :=
    foldl_round s.procs.pcbs (List.finRange maxProcs) ⟨s.mem, args 0, args 1, 0⟩
  rw [sysGetpidlist, hnum, hmem, UInt32.zero_add]
  rfl

end Call

/-! ### The bytes stored -/

/-- The bytes from an address on. -/
def bytesFrom (a : UInt32) (n : ℕ) : Set UInt32 := {x | (x - a).toNat < n}

/-- `sizeof(sharedmem_segment)`. -/
def segmentSize : ℕ := 24

/-- The byte of memory is one that a step stores at an address which comes from a process: in
its own stores, in the buffer of `getpidlist`, or where `shmwrite` and `shmread` copy to. -/
inductive StoresAt (s : KState) : Event → UInt32 → Prop
  | own {x : UInt32} {byte : UInt8} : StoresAt s (.store x byte) x
  | ownRecord {record x : UInt32} {segment : SharedmemSegment}
      (in_record : x ∈ bytesFrom record segmentSize) : StoresAt s (.record record segment) x
  | pids {e : Event} {x : UInt32} (is_call : e.call = some .getpidlist)
      (in_buffer :
        x ∈ bytesFrom (e.args 0) (2 * min s.procs.activePids.length (e.args 1).toNat)) :
      StoresAt s e x
  | string {e : Event} {dst src x : UInt32} {n : ℕ} (copies : Copies s e dst src)
      (is_member : (s.shm.segments (e.args 0)).hasMember s.callerPid = true)
      (is_string : IsString s.mem src n) (in_copy : x ∈ bytesFrom dst (n + 1)) : StoresAt s e x

section Memory

variable {cfg : Config} {s s' : KState} {e : Event} {p : PcbId} {context : Context} {args : Args}
  {call : SysCall} {a x : UInt32} {n : ℕ}

lemma apart_of_notMem (h : x ∉ bytesFrom a n) : Apart a n x 1 := by
  intro i hi j hj heq
  obtain rfl : j = 0 := by omega
  refine h ?_
  have hx : x = a + UInt32.ofNat i := by simpa using heq.symm
  change (x - a).toNat < n
  rw [hx, add_sub_cancel_left']
  exact lt_of_le_of_lt (Nat.mod_le i _) hi

/-- The bytes from an address on, when they do not wrap around. -/
lemma toNat_of_mem_bytesFrom (hx : x ∈ bytesFrom a n) (h : a.toNat + n ≤ 2 ^ 32) :
    a.toNat ≤ x.toNat ∧ x.toNat < a.toNat + n := by
  have hlt : (x - a).toNat < n := hx
  have hsum : x.toNat = (a.toNat + (x - a).toNat) % 2 ^ 32 := by
    rw [← UInt32.toNat_add, UInt32.add_comm, UInt32.sub_add_cancel]
  rw [Nat.mod_eq_of_lt (by omega)] at hsum
  exact ⟨by omega, by omega⟩

lemma liftProcs_mem {f : Procs → Res Procs} (h : s.liftProcs f = .ok s') : s'.mem = s.mem := by
  obtain ⟨ps, -, rfl⟩ := liftProcs_ok h
  rfl

lemma step_clock_mem (hs : Sound s) (hcur : s.procs.current = some p)
    (h : step cfg s (.clock context) = .ok s') : s'.mem = s.mem := by
  obtain ⟨hcur', htable, -, -⟩ := isrSave_running context hs.core hcur
  obtain ⟨ps, heq, -⟩ :=
    isrClock_spec cfg (htable ▸ hs.core) (htable ▸ hs.no_requests) hcur'
  exact (liftProcs_mem (heq.symm.trans h)).trans isrSave_mem

lemma rxInterrupt_mem {ch : UInt8} (h : rxInterrupt ch s = .ok s') : s'.mem = s.mem := by
  unfold rxInterrupt at h
  simp only at h
  split at h
  · split at h
    · cases h
    · split at h
      · cases h
      · obtain rfl := Except.ok.inj h
        rfl
  · split at h <;> obtain rfl := Except.ok.inj h <;> rfl

lemma step_sio_mem {polls : List (UInt8 × UInt8)} (h : step cfg s (.sio context polls) = .ok s') :
    s'.mem = s.mem := by
  refine ((isrSio_ok_iff.mp h).invariant (I := fun t => t.mem = s.mem) isrSave_mem ?_)
  intro t poll t' ht _ hround
  rw [sioRound] at hround
  split_ifs at hround
  · obtain rfl := Except.ok.inj hround
    exact ht
  · exact (rxInterrupt_mem hround).trans ht

/-- The calls that store nothing. -/
lemma sysHandler_mem (h : sysHandler cfg p args s call = .ok s')
    (hcall : call ≠ .getpidlist ∧ call ≠ .shmwrite ∧ call ≠ .shmread)
    (hmoves : call.movesShared = false) : s'.mem = s.mem := by
  cases call with
  | spawn | spawnl | sleep | exit | kill => exact liftProcs_mem h
  | read =>
      rw [sysHandler, sysRead] at h
      split at h
      · obtain rfl := Except.ok.inj h
        rfl
      · exact (liftProcs_mem h).trans rfl
  | getpidlist => exact absurd rfl hcall.1
  | shmwrite => exact absurd rfl hcall.2.1
  | shmread => exact absurd rfl hcall.2.2
  | shmget | shmat | shmdt | shmrm => exact absurd hmoves (by simp [SysCall.movesShared])
  | _ =>
      obtain rfl := Except.ok.inj h
      rfl

/-- A copy changes the bytes it copies to. -/
lemma step_copies_mem {dst src : UInt32} (hs : Sound s) (hcopy : Copies s e dst src)
    (h : step cfg s e = .ok s') (hx : ¬ StoresAt s e x) : s'.mem x = s.mem x := by
  by_cases hmember : (s.shm.segments (e.args 0)).hasMember s.callerPid = false
  · obtain ⟨t, hstep, -, -, hmem⟩ := step_copies_refused cfg hs hcopy hmember
    obtain rfl := Except.ok.inj (hstep.symm.trans h)
    rw [hmem]
  · have hmember' := Bool.not_eq_false _ ▸ hmember
    obtain ⟨n, hstring⟩ := exists_string_of_step hs hcopy hmember' h
    obtain ⟨hhang, hends⟩ := step_copies cfg hs hcopy hstring hmember'
    obtain ⟨t, hstep, -, -, hmem⟩ := hends fun hover => hhang hover s' h
    obtain rfl := Except.ok.inj (hstep.symm.trans h)
    rw [hmem]
    refine if_neg fun hle => hx ?_
    exact .string hcopy hmember' hstring (Nat.lt_succ_of_le hle)

/-- `getpidlist` changes its buffer. -/
lemma step_getpidlist_mem (hs : Sound s) (hcur : s.procs.current = some p)
    (hcall : e.call = some .getpidlist) (h : step cfg s e = .ok s') (hx : ¬ StoresAt s e x) :
    s'.mem x = s.mem x := by
  obtain ⟨context, args, rfl, hnum, heq⟩ := step_call cfg hcur hcall
  rw [heq, sysHandler, sysGetpidlist_eq, isrSave_activePids hs hcur, isrSave_mem] at h
  obtain rfl := Except.ok.inj h
  have hout : x ∉ bytesFrom (args 0) (2 * min s.procs.activePids.length (args 1).toNat) :=
    fun hin => hx (.pids hcall hin)
  have hsame : SameOn (storeHalves (args 0) (s.procs.activePids.take (args 1).toNat) s.mem)
      s.mem x 1 := by
    refine SameOn.storeHalves ?_
    rw [List.length_take, Nat.min_comm]
    exact apart_of_notMem hout
  have hbyte : storeHalves (args 0) (s.procs.activePids.take (args 1).toNat) s.mem x = s.mem x := by
    simpa using hsame 0 Nat.zero_lt_one
  exact hbyte

/-- **A step changes only the bytes that it stores.** -/
theorem step_mem (hs : Sound s) (h : step cfg s e = .ok s') (hx : ¬ StoresAt s e x) :
    s'.mem x = s.mem x := by
  obtain ⟨p, hcur⟩ := hs.exists_cur
  cases e with
  | syscall context args =>
      cases hnum : SysCall.ofNum context.eax
      case getpidlist => exact step_getpidlist_mem hs hcur (call_syscall args hnum) h hx
      case shmwrite => exact step_copies_mem hs (Or.inl ⟨call_syscall args hnum, rfl, rfl⟩) h hx
      case shmread => exact step_copies_mem hs (Or.inr ⟨call_syscall args hnum, rfl, rfl⟩) h hx
      case shmget | shmat | shmdt | shmrm =>
        exact congrFun (step_shared_mem hcur (call_syscall args hnum) rfl h) x
      all_goals
        rw [step_syscall hcur, hnum] at h
        exact congrFun ((sysHandler_mem h (by simp) rfl).trans isrSave_mem) x
  | clock context => exact congrFun (step_clock_mem hs hcur h) x
  | sio context polls => exact congrFun (step_sio_mem h) x
  | store address byte =>
      obtain rfl := Except.ok.inj h
      refine Function.update_of_ne (fun heq => hx ?_) _ _
      rw [heq]
      exact .own
  | record address segment =>
      obtain rfl := Except.ok.inj h
      rw [KState.storeRecord]
      split_ifs <;> rfl

end Memory

/-! ### The records -/

/-- The addresses of the kernel's data: those in `kernel`, of its code, its stack, its variables
other than the arena and the contexts it saves, and those of the elements of `_shms`. -/
def Config.kernelData (cfg : Config) (kernel : Set UInt32) : Set UInt32 :=
  kernel ∪ ⋃ i, bytesFrom (cfg.shm i) segmentSize

/-- The record at an address is an element of `_shms`, or no byte of it is kernel data. -/
def ProperRecord (cfg : Config) (kernel : Set UInt32) (a : UInt32) : Prop :=
  (∃ i, cfg.shm i = a) ∨ ∀ x ∈ bytesFrom a segmentSize, x ∉ cfg.kernelData kernel

/-- The calls that are passed a record. -/
def SysCall.takesRecord : SysCall → Bool
  | shmwrite | shmread | shmdt | shmrm => true
  | _ => false

/-- The calls that store into memory at an address of the process. -/
def SysCall.storesOut : SysCall → Bool
  | getpidlist | shmwrite | shmread => true
  | _ => false

/-- No byte that the step stores at an address of a process is kernel data, and what it is
passed as a record is a proper one. -/
structure SparesKernel (cfg : Config) (kernel : Set UInt32) (s : KState) (e : Event) : Prop where
  stores : ∀ x, StoresAt s e x → x ∉ cfg.kernelData kernel
  record : ∀ call, e.call = some call → call.takesRecord = true →
    ProperRecord cfg kernel (e.args 0)

/-- The records that the kernel will change without being passed them: those of the pool and
the current one. -/
structure ProperRecords (cfg : Config) (kernel : Set UInt32) (s : KState) : Prop where
  pool : ∀ a ∈ s.pool, ProperRecord cfg kernel a
  current : s.shm.currentShms ≠ 0 → ProperRecord cfg kernel s.shm.currentShms

section Records

variable {cfg : Config} {kernel : Set UInt32} {P : KState → Event → Prop} {s s' : KState}
  {e : Event} {a x : UInt32}

/-- A call that stores nothing at an address of the process. -/
lemma SparesKernel.of_call {call : SysCall} (hcall : e.call = some call)
    (hstores : call.storesOut = false)
    (hrecord : call.takesRecord = true → ProperRecord cfg kernel (e.args 0)) :
    SparesKernel cfg kernel s e := by
  refine ⟨fun x hx => ?_, fun call' hcall' => ?_⟩
  · have hnot : ∀ {call' : SysCall}, call'.storesOut = true → e.call ≠ some call' := by
      intro call' htrue hcall'
      rw [← Option.some.inj (hcall'.symm.trans hcall), htrue] at hstores
      exact Bool.noConfusion hstores
    cases hx with
    | own => exact absurd hcall (by simp [Event.call])
    | ownRecord => exact absurd hcall (by simp [Event.call])
    | pids is_call => exact absurd is_call (hnot rfl)
    | string copies =>
        rcases copies with ⟨hwrite, -⟩ | ⟨hread, -⟩
        · exact absurd hwrite (hnot rfl)
        · exact absurd hread (hnot rfl)
  · rw [← Option.some.inj (hcall.symm.trans hcall')]
    exact hrecord

lemma setSegment_segments_ne {f : SharedmemSegment → SharedmemSegment} {shm : Shm} {b : UInt32}
    (h : (shm.setSegment b f).segments a ≠ shm.segments a) : a = b := by
  by_contra hne
  exact h (Function.update_of_ne hne _ _)

/-- **The records that a step changes**: one that a process stores, the first of the pool, the
current one, and the one passed to `shmrm`. -/
lemma step_segments (hs : Sound s) (hstep : step cfg s e = .ok s')
    (hne : s'.shm.segments a ≠ s.shm.segments a) :
    (∃ segment, e = .record a segment) ∨ a ∈ s.pool
      ∨ (s.shm.currentShms ≠ 0 ∧ a = s.shm.currentShms)
      ∨ e.call = some .shmrm ∧ a = e.args 0 := by
  obtain ⟨p, hcur⟩ := hs.exists_cur
  cases step_shared hs hcur hstep with
  | other _ hsame => exact absurd (by rw [hsame.shm]) hne
  | @record _ segment _ _ hshm _ =>
      rw [hshm] at hne
      obtain rfl := setSegment_segments_ne hne
      exact Or.inl ⟨segment, rfl⟩
  | getNone _ _ hshm _ _ => exact absurd (by rw [hshm]) hne
  | @get _ _ _ address _ hfirst _ hshm _ =>
      obtain rfl : a = address := by
        by_contra hother
        exact hne (by rw [hshm]; exact Function.update_of_ne hother _ _)
      exact Or.inr (Or.inl (hfirst ▸ List.mem_cons_self))
  | attach _ hcurrent _ _ hshm _ _ =>
      rw [hshm] at hne
      exact Or.inr (Or.inr (Or.inl ⟨hcurrent, setSegment_segments_ne hne⟩))
  | full _ _ _ _ hsame _ => exact absurd (by rw [hsame.shm]) hne
  | stranger _ _ hsame _ => exact absurd (by rw [hsame.shm]) hne
  | empty _ _ _ _ _ hsame _ => exact absurd (by rw [hsame.shm]) hne
  | detach _ _ hcurrent _ _ _ hshm _ _ =>
      rw [hshm] at hne
      exact Or.inr (Or.inr (Or.inl ⟨hcurrent, setSegment_segments_ne hne⟩))
  | remove hnum _ _ hshm _ _ =>
      rw [hshm] at hne
      exact Or.inr (Or.inr (Or.inr ⟨congrArg some hnum, setSegment_segments_ne hne⟩))

lemma initial_properRecords (h : Initial cfg s) : ProperRecords cfg kernel s := by
  obtain ⟨hcurrent, -, -, -, hpool⟩ := initial_shared h
  refine ⟨fun a ha => ?_, fun hne => absurd hcurrent hne⟩
  rw [hpool] at ha
  obtain ⟨i, -, rfl⟩ := List.mem_map.mp ha
  exact Or.inl ⟨i, rfl⟩

lemma ProperRecords.of_same (h : ProperRecords cfg kernel s) (hsame : SameShared s s') :
    ProperRecords cfg kernel s' := by
  refine ⟨fun a ha => h.pool a (hsame.pool ▸ ha), ?_⟩
  rw [hsame.shm]
  exact h.current

/-- **One step** keeps the records proper. -/
lemma ProperRecords.step (h : ProperRecords cfg kernel s) (hs : Sound s)
    (he : SparesKernel cfg kernel s e) (hstep : step cfg s e = .ok s') :
    ProperRecords cfg kernel s' := by
  obtain ⟨p, hcur⟩ := hs.exists_cur
  have hsegment : ∀ {b : UInt32} {f : SharedmemSegment → SharedmemSegment},
      s'.shm = s.shm.setSegment b f → s'.pool = s.pool → ProperRecords cfg kernel s' := by
    intro b f hshm hpool
    refine ⟨fun a ha => h.pool a (hpool ▸ ha), ?_⟩
    rw [hshm]
    exact h.current
  cases step_shared hs hcur hstep with
  | other _ hsame => exact h.of_same hsame
  | record _ hshm hpool => exact hsegment hshm hpool
  | getNone _ _ hshm hpool _ =>
      refine ⟨fun a ha => h.pool a (List.mem_of_mem_tail (hpool ▸ ha)), fun hne => ?_⟩
      exact absurd (by rw [hshm]) hne
  | get _ hfirst _ hshm _ =>
      refine ⟨fun a ha => h.pool a (hfirst ▸ List.mem_cons_of_mem _ ha), fun _ => ?_⟩
      rw [hshm]
      exact h.pool _ (hfirst ▸ List.mem_cons_self)
  | attach _ _ _ _ hshm hpool _ => exact hsegment hshm hpool
  | full _ _ _ _ hsame _ => exact h.of_same hsame
  | stranger _ _ hsame _ => exact h.of_same hsame
  | empty _ _ _ _ _ hsame _ => exact h.of_same hsame
  | detach _ _ _ _ _ _ hshm hpool _ => exact hsegment hshm hpool
  | remove hnum _ _ hshm hpool _ =>
      refine ⟨fun a ha => ?_, ?_⟩
      · rw [hpool] at ha
        split_ifs at ha
        · exact h.pool a ha
        · rcases List.mem_append.mp ha with hold | hnew
          · exact h.pool a hold
          · rw [List.mem_singleton.mp hnew]
            exact he.record .shmrm (congrArg some hnum) rfl
      · rw [hshm]
        exact h.current

/-- **The kernel's data is spared**: in a run whose steps all store elsewhere and are passed
proper records, no byte of it is changed as memory, and of the records only elements of `_shms`
and those that lie elsewhere. -/
theorem kernel_spared (h : Reachable cfg P s) (hP : ∀ s e, P s e → SparesKernel cfg kernel s e)
    (he : P s e) (hstep : step cfg s e = .ok s') :
    (∀ x ∈ cfg.kernelData kernel, s'.mem x = s.mem x)
      ∧ ∀ a, s'.shm.segments a ≠ s.shm.segments a → ProperRecord cfg kernel a := by
  have hs := reachable_sound h
  have hproper : Sound s ∧ ProperRecords cfg kernel s :=
    h.invariant (J := fun s => Sound s ∧ ProperRecords cfg kernel s)
      (fun _ h₀ => ⟨initial_sound h₀, initial_properRecords h₀⟩)
      fun _ _ _ ⟨hs, hproper⟩ hP' hstep' =>
        ⟨step_sound hs hstep', hproper.step hs (hP _ _ hP') hstep'⟩
  have hspares := hP _ _ he
  refine ⟨fun x hx => step_mem hs hstep fun hstores => hspares.stores x hstores hx, ?_⟩
  intro a hne
  rcases step_segments hs hstep hne with ⟨segment, rfl⟩ | hpool | ⟨hcurrent, rfl⟩ | ⟨hcall, rfl⟩
  · exact Or.inr fun x hx => hspares.stores x (.ownRecord hx)
  · exact hproper.2.pool a hpool
  · exact hproper.2.current hcurrent
  · exact hspares.record .shmrm hcall rfl

end Records

/-! ### The kernel's data in the build with one tick in a second -/

/-- Everything between the elements of `_shms` and the arena. -/
def demoKernel : Set UInt32 := {x | 0x10000 ≤ x.toNat ∧ x.toNat < 0x20000}

lemma demo_kernelData {x : UInt32} (h : x ∈ demoConfig.kernelData demoKernel) :
    x ∈ demoKernel := by
  rcases h with hkernel | helement
  · exact hkernel
  · obtain ⟨i, hi⟩ := Set.mem_iUnion.mp helement
    have hshm : ∀ i, (demoConfig.shm i).toNat = 0x10000 + 24 * i := by decide
    have hlt := i.isLt
    simp only [maxShms] at hlt
    obtain ⟨hle, hless⟩ := toNat_of_mem_bytesFrom hi (by rw [hshm, segmentSize]; omega)
    rw [hshm, segmentSize] at hless
    rw [hshm] at hle
    exact ⟨by omega, by omega⟩

/-- What lies below it is none of it. -/
lemma notMem_demoKernel {a x : UInt32} {n : ℕ} (hx : x ∈ bytesFrom a n)
    (h : a.toNat + n ≤ 0x10000) : x ∉ demoConfig.kernelData demoKernel := by
  intro hkernel
  have hle := (demo_kernelData hkernel).1
  have hless := (toNat_of_mem_bytesFrom hx (by omega)).2
  omega

end Sp2
