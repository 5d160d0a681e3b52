import Sp2.Machine.Stubs

/-!
Saving and restoring a context.

* `savedContext`, `entered`: what an interrupt leaves in memory: the context on the stack of the
  process, the stack pointer in its PCB and the parameters on the system stack.
* `leaveIsr_eq`: what `__isr_restore` makes of a context.
* `makeProcAt_spec`: the stack of a new process.
* `context_switched`: **a context survives the switch, a new process starts at its entry point,
  and a system call is given its arguments**.
-/

namespace Sp2

open Words X86 Address

/-! ### Entering a service routine -/

section Enter

variable {upper : Seg → UInt16} {upperCs cs : UInt16} {current systemEsp code eip : UInt32}
  {vector : UInt8} {m r : Cpu} {n : ℕ}

/-- The context of an interrupted process. -/
def savedContext (upper : Seg → UInt16) (upperCs : UInt16) (vector : UInt8) (code : UInt32)
    (m : Cpu) : Context where
  ss := selectorWord (m.seg .ss) (upper .ss)
  gs := selectorWord (m.seg .gs) (upper .gs)
  fs := selectorWord (m.seg .fs) (upper .fs)
  es := selectorWord (m.seg .es) (upper .es)
  ds := selectorWord (m.seg .ds) (upper .ds)
  edi := m.reg .edi
  esi := m.reg .esi
  ebp := m.reg .ebp
  esp := m.reg .esp - 20
  ebx := m.reg .ebx
  edx := m.reg .edx
  ecx := m.reg .ecx
  eax := m.reg .eax
  vector := vector.toUInt32
  code := if vector ∈ Cpu.errorCodeVectors then code else 0
  eip := m.eip
  cs := selectorWord m.cs upperCs
  eflags := m.eflags

/-- `ERR_ISR` is used exactly where the hardware pushes an error code. -/
lemma errIsrVectors_eq : errIsrVectors = Cpu.errorCodeVectors := rfl

/-- `isr_save` pushes its words on top of those that are there. -/
lemma run_isrSavePushes {ws : List UInt32} {eflags : UInt32} :
    run upper isrSavePushes ((pushAll ws m).jump cs eip eflags)
      = (pushAll (ws ++ [m.reg .eax, m.reg .ecx, m.reg .edx, m.reg .ebx, (pushAll ws m).reg .esp,
          m.reg .ebp, m.reg .esi, m.reg .edi, selectorWord (m.seg .ds) (upper .ds),
          selectorWord (m.seg .es) (upper .es), selectorWord (m.seg .fs) (upper .fs),
          selectorWord (m.seg .gs) (upper .gs), selectorWord (m.seg .ss) (upper .ss)]) m).jump
          cs eip eflags := by
  simp [run, isrSavePushes, Instr.exec, Cpu.pusha, pushAll_push]

/-- With either kind of stub there are five words, the error code or a zero among them. -/
lemma run_isrStub : run upper (isrStub vector) (m.interrupt upperCs vector code cs eip)
    = (pushAll [m.eflags, selectorWord m.cs upperCs, m.eip,
        if vector ∈ Cpu.errorCodeVectors then code else 0, vector.toUInt32] m).jump cs eip
        (m.eflags &&& ~~~Cpu.gateFlags) := by
  rw [isrStub, errIsrVectors_eq, Cpu.interrupt]
  split_ifs <;> rfl

/-- Hardware, stub and `isr_save` push the members of the context, the last one first. -/
lemma saved_pushes :
    run upper (isrStub vector ++ isrSavePushes) (m.interrupt upperCs vector code cs eip)
      = (pushAll (savedContext upper upperCs vector code m).words.reverse m).jump cs eip
          (m.eflags &&& ~~~Cpu.gateFlags) := by
  rw [run_append, run_isrStub, run_isrSavePushes, pushAll_esp]
  rfl

/-- What `isr_save` does once the context is on the stack: the stack pointer is saved, and the
parameters are pushed on the system stack. -/
lemma run_isrSaveSwitch (upper : Seg → UInt16) (current systemEsp : UInt32) (m : Cpu) : ∃ m' : Cpu,
    m'.mem = store32 (load32 m.mem current) (m.reg .esp) m.mem ∧
      m'.reg .esp = load32 m'.mem systemEsp ∧
      run upper (isrSaveSwitch current systemEsp) m
        = pushAll [load32 m'.mem (m.reg .esp + 56), load32 m'.mem (m.reg .esp + 52)] m' := by
  refine ⟨run upper ((isrSaveSwitch current systemEsp).take 5) m, ?_, ?_, ?_⟩ <;>
    simp [run, isrSaveSwitch, Instr.exec, Operand.address, Cpu.setReg, pushAll]

/-- `_current`, `_system_esp`, the context pointer of the current process, the two words below
the system stack pointer and the `n` bytes from the saved context upwards do not overlap. -/
def KernelApart (current systemEsp : UInt32) (m : Cpu) (n : ℕ) : Prop :=
  [(current, 4), (systemEsp, 4), (load32 m.mem current, 4), (load32 m.mem systemEsp - 8, 8),
    (m.reg .esp - 72, n)].Pairwise fun r s => Apart r.1 r.2 s.1 s.2

/-- What is found in memory after the entry into a service routine. -/
structure Entered (upper : Seg → UInt16) (upperCs : UInt16) (current systemEsp : UInt32)
    (vector : UInt8) (code : UInt32) (m s : Cpu) (n : ℕ) : Prop where
  /-- `_current` is the same process as before. -/
  current_eq : load32 s.mem current = load32 m.mem current
  /-- Its context pointer is the saved stack pointer. -/
  context_eq : load32 s.mem (load32 m.mem current) = m.reg .esp - 72
  /-- The words from there upwards are the saved context. -/
  saved : ContextAt s.mem (m.reg .esp - 72) (savedContext upper upperCs vector code m)
  /-- The service routine finds its parameters on top of the system stack. -/
  esp_eq : s.reg .esp = load32 m.mem systemEsp - 8
  params : WordsAt s.mem (load32 m.mem systemEsp - 8)
    [vector.toUInt32, (savedContext upper upperCs vector code m).code]
  /-- The stack above the context is as it was. -/
  above : SameOn s.mem m.mem (m.reg .esp) (n - 72)

lemma entered (upper : Seg → UInt16) (upperCs cs : UInt16) (vector : UInt8) (code eip : UInt32)
    (h : KernelApart current systemEsp m n) (hn : 72 ≤ n) (hn' : n ≤ 2 ^ 32) :
    Entered upper upperCs current systemEsp vector code m
      (enterIsr upper upperCs current systemEsp vector code cs eip m) n := by
  simp only [KernelApart, List.pairwise_cons, List.mem_cons, List.not_mem_nil, or_false,
    forall_eq_or_imp, forall_eq] at h
  obtain ⟨⟨-, hcurrent, hsystemCurrent, hframeCurrent⟩, ⟨hsystemEsp, -, hframeSystemEsp⟩,
    ⟨hsystemContext, hcontextFrame⟩, hsystemFrame, -⟩ := h
  generalize hs : enterIsr upper upperCs current systemEsp vector code cs eip m = s
  rw [enterIsr, isrSave, ← List.append_assoc, run_append, saved_pushes] at hs
  generalize hc : savedContext upper upperCs vector code m = c at *
  generalize hm₁ : pushAll c.words.reverse m = m₁ at hs
  have hesp₁ : m₁.reg .esp = m.reg .esp - 72 := by
    rw [← hm₁]
    exact pushAll_esp _ m
  -- The pushes leave everything outside the frame alone.
  have hpushed {a : UInt32} {k : ℕ} (ha : Apart a k (m.reg .esp - 72) n) :
      SameOn m₁.mem m.mem a k := by
    rw [← hm₁]
    exact pushAll_same fun i hi j hj => ha.symm i (Nat.lt_of_lt_of_le hi hn) j hj
  have hcurrent₁ : load32 m₁.mem current = load32 m.mem current :=
    load32_congr (hpushed hframeCurrent)
  have hwords : ContextAt m₁.mem (m.reg .esp - 72) c := by
    rw [← hesp₁, ← hm₁]
    have hempty : WordsAt m.mem (m.reg .esp) [] := trivial
    have hall := pushAll_words c.words.reverse hempty (by simp)
    rwa [List.reverse_reverse, List.append_nil] at hall
  obtain ⟨m₂, hmem₂, hesp₂, hrun⟩ := run_isrSaveSwitch upper current systemEsp
    (m₁.jump cs eip (m.eflags &&& ~~~Cpu.gateFlags))
  rw [hs] at hrun
  subst hrun
  have hmem₂ : m₂.mem = store32 (load32 m.mem current) (m.reg .esp - 72) m₁.mem := by
    rw [hmem₂]
    show store32 (load32 m₁.mem current) (m₁.reg .esp) m₁.mem = _
    rw [hcurrent₁, hesp₁]
  -- The saved stack pointer goes into the context pointer of the process alone.
  have hstored {a : UInt32} {k : ℕ} (ha : Apart (load32 m.mem current) 4 a k) :
      SameOn m₂.mem m₁.mem a k := by
    rw [hmem₂]
    exact SameOn.store32 ha
  have hframe₂ : ContextAt m₂.mem (m.reg .esp - 72) c :=
    hwords.congr ((hstored hcontextFrame).left (by simpa using hn))
  have hvector : load32 m₂.mem (m.reg .esp - 72 + 52) = vector.toUInt32 := by
    have hget := hframe₂.get (i := 13) (by simp)
    rw [← hc] at hget
    exact hget
  have hcode : load32 m₂.mem (m.reg .esp - 72 + 56) = c.code := hframe₂.get (i := 14) (by simp)
  have hsystem : m₂.reg .esp = load32 m.mem systemEsp := by
    rw [hesp₂, load32_congr (hstored hsystemEsp.symm), load32_congr (hpushed hframeSystemEsp)]
  show Entered upper upperCs current systemEsp vector code m
    (pushAll [load32 m₂.mem (m₁.reg .esp + 56), load32 m₂.mem (m₁.reg .esp + 52)] m₂) n
  rw [hesp₁, hvector, hcode]
  generalize hs : pushAll [c.code, vector.toUInt32] m₂ = s
  -- The parameters go on the system stack.
  have hparams {a : UInt32} {k : ℕ} (ha : Apart (load32 m.mem systemEsp - 8) 8 a k) :
      SameOn s.mem m₂.mem a k := by
    rw [← hs]
    refine pushAll_same ?_
    rw [hsystem]
    exact ha
  refine ⟨?_, ?_, ?_, ?_, ?_, ?_⟩
  · rw [load32_congr (hparams hsystemCurrent.symm), load32_congr (hstored hcurrent.symm), hcurrent₁]
  · rw [load32_congr (hparams hsystemContext.symm), hmem₂, load32_store32]
  · rw [hc]
    exact hframe₂.congr ((hparams hsystemFrame).left (by simpa using hn))
  · rw [← hs, pushAll_esp, hsystem]
    rfl
  · rw [hc]
    have hempty : WordsAt m₂.mem (m₂.reg .esp) [] := trivial
    have hall := pushAll_words [c.code, vector.toUInt32] hempty (by simp)
    rw [hs, ← hs, pushAll_esp, hsystem, hs] at hall
    exact hall
  · have habove : m.reg .esp - 72 + UInt32.ofNat 72 = m.reg .esp := sub_ofNat_add_ofNat _ 72
    have hparamsAbove := hparams (hsystemFrame.sub_right (k := 72) (l := n - 72) (by omega))
    have hstoredAbove := hstored (hcontextFrame.sub_right (k := 72) (l := n - 72) (by omega))
    rw [habove] at hparamsAbove hstoredAbove
    refine hparamsAbove.trans (hstoredAbove.trans ?_)
    rw [← hm₁]
    exact pushAll_same (apart_below (m := 72) (by omega))

end Enter

/-! ### Leaving it -/

section Leave

variable {upper : Seg → UInt16} {current frame : UInt32} {r : Cpu} {c : Context}

/-- The processor with the contents of a context, and with another stack pointer and memory. -/
def Context.resumed (c : Context) (esp : UInt32) (mem : Memory) : Cpu where
  reg
    | .eax => c.eax
    | .ecx => c.ecx
    | .edx => c.edx
    | .ebx => c.ebx
    | .esp => esp
    | .ebp => c.ebp
    | .esi => c.esi
    | .edi => c.edi
  seg
    | .ds => c.ds.toUInt16
    | .es => c.es.toUInt16
    | .fs => c.fs.toUInt16
    | .gs => c.gs.toUInt16
    | .ss => c.ss.toUInt16
  cs := c.cs.toUInt16
  eip := c.eip
  eflags := c.eflags
  mem := mem

/-- The context that the context pointer of `_current` points to is restored, and the stack
pointer is left right above it. -/
lemma leaveIsr_eq (hframe : load32 r.mem (load32 r.mem current) = frame)
    (hc : ContextAt r.mem frame c) :
    leaveIsr upper current r = c.resumed (frame + UInt32.ofNat contextSize) r.mem := by
  have height (a : UInt32) : a + 8 = a + 4 + 4 := (add_ofNat_add a 4 4).symm
  have hesp : frame + UInt32.ofNat contextSize = frame + 4 + 4 + 4 + 4 + 4 + 4 + 4 + 4 + 4 + 4
      + 4 + 4 + 4 + 4 + 4 + 4 + 4 + 4 := by
    simp only [UInt32.add_assoc]
    rfl
  obtain ⟨hss, hgs, hfs, hes, hds, hedi, hesi, hebp, -, hebx, hedx, hecx, heax, -, -, heip, hcs,
    heflags, -⟩ := hc
  simp only [leaveIsr, run, isrRestore, List.foldl_cons, List.foldl_nil, Instr.exec,
    Operand.address, Cpu.popSeg, Cpu.popa, Cpu.popReg, Cpu.drop, Cpu.top, Cpu.setReg, Cpu.iret,
    Cpu.jump, Context.resumed]
  ext s
  · cases s <;> simp [*]
  · cases s <;> simp [*]
  all_goals simp [*]

end Leave

/-! ### A new process -/

section New

variable {pcb stack fcn exit buf : UInt32} {level : UInt8} {nextPid : UInt16} {mem : Memory}
  {n i : ℕ}

/-- The bytes elsewhere stay. -/
lemma memclr_of_ne {x : UInt32} (hx : ∀ k < n, x ≠ buf + UInt32.ofNat k) :
    memclr buf n mem x = mem x := by
  induction n generalizing buf mem with
  | zero => rfl
  | succ n ih =>
      have hx₀ : x ≠ buf := by simpa using hx 0 (Nat.succ_pos n)
      rw [memclr, ih fun k hk => ?_, Function.update_of_ne hx₀]
      rw [add_one_add_ofNat]
      exact hx (k + 1) (by omega)

/-- The bytes are cleared. -/
lemma memclr_apply (hn : n ≤ 2 ^ 32) (hi : i < n) :
    memclr buf n mem (buf + UInt32.ofNat i) = 0 := by
  induction n generalizing buf mem i with
  | zero => exact absurd hi (Nat.not_lt_zero i)
  | succ n ih =>
      rw [memclr]
      cases i with
      | zero =>
          rw [memclr_of_ne fun k hk heq => ?_]
          · simp
          · rw [add_one_add_ofNat] at heq
            have := add_ofNat_inj (by omega) (by omega) heq
            omega
      | succ i =>
          rw [← add_one_add_ofNat]
          exact ih (by omega) (by omega)

/-- Where `_make_proc` puts the context. -/
def initialFrame (stack : UInt32) : UInt32 := stack + UInt32.ofNat 4016

/-- The fake return address is right above the context. -/
lemma initialFrame_add :
    stack + UInt32.ofNat stackSize - 8 = initialFrame stack + UInt32.ofNat (4 * 18) := by
  rw [initialFrame, add_ofNat_add]
  exact add_ofNat_sub stack (n := 8) (by decide)

lemma initialFrame_eq :
    initialFrame stack + UInt32.ofNat (4 * 18) - UInt32.ofNat contextSize = initialFrame stack :=
  add_ofNat_sub_ofNat _ contextSize

/-- The top of the new stack: the context, the address of `exit` and a zero. -/
lemma makeProcAt_spec (fcn exit : UInt32) (level : UInt8) (nextPid : UInt16) (mem : Memory)
    (h : Apart pcb pcbSize stack stackSize) :
    WordsAt (makeProcAt pcb stack fcn exit level nextPid mem) (initialFrame stack)
        ((Procs.initialContext fcn).words ++ [exit, 0]) ∧
      load32 (makeProcAt pcb stack fcn exit level nextPid mem) pcb = initialFrame stack := by
  have happart {k l : ℕ} (hk : k + l ≤ pcbSize) :
      Apart (pcb + UInt32.ofNat k) l (initialFrame stack) (4 * 20) :=
    (h.sub_left hk).sub_right (by decide)
  have hcontext : Apart pcb 4 (initialFrame stack) (4 * 20) := by
    simpa using happart (k := 0) (l := 4) (by decide)
  have hclear : WordsAt (memclr stack stackSize (memclr pcb pcbSize mem)) (initialFrame stack)
      (List.replicate 20 0) := by
    refine WordsAt.replicate fun i hi => ?_
    rw [initialFrame, add_ofNat_add]
    have hlt : 4016 + i < stackSize := by
      rw [stackSize]
      omega
    exact memclr_apply (by decide) hlt
  -- The PCB is elsewhere.
  have hpcb : WordsAt (Function.update (storeUInt16 (pcb + 16) nextPid (store32 (pcb + 4) stack
      (memclr stack stackSize (memclr pcb pcbSize mem)))) (pcb + 21) level) (initialFrame stack)
      (List.replicate 20 0) := by
    refine WordsAt.congr ?_ (SameOn.update (happart (k := 21) (l := 1) (by decide)))
    refine WordsAt.congr ?_ (SameOn.update ?_)
    · refine WordsAt.congr ?_ (SameOn.update (happart (k := 16) (l := 1) (by decide)))
      exact hclear.congr (SameOn.store32 (happart (k := 4) (l := 4) (by decide)))
    · have hsecond := happart (k := 17) (l := 1) (by decide)
      rwa [show pcb + UInt32.ofNat 17 = pcb + 16 + 1 from (add_ofNat_add pcb 16 1).symm] at hsecond
  simp only [makeProcAt, initialFrame_add, initialFrame_eq]
  constructor
  · have hexit := hpcb.set (v := exit) (i := 18) (by simp) (by simp)
    have hpointer := hexit.congr (SameOn.store32 (v := initialFrame stack) hcontext)
    have hss := hpointer.set (v := 0x20) (i := 0) (by simp) (by simp)
    have hgs := hss.set (v := 0x18) (i := 1) (by simp) (by simp)
    have hfs := hgs.set (v := 0x18) (i := 2) (by simp) (by simp)
    have hes := hfs.set (v := 0x18) (i := 3) (by simp) (by simp)
    have hds := hes.set (v := 0x18) (i := 4) (by simp) (by simp)
    have hcs := hds.set (v := 0x10) (i := 16) (by simp) (by simp)
    have heflags := hcs.set (v := Procs.defaultEflags) (i := 17) (by simp) (by simp)
    have heip := heflags.set (v := fcn) (i := 15) (by simp) (by simp)
    rw [show initialFrame stack + UInt32.ofNat (4 * 0) = initialFrame stack from
      UInt32.add_zero _] at heip
    exact heip
  · -- The context is stored elsewhere.
    have hother (d : UInt32) {v : UInt32} {mem : Memory} (hd : d.toNat + 4 ≤ 4 * 20) :
        load32 (store32 (initialFrame stack + d) v mem) pcb = load32 mem pcb := by
      rw [← UInt32.ofNat_toNat (x := d)]
      exact load32_store32_apart (hcontext.sub_right hd).symm
    have hss {v : UInt32} {mem : Memory} :
        load32 (store32 (initialFrame stack) v mem) pcb = load32 mem pcb :=
      load32_store32_apart fun i hi j hj => hcontext.symm i (by omega) j hj
    rw [hother 60 (by decide), hother 68 (by decide), hother 64 (by decide),
      hother 16 (by decide), hother 12 (by decide), hother 8 (by decide), hother 4 (by decide),
      hss, load32_store32]

end New

/-! ### The round trip -/

/-- A saved context, with another result in EAX, is the interrupted process again. -/
lemma resumed_savedContext {upper : Seg → UInt16} {upperCs : UInt16} {vector : UInt8}
    {code eax : UInt32} {m : Cpu} {mem : Memory} :
    { savedContext upper upperCs vector code m with eax := eax : Context }.resumed (m.reg .esp) mem
      = { m.setReg .eax eax with mem := mem } := by
  ext s
  · cases s <;> simp [Context.resumed, savedContext, Cpu.setReg]
  · cases s <;> simp [Context.resumed, savedContext, Cpu.setReg]
  all_goals simp [Context.resumed, savedContext, Cpu.setReg]

/-- The interrupted process is resumed. -/
lemma leaveIsr_savedContext {upper : Seg → UInt16} {upperCs : UInt16} {vector : UInt8}
    {code current eax : UInt32} {m r : Cpu}
    (hframe : load32 r.mem (load32 r.mem current) = m.reg .esp - UInt32.ofNat contextSize)
    (hc : ContextAt r.mem (m.reg .esp - UInt32.ofNat contextSize)
      { savedContext upper upperCs vector code m with eax := eax }) :
    leaveIsr upper current r = { m.setReg .eax eax with mem := r.mem } := by
  rw [leaveIsr_eq hframe hc, sub_ofNat_add_ofNat, resumed_savedContext]

/-- A new process starts at its entry point, on top of the address of `exit`. -/
lemma leaveIsr_makeProcAt (upper : Seg → UInt16) {pcb stack fcn exit current : UInt32}
    {level : UInt8} {nextPid : UInt16} {mem : Memory} {r : Cpu}
    (h : Apart pcb pcbSize stack stackSize) (hcurrent : load32 r.mem current = pcb)
    (hpcb : SameOn r.mem (makeProcAt pcb stack fcn exit level nextPid mem) pcb 4)
    (hstack : SameOn r.mem (makeProcAt pcb stack fcn exit level nextPid mem) stack stackSize) :
    leaveIsr upper current r
        = (Procs.initialContext fcn).resumed (stack + UInt32.ofNat (stackSize - 8)) r.mem ∧
      load32 r.mem (stack + UInt32.ofNat (stackSize - 8)) = exit := by
  obtain ⟨hwords, hcontext⟩ := makeProcAt_spec fcn exit level nextPid mem h
  have hframe : load32 r.mem (load32 r.mem current) = initialFrame stack := by
    rw [hcurrent, load32_congr hpcb, hcontext]
  have hrow : WordsAt r.mem (initialFrame stack) ((Procs.initialContext fcn).words ++ [exit, 0]) :=
    hwords.congr (hstack.sub (k := 4016) (by simp))
  have htop : initialFrame stack + UInt32.ofNat contextSize
      = stack + UInt32.ofNat (stackSize - 8) := add_ofNat_add stack 4016 contextSize
  constructor
  · rw [leaveIsr_eq hframe hrow.left, htop]
  · have hexit := hrow.get (i := 18) (by simp)
    rw [← htop]
    exact hexit

/-- The handler of a system call finds the arguments that were pushed before the call. -/
lemma syscallArgs_get {upper : Seg → UInt16} {upperCs cs : UInt16} {vector : UInt8}
    {code eip current systemEsp ret : UInt32} {args : List UInt32} {m : Cpu} {mem : Memory}
    (hlen : contextSize + 4 * (args.length + 1) ≤ 2 ^ 32)
    (h : KernelApart current systemEsp m (contextSize + 4 * (args.length + 1)))
    (hargs : WordsAt m.mem (m.reg .esp) (ret :: args))
    (hcurrent : SameOn mem (enterIsr upper upperCs current systemEsp vector code cs eip m).mem
      current 4)
    (hcontext : SameOn mem (enterIsr upper upperCs current systemEsp vector code cs eip m).mem
      (load32 m.mem current) 4)
    (hstack : SameOn mem (enterIsr upper upperCs current systemEsp vector code cs eip m).mem
      (m.reg .esp) (4 * (args.length + 1))) {i : ℕ} (hi : i < args.length) :
    load32 mem (syscallArgs current mem + UInt32.ofNat (4 * i)) = args[i] := by
  have hentered := entered upper upperCs cs vector code eip h (Nat.le_add_right _ _) hlen
  have hptr : syscallArgs current mem = m.reg .esp + 4 := by
    rw [syscallArgs, load32_congr hcurrent, hentered.current_eq, load32_congr hcontext,
      hentered.context_eq]
    exact congrArg (· + 4) (sub_ofNat_add_ofNat _ contextSize)
  have hrow : WordsAt mem (m.reg .esp) (ret :: args) := by
    refine hargs.congr (hstack.trans ?_)
    have habove := hentered.above
    rwa [Nat.add_sub_cancel_left] at habove
  rw [hptr]
  exact hrow.2.get hi

/-- **The context survives the switch**: what hardware, stub and `isr_save` push is a
`context_t`, and `__isr_restore` resumes from it; a new process starts at its entry point; the
handler of a system call is given its arguments. -/
theorem context_switched :
    (∀ (upper : Seg → UInt16) (upperCs cs : UInt16) (vector : UInt8)
        (code eip current systemEsp : UInt32) (m : Cpu),
      KernelApart current systemEsp m contextSize →
      let saved := savedContext upper upperCs vector code m
      let s := enterIsr upper upperCs current systemEsp vector code cs eip m
      let frame := load32 s.mem (load32 s.mem current)
      frame = m.reg .esp - UInt32.ofNat contextSize ∧ ContextAt s.mem frame saved ∧
        WordsAt s.mem (s.reg .esp) [saved.vector, saved.code] ∧
        ∀ (r : Cpu) (eax : UInt32), load32 r.mem (load32 r.mem current) = frame →
          ContextAt r.mem frame { saved with eax := eax } →
          leaveIsr upper current r = { m.setReg .eax eax with mem := r.mem }) ∧
    (∀ (pcb stack fcn exit : UInt32) (level : UInt8) (nextPid : UInt16) (mem : Memory),
      Apart pcb pcbSize stack stackSize →
      let new := makeProcAt pcb stack fcn exit level nextPid mem
      ContextAt new (load32 new pcb) (Procs.initialContext fcn) ∧
        ∀ (upper : Seg → UInt16) (current : UInt32) (r : Cpu), load32 r.mem current = pcb →
          SameOn r.mem new pcb 4 → SameOn r.mem new stack stackSize →
          let s := leaveIsr upper current r
          s.eip = fcn ∧ s.eflags = Procs.defaultEflags ∧
            s.reg .esp = stack + UInt32.ofNat (stackSize - 8) ∧
            load32 s.mem (s.reg .esp) = exit) ∧
    (∀ (upper : Seg → UInt16) (upperCs cs : UInt16) (code eip current systemEsp num ret : UInt32)
        (args : List UInt32) (m : Cpu),
      contextSize + 4 * (args.length + 1) ≤ 2 ^ 32 →
      KernelApart current systemEsp m (contextSize + 4 * (args.length + 1)) →
      WordsAt m.mem (m.reg .esp) (ret :: args) →
      let s := enterIsr upper upperCs current systemEsp intVecSyscall code cs eip
        (run upper (syscallStub num) m)
      ∀ mem : Memory, SameOn mem s.mem current 4 → SameOn mem s.mem (load32 s.mem current) 4 →
        SameOn mem s.mem (m.reg .esp) (4 * (args.length + 1)) →
        ∀ (i : ℕ) (h : i < args.length),
          load32 mem (syscallArgs current mem + UInt32.ofNat (4 * i)) = args[i]) := by
  refine ⟨?_, ?_, ?_⟩
  · intro upper upperCs cs vector code eip current systemEsp m h
    have hentered := entered upper upperCs cs vector code eip h le_rfl (by decide)
    simp only [hentered.current_eq, hentered.context_eq, hentered.esp_eq]
    refine ⟨rfl, hentered.saved, hentered.params, ?_⟩
    intro r eax hframe hc
    exact leaveIsr_savedContext hframe hc
  · intro pcb stack fcn exit level nextPid mem h
    obtain ⟨hwords, hcontext⟩ := makeProcAt_spec fcn exit level nextPid mem h
    simp only [hcontext]
    refine ⟨hwords.left, ?_⟩
    intro upper current r hcurrent hpcb hstack
    obtain ⟨hleave, hexit⟩ := leaveIsr_makeProcAt upper h hcurrent hpcb hstack
    rw [hleave]
    exact ⟨rfl, rfl, rfl, hexit⟩
  · intro upper upperCs cs code eip current systemEsp num ret args m hlen h hargs
    have hentered := entered upper upperCs cs intVecSyscall code eip
      (m := run upper (syscallStub num) m) h (Nat.le_add_right _ _) hlen
    simp only [hentered.current_eq]
    intro mem hcurrent hcontext hstack i hi
    exact syscallArgs_get (m := run upper (syscallStub num) m) hlen h hargs hcurrent hcontext
      hstack hi

/-- A process that has called a system call with two arguments. `_current` and `_system_esp` are
at `0x1000` and `0x1004`, the PCB is at `0x2000`. -/
def callingCpu : Cpu where
  reg r := if r = .esp then 0x9000 else 5
  seg _ := 0x18
  cs := 0x10
  eip := 0x10000
  eflags := Procs.defaultEflags
  mem := store32 0x1000 0x2000 (store32 0x1004 0x8000 (store32 0x9000 0x10010
    (store32 0x9004 7 (store32 0x9008 9 fun _ => 0))))

lemma kernelApart_callingCpu {n : ℕ} (hn : n ≤ 4096) : KernelApart 0x1000 0x1004 callingCpu n := by
  have hcurrent : load32 callingCpu.mem 0x1000 = 0x2000 := by decide +kernel
  have hsystem : load32 callingCpu.mem 0x1004 - 8 = 0x7ff8 := by decide +kernel
  have hframe : callingCpu.reg .esp - 72 = 0x8fb8 := by decide +kernel
  rw [KernelApart, hcurrent, hsystem, hframe]
  simp only [List.pairwise_cons, List.mem_cons, List.not_mem_nil, or_false, forall_eq_or_imp,
    forall_eq]
  have hend : (0x8fb8 : UInt32).toNat + n ≤ 2 ^ 32 :=
    Nat.le_trans (Nat.add_le_add_left hn _) (by decide)
  refine ⟨⟨?_, ?_, ?_, ?_⟩, ⟨?_, ?_, ?_⟩, ⟨?_, ?_⟩, ?_, nofun, List.Pairwise.nil⟩ <;>
    exact apart_of_le (by decide) (by first | exact hend | decide)

theorem context_switched_call :
    (let s := enterIsr (fun _ => 0) 0 0x1000 0x1004 intVecSyscall 0 0x10 0x11000 callingCpu
     leaveIsr (fun _ => 0) 0x1000 s = { callingCpu.setReg .eax 5 with mem := s.mem }) ∧
    (let new := makeProcAt 0x2000 0x3000 0x10020 0x10030 1 7 (fun _ => 0)
     ContextAt new (load32 new 0x2000) (Procs.initialContext 0x10020)) ∧
    (let s := enterIsr (fun _ => 0) 0 0x1000 0x1004 intVecSyscall 0 0x10 0x11000
        (run (fun _ => 0) (syscallStub 6) callingCpu)
     load32 s.mem (syscallArgs 0x1000 s.mem + UInt32.ofNat 4) = 9) := by
  obtain ⟨hsave, hnew, hcall⟩ := context_switched
  refine ⟨?_, ?_, ?_⟩
  · obtain ⟨-, hsaved, -, hleave⟩ := hsave (fun _ => 0) 0 0x10 intVecSyscall 0 0x11000 0x1000 0x1004
      callingCpu (kernelApart_callingCpu (by decide))
    exact hleave _ 5 rfl hsaved
  · exact (hnew 0x2000 0x3000 0x10020 0x10030 1 7 _ (apart_of_le (by decide) (by decide))).1
  · exact hcall (fun _ => 0) 0 0x10 0 0x11000 0x1000 0x1004 6 0x10010 [7, 9] callingCpu (by decide)
      (kernelApart_callingCpu (by decide)) ⟨by decide +kernel, by decide +kernel, by decide +kernel,
        trivial⟩ _ SameOn.rfl SameOn.rfl SameOn.rfl 1 (by decide)

end Sp2
