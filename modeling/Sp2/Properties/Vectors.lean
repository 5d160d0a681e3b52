import Sp2.Lib.Transition
import Sp2.Machine.Vectors
import Sp2.Properties.ContextSwitch

/-!
Which handler an interrupt reaches.

* `setIdtEntry_eq`: an entry of the descriptor table names the stub of its vector.
* `Linkage.Installed`: the tables are filled in, with these handlers. `installed_initIdt`: after
  `init_idt`; `installed_run`: after any installations and stores elsewhere.
* `interrupt_dispatched`: **after any installations an interrupt is accepted, goes through the stub
  of its vector and `isr_save`, and reaches the handler installed last for this vector, with the
  vector and the error code as its parameters**; and every installation returns the handler that
  it replaces.
-/

namespace Sp2

open Words X86 Address Transition

/-! ### Entries of the tables -/

section Entries

variable {l : Linkage} {mem mem' : Memory} {v w : UInt8} {h a : UInt32} {n i : ℕ} {b : UInt8}

/-- The gate that `set_idt_entry` makes. -/
def stubGate (stub : UInt32) : Gate := ⟨stub, 0x0010, idtFlags⟩

/-- The sign of the address does not get into the upper half. -/
lemma offset_high (h : UInt32) :
    (h.toInt32 >>> 16 &&& 0xffff).toUInt32.toUInt16 = UInt16.ofNat (h.toNat / 2 ^ 16) := by
  have hbits : BitVec.setWidth 16 (h.toBitVec.sshiftRight 16 &&& 0xffff#32)
      = BitVec.setWidth 16 (h.toBitVec >>> 16) := by
    ext i hi
    have hmask : ∀ i < 16, (0xffff#32).getLsbD i = true := by decide
    have hlow : decide (32 ≤ i) = false := decide_eq_false (by omega)
    rw [BitVec.getElem_setWidth, BitVec.getElem_setWidth, BitVec.getLsbD_and, hmask i hi,
      Bool.and_true, BitVec.getLsbD_sshiftRight, BitVec.getLsbD_ushiftRight, if_pos (by omega),
      hlow]
    rfl
  have htoNat := congrArg BitVec.toNat hbits
  rw [BitVec.toNat_setWidth 16 (h.toBitVec >>> 16), BitVec.toNat_ushiftRight,
    Nat.shiftRight_eq_div_pow] at htoNat
  rw [← UInt16.toNat_inj, UInt16.toNat_ofNat']
  exact htoNat

/-- `set_idt_entry` writes the two halves of the address of the stub. -/
lemma setIdtEntry_eq : setIdtEntry v h mem = writeGate (tables.gateAddress v) (stubGate h) mem := by
  have hlow : (h &&& 0xffff).toUInt16 = UInt16.ofNat h.toNat := by
    have hmask : h.toNat &&& 0xffff = h.toNat % 2 ^ 16 := Nat.and_two_pow_sub_one_eq_mod _ 16
    rw [← UInt16.toNat_inj, UInt32.toNat_toUInt16, UInt32.toNat_and, UInt16.toNat_ofNat']
    change (h.toNat &&& 0xffff) % 2 ^ 16 = _
    rw [hmask]
    omega
  rw [setIdtEntry, hlow, offset_high]
  rfl

/-- Different vectors have different gates. -/
lemma gates_apart (hne : v ≠ w) : Apart (tables.gateAddress v) 8 (tables.gateAddress w) 8 :=
  slots_apart v.toNat_lt w.toNat_lt (fun heq => hne (UInt8.toNat_inj.mp heq)) (by decide)

/-- Different vectors have different handlers. -/
lemma slots_apart' (hne : v ≠ w) : Apart (l.slot v) 4 (l.slot w) 4 :=
  slots_apart v.toNat_lt w.toNat_lt (fun heq => hne (UInt8.toNat_inj.mp heq)) (by decide)

/-- The tables do not overlap. -/
structure Linkage.Layout (l : Linkage) : Prop where
  idt : Apart l.isrTable 1024 idtAddress 2048
  gdt : Apart l.isrTable 1024 gdtAddress 40

lemma slot_sub (v : UInt8) : 4 * v.toNat + 4 ≤ 1024 := by
  have := v.toNat_lt
  omega

lemma gate_sub (v : UInt8) : 8 * v.toNat + 8 ≤ 2048 := by
  have := v.toNat_lt
  omega

/-- A gate is a part of its table. -/
lemma apart_gate (ha : Apart a n idtAddress 2048) (v : UInt8) :
    Apart a n (tables.gateAddress v) 8 := ha.sub_right (gate_sub v)

/-- So is a handler. -/
lemma apart_slot (ha : Apart a n l.isrTable 1024) (v : UInt8) : Apart a n (l.slot v) 4 :=
  ha.sub_right (slot_sub v)

/-- The two tables of `bootstrap.h` do not overlap. -/
lemma gdt_apart_idt : Apart idtAddress 2048 gdtAddress 40 :=
  (apart_of_le (by decide) (by decide)).symm

lemma GdtAt.congr (hg : GdtAt mem) (hsame : SameOn mem' mem gdtAddress 40) : GdtAt mem' := by
  intro i b hb
  have hi : i < 40 := (List.getElem?_eq_some_iff.mp hb).1
  rw [hsame i hi]
  exact hg i b hb

end Entries

/-! ### The tables in use -/

namespace Linkage

/-- Every gate names the stub of its vector, the handlers are these, and the descriptors are
there. -/
structure Installed (l : Linkage) (handlers : UInt8 → UInt32) (mem : Memory) : Prop where
  gate : ∀ v, readGate mem (tables.gateAddress v) = stubGate (l.stub v)
  handler : ∀ v, load32 mem (l.slot v) = handlers v
  gdt : GdtAt mem

/-- What may happen to the tables: an installation, or a store of a byte. -/
inductive TableEvent
  | install (vector : UInt8) (handler : UInt32)
  | store (address : UInt32) (byte : UInt8)

/-- Carry out an event. -/
def tableStep (l : Linkage) (mem : Memory) : TableEvent → Except Empty Memory
  | .install v h => .ok (l.installIsr v h mem).2
  | .store a b => .ok (Function.update mem a b)

/-- A store spares the tables. -/
def SparesTables (l : Linkage) (_ : Memory) : TableEvent → Prop
  | .install _ _ => True
  | .store a _ => Apart a 1 l.isrTable 1024 ∧ Apart a 1 idtAddress 2048 ∧ Apart a 1 gdtAddress 40

/-- The handlers after an event. -/
def TableEvent.apply (handlers : UInt8 → UInt32) : TableEvent → UInt8 → UInt32
  | install v h => Function.update handlers v h
  | store _ _ => handlers

/-- The handlers after some events: for each vector the one that was installed last. -/
def latest (handlers : UInt8 → UInt32) (es : List TableEvent) : UInt8 → UInt32 :=
  es.foldl TableEvent.apply handlers

section Installed

variable {l : Linkage} {mem mem' : Memory} {v w : UInt8} {h : UInt32} {f : UInt8 → UInt32}
  {es : List TableEvent} {n : ℕ}

lemma Installed.congr (hi : l.Installed f mem) (hidt : SameOn mem' mem idtAddress 2048)
    (htable : SameOn mem' mem l.isrTable 1024) (hgdt : SameOn mem' mem gdtAddress 40) :
    l.Installed f mem' where
  gate v := (readGate_congr (hidt.sub (gate_sub v))).trans (hi.gate v)
  handler v := (load32_congr (htable.sub (slot_sub v))).trans (hi.handler v)
  gdt := hi.gdt.congr hgdt

/-- An installation changes the handler of its vector and nothing else. -/
lemma Installed.install (hi : l.Installed f mem) (hl : l.Layout) (v : UInt8) (h : UInt32) :
    (l.installIsr v h mem).1 = f v
      ∧ l.Installed (Function.update f v h) (l.installIsr v h mem).2 := by
  have hidt : Apart (l.slot v) 4 idtAddress 2048 := hl.idt.sub_left (slot_sub v)
  have hgdt : Apart (l.slot v) 4 gdtAddress 40 := hl.gdt.sub_left (slot_sub v)
  refine ⟨hi.handler v, fun w => ?_, fun w => ?_, hi.gdt.congr (SameOn.store32 hgdt)⟩
  · rw [← hi.gate w]
    exact readGate_congr (SameOn.store32 (apart_gate hidt w))
  · by_cases hw : w = v
    · subst hw
      rw [Function.update_self]
      exact load32_store32
    · rw [Function.update_of_ne hw, ← hi.handler w]
      exact load32_store32_apart (slots_apart' (Ne.symm hw))

/-- One event keeps the tables in use. -/
lemma installed_step (hl : l.Layout) {e : TableEvent} (hi : l.Installed f mem)
    (hspares : l.SparesTables mem e) (hstep : l.tableStep mem e = .ok mem') :
    l.Installed (e.apply f) mem' := by
  cases e with
  | install v h =>
      obtain rfl := Except.ok.inj hstep
      exact (hi.install hl v h).2
  | store a b =>
      obtain rfl := Except.ok.inj hstep
      obtain ⟨htable, hidt, hgdt⟩ := hspares
      exact hi.congr (SameOn.update hidt) (SameOn.update htable) (SameOn.update hgdt)

/-- Neither do any events. -/
lemma installed_run (hl : l.Layout) (hrun : Transition.Run l.tableStep l.SparesTables mem es mem')
    (hi : l.Installed f mem) : l.Installed (latest f es) mem' := by
  induction hrun generalizing f with
  | nil _ => exact hi
  | cons hspares hstep _ ih => exact ih (installed_step hl hi hspares hstep)

/-- Some installations. -/
lemma installed_install (hl : l.Layout) (handlers : List (UInt8 × UInt32))
    (hi : l.Installed f mem) :
    l.Installed (handlers.foldl (fun f h => Function.update f h.1 h.2) f)
      (l.install handlers mem) := by
  induction handlers generalizing f mem with
  | nil => exact hi
  | cons h handlers ih => exact ih (hi.install hl h.1 h.2).2

end Installed

/-! ### `init_idt` -/

section Init

variable {l : Linkage} {mem : Memory} {v : UInt8} {n : ℕ}

/-- The first rounds of the loop have filled in the first entries. -/
structure FilledTo (l : Linkage) (n : ℕ) (mem : Memory) : Prop where
  gate : ∀ v : UInt8, v.toNat < n → readGate mem (tables.gateAddress v) = stubGate (l.stub v)
  handler : ∀ v : UInt8, v.toNat < n → load32 mem (l.slot v) = l.unexpected
  gdt : GdtAt mem

/-- One round fills in one more. -/
lemma FilledTo.round (hl : l.Layout) (hn : n < 256) (hf : l.FilledTo n mem) :
    l.FilledTo (n + 1) (l.initRound mem n) := by
  have hi : (UInt8.ofNat n).toNat = n := by
    rw [UInt8.toNat_ofNat']
    omega
  generalize hv : UInt8.ofNat n = i at hi
  have hidt : Apart (l.slot i) 4 idtAddress 2048 := hl.idt.sub_left (slot_sub i)
  have htable : Apart (tables.gateAddress i) 8 l.isrTable 1024 :=
    hl.idt.symm.sub_left (gate_sub i)
  have hgate : Apart (tables.gateAddress i) 8 gdtAddress 40 := gdt_apart_idt.sub_left (gate_sub i)
  have hslot : Apart (l.slot i) 4 gdtAddress 40 := hl.gdt.sub_left (slot_sub i)
  have hround : l.initRound mem n = store32 (l.slot i) l.unexpected
      (writeGate (tables.gateAddress i) (stubGate (l.stub i)) mem) := by
    rw [initRound, hv, installIsr, setIdtEntry_eq]
  rw [hround]
  refine ⟨fun w hw => ?_, fun w hw => ?_,
    hf.gdt.congr ((SameOn.store32 hslot).trans (SameOn.writeGate hgate))⟩
  · rw [readGate_congr (SameOn.store32 (apart_gate hidt w))]
    by_cases hwi : w = i
    · subst hwi
      exact readGate_writeGate _
    · rw [readGate_congr (SameOn.writeGate (gates_apart (Ne.symm hwi)))]
      refine hf.gate w ?_
      have hne : w.toNat ≠ i.toNat := fun heq => hwi (UInt8.toNat_inj.mp heq)
      omega
  · by_cases hwi : w = i
    · subst hwi
      exact load32_store32
    · rw [load32_store32_apart (slots_apart' (Ne.symm hwi)),
        load32_congr (SameOn.writeGate (apart_slot htable w))]
      refine hf.handler w ?_
      have hne : w.toNat ≠ i.toNat := fun heq => hwi (UInt8.toNat_inj.mp heq)
      omega

/-- The whole loop, by induction on the number of rounds. -/
lemma filledTo_loop (hl : l.Layout) (hgdt : GdtAt mem) :
    ∀ n ≤ 256, l.FilledTo n ((List.range n).foldl l.initRound mem)
  | 0, _ => ⟨fun _ h => absurd h (Nat.not_lt_zero _), fun _ h => absurd h (Nat.not_lt_zero _), hgdt⟩
  | n + 1, hn => by
      rw [List.range_succ, List.foldl_append]
      exact (filledTo_loop hl hgdt n (by omega)).round hl (by omega)

/-- The handlers after `init_idt`. -/
def initialHandlers (l : Linkage) : UInt8 → UInt32 :=
  Function.update (Function.update (fun _ => l.unexpected) intVecKeyboard l.expected) intVecTimer
    l.expected

/-- `init_idt` fills in both tables. -/
lemma installed_initIdt (hl : l.Layout) (hgdt : GdtAt mem) :
    l.Installed l.initialHandlers (l.initIdt mem) := by
  have hf := filledTo_loop hl hgdt 256 (Nat.le_refl _)
  have hi : l.Installed (fun _ => l.unexpected) ((List.range 256).foldl l.initRound mem) :=
    ⟨fun v => hf.gate v v.toNat_lt, fun v => hf.handler v v.toNat_lt, hf.gdt⟩
  exact installed_install hl [(intVecKeyboard, l.expected), (intVecTimer, l.expected)] hi

end Init

end Linkage

/-! ### Entering a handler -/

section Enter

variable {l : Linkage} {upper : Seg → UInt16} {upperCs cs : UInt16} {mem : Memory}
  {current systemEsp code eip a : UInt32} {vector : UInt8} {m m₁ : Cpu} {n : ℕ}
  {f : UInt8 → UInt32} {es : List Linkage.TableEvent}

/-- The last bytes of the frame that an interrupt pushes. -/
lemma apart_frame {k : ℕ} (h : Apart (m.reg .esp - 72) 72 a n) (hk : k ≤ 72) :
    Apart (m.reg .esp - UInt32.ofNat k) k a n := by
  have hpart := h.sub_left (k := 72 - k) (l := k) (by omega)
  have hbase : m.reg .esp - 72 + UInt32.ofNat (72 - k) = m.reg .esp - UInt32.ofNat k := by
    rw [← UInt32.toNat_inj]
    simp only [UInt32.toNat_add, UInt32.toNat_sub, UInt32.toNat_ofNat', UInt32.reduceToNat]
    have := (m.reg .esp).toNat_lt
    omega
  rwa [hbase] at hpart

/-- The words the hardware pushes. -/
def hardwareWords (upperCs : UInt16) (vector : UInt8) (code : UInt32) (m : Cpu) : List UInt32 :=
  [m.eflags, selectorWord m.cs upperCs, m.eip]
    ++ if vector ∈ Cpu.errorCodeVectors then [code] else []

lemma interrupt_eq : m.interrupt upperCs vector code cs eip
    = (pushAll (hardwareWords upperCs vector code m) m).jump cs eip
        (m.eflags &&& ~~~Cpu.gateFlags) := by
  rw [Cpu.interrupt, hardwareWords]
  split_ifs <;> rfl

lemma jump_mem {eflags : UInt32} : (m.jump cs eip eflags).mem = m.mem := rfl

/-- They are a part of the frame. -/
lemma interrupt_same (h : Apart (m.reg .esp - 72) 72 a n) :
    SameOn (m.interrupt upperCs vector code cs eip).mem m.mem a n := by
  have hlen : 4 * (hardwareWords upperCs vector code m).length ≤ 72 := by
    rw [hardwareWords]
    split_ifs <;> simp
  rw [interrupt_eq, jump_mem]
  exact pushAll_same (apart_frame h hlen)

/-- What the entry into a handler writes: the frame, the context pointer and two words of the
system stack. -/
structure Written (current systemEsp : UInt32) (m : Cpu) (a : UInt32) (n : ℕ) : Prop where
  frame : Apart (m.reg .esp - 72) 72 a n
  context : Apart (load32 m.mem current) 4 a n
  params : Apart (load32 m.mem systemEsp - 8) 8 a n

/-- `isr_save` leaves the vector in EAX. -/
lemma run_isrSaveSwitch_eax : (run upper (isrSaveSwitch current systemEsp) m).reg .eax
    = load32 (store32 (load32 m.mem current) (m.reg .esp) m.mem) (m.reg .esp + 52) := by
  simp [run, isrSaveSwitch, Instr.exec, Operand.address, Cpu.setReg]

/-- The entry into a handler writes nothing else, and leaves the vector in EAX. -/
lemma enterIsr_same (upper : Seg → UInt16) (upperCs cs : UInt16) (vector : UInt8)
    (code eip : UInt32) (hk : KernelApart current systemEsp m 72) :
    (enterIsr upper upperCs current systemEsp vector code cs eip m).reg .eax = vector.toUInt32
      ∧ ∀ a n, Written current systemEsp m a n →
        SameOn (enterIsr upper upperCs current systemEsp vector code cs eip m).mem m.mem a n := by
  simp only [KernelApart, List.pairwise_cons, List.mem_cons, List.not_mem_nil, or_false,
    forall_eq_or_imp, forall_eq] at hk
  obtain ⟨⟨-, -, -, hframeCurrent⟩, ⟨hsystemContext, -, hframeSystem⟩, ⟨-, hcontextFrame⟩, -⟩ := hk
  rw [enterIsr, isrSave, ← List.append_assoc, run_append, saved_pushes]
  generalize hc : savedContext upper upperCs vector code m = c
  generalize hm₁ : pushAll c.words.reverse m = m₁
  have hesp₁ : m₁.reg .esp = m.reg .esp - 72 := by
    rw [← hm₁]
    exact pushAll_esp _ m
  have hpushed {a : UInt32} {k : ℕ} (ha : Apart (m.reg .esp - 72) 72 a k) :
      SameOn m₁.mem m.mem a k := by
    rw [← hm₁]
    exact pushAll_same ha
  have hcurrent₁ : load32 m₁.mem current = load32 m.mem current :=
    load32_congr (hpushed hframeCurrent.symm)
  have hwords : ContextAt m₁.mem (m.reg .esp - 72) c := by
    have hempty : WordsAt m.mem (m.reg .esp) [] := trivial
    have hall := pushAll_words c.words.reverse hempty (by simp)
    rwa [List.reverse_reverse, List.append_nil, hm₁, hesp₁] at hall
  generalize hm₂ : m₁.jump cs eip (m.eflags &&& ~~~Cpu.gateFlags) = m₂
  have hmem₂ : m₂.mem = m₁.mem := by rw [← hm₂, jump_mem]
  have hesp₂ : m₂.reg .esp = m.reg .esp - 72 := by rw [← hm₂, jump_reg, hesp₁]
  constructor
  · have hget := (hwords.congr (SameOn.store32 (v := m.reg .esp - 72) hcontextFrame)).get (i := 13)
      (by simp)
    rw [run_isrSaveSwitch_eax, hmem₂, hesp₂, hcurrent₁]
    rw [← hc] at hget
    exact hget
  · intro a n hw
    obtain ⟨m', hmem, hesp, hrun⟩ := run_isrSaveSwitch upper current systemEsp m₂
    rw [hmem₂, hesp₂, hcurrent₁] at hmem
    have hstored {b : UInt32} {k : ℕ} (hb : Apart (load32 m.mem current) 4 b k) :
        SameOn m'.mem m₁.mem b k := by
      rw [hmem]
      exact SameOn.store32 hb
    have hsystem : m'.reg .esp = load32 m.mem systemEsp := by
      rw [hesp, load32_congr (hstored hsystemContext.symm),
        load32_congr (hpushed hframeSystem.symm)]
    rw [hrun]
    refine (pushAll_same ?_).trans ((hstored hw.context).trans (hpushed hw.frame))
    rw [hsystem]
    exact hw.params

end Enter

/-! ### Dispatching an interrupt -/

section Dispatch

variable {l : Linkage} {upper : Seg → UInt16} {upperCs cs : UInt16} {mem mem' : Memory}
  {current systemEsp code a : UInt32} {vector : UInt8} {m : Cpu} {n : ℕ}
  {f : UInt8 → UInt32} {es : List Linkage.TableEvent}

/-- The code segment of the gates is all of memory. -/
lemma GdtAt.codeSegment (hg : GdtAt mem) :
    tables.descriptor mem 0x0010 = ⟨0, 0xffffffff, 0x9a⟩ := by
  have hlow : load32 mem 0x510 = 0x0000ffff := by
    have h₀ : mem 0x510 = 0xff := hg 16 _ rfl
    have h₁ : mem (0x510 + 1) = 0xff := hg 17 _ rfl
    have h₂ : mem (0x510 + 2) = 0 := hg 18 _ rfl
    have h₃ : mem (0x510 + 3) = 0 := hg 19 _ rfl
    rw [load32, h₀, h₁, h₂, h₃]
    rfl
  have hhigh : load32 mem (0x510 + 4) = 0x00cf9a00 := by
    have h₀ : mem (0x510 + 4) = 0 := hg 20 _ rfl
    have h₁ : mem (0x510 + 4 + 1) = 0x9a := hg 21 _ rfl
    have h₂ : mem (0x510 + 4 + 2) = 0xcf := hg 22 _ rfl
    have h₃ : mem (0x510 + 4 + 3) = 0 := hg 23 _ rfl
    rw [load32, h₀, h₁, h₂, h₃]
    rfl
  change readDescriptor mem 0x510 = _
  rw [readDescriptor, hlow, hhigh]
  decide

/-- What the entry into a handler writes spares the tables. -/
structure Linkage.Spared (l : Linkage) (current systemEsp : UInt32) (m : Cpu) : Prop where
  kernel : KernelApart current systemEsp m 72
  gdt : Written current systemEsp m gdtAddress 40
  handlers : Written current systemEsp m l.isrTable 1024

/-- The interrupt is accepted and comes to the stub of its vector, and `isr_save` calls the handler
with the vector and the error code, or a zero, on top of the system stack. -/
def Linkage.Reaches (l : Linkage) (upper : Seg → UInt16) (upperCs : UInt16)
    (current systemEsp : UInt32) (vector : UInt8) (code handler : UInt32) (m : Cpu) : Prop :=
  ∃ m₁ s, deliver tables upperCs vector code m = some m₁
    ∧ fetchAddress tables m₁ = l.stub vector
    ∧ s = run upper (isrStub vector ++ isrSave current systemEsp) m₁
    ∧ l.callee s = handler
    ∧ WordsAt s.mem (s.reg .esp)
      [vector.toUInt32, if vector ∈ Cpu.errorCodeVectors then code else 0]

/-- With the tables in use an interrupt reaches the handler of its vector. -/
lemma Linkage.Installed.reaches (hi : l.Installed f m.mem) (hs : l.Spared current systemEsp m)
    (upper : Seg → UInt16) (upperCs : UInt16) (vector : UInt8) (code : UInt32) :
    l.Reaches upper upperCs current systemEsp vector code (f vector) m := by
  have hbound := vector.toNat_lt
  have hgate := hi.gate vector
  have hdeliver : deliver tables upperCs vector code m
      = some (m.interrupt upperCs vector code 0x0010 (l.stub vector)) := by
    rw [deliver]
    simp only [hgate, stubGate, hi.gdt.codeSegment]
    have hflags : idtFlags &&& 0x9f00 = 0x8e00 := by decide
    refine if_pos ⟨?_, hflags, by decide, by decide⟩
    change 8 * vector.toNat + 7 ≤ 2048
    omega
  refine ⟨_, _, hdeliver, ?_, rfl, ?_, ?_⟩
  · have hg : GdtAt (m.interrupt upperCs vector code 0x0010 (l.stub vector)).mem :=
      hi.gdt.congr (interrupt_same hs.gdt.frame)
    have hcs : (m.interrupt upperCs vector code 0x0010 (l.stub vector)).cs = 0x0010 := by
      rw [interrupt_eq]
      rfl
    have heip : (m.interrupt upperCs vector code 0x0010 (l.stub vector)).eip = l.stub vector := by
      rw [interrupt_eq]
      rfl
    rw [fetchAddress, hcs, heip, hg.codeSegment]
    simp
  · obtain ⟨heax, hsame⟩ := enterIsr_same upper upperCs 0x0010 vector code (l.stub vector) hs.kernel
    have hslot : 4 * vector.toUInt32 = UInt32.ofNat (4 * vector.toNat) := by
      rw [← UInt32.toNat_inj, UInt32.toNat_mul, UInt32.toNat_ofNat', UInt8.toNat_toUInt32]
      rfl
    have htable := hsame l.isrTable 1024 hs.handlers
    change Linkage.callee l (enterIsr upper upperCs current systemEsp vector code 0x0010
      (l.stub vector) m) = _
    rw [Linkage.callee, heax, hslot, ← hi.handler vector]
    exact load32_congr (htable.sub (slot_sub vector))
  · have hentered := entered upper upperCs 0x0010 vector code (l.stub vector) hs.kernel
      (Nat.le_refl 72) (by decide)
    have hparams := hentered.params
    rw [← hentered.esp_eq] at hparams
    exact hparams

/-! ### The system -/

/-- The handler of each vector after `_init`. -/
def Linkage.systemHandler (l : Linkage) (v : UInt8) : UInt32 :=
  if v = intVecTimer then l.isrClock
  else if v = intVecKeyboard then l.keyboardIsr
  else if v = intVecSerialPort1 then l.isrSio
  else if v = ataIntVecPriPata then l.ataIsr
  else if v = intVecSyscall then l.isrSyscall
  else l.unexpected

lemma systemHandlers_eq :
    l.systemHandlers.foldl (fun f h => Function.update f h.1 h.2) l.initialHandlers
      = l.systemHandler := by
  funext v
  simp only [Linkage.systemHandlers, List.foldl_cons, List.foldl_nil, Linkage.initialHandlers,
    Function.update_apply, Linkage.systemHandler, Linkage.intVecTimer, Linkage.intVecKeyboard,
    Linkage.intVecSerialPort1, Linkage.ataIntVecPriPata, intVecSyscall]
  split_ifs <;> simp_all

/-- The tables are in use after `_init`. -/
lemma installed_initVectors (hl : l.Layout) (hgdt : GdtAt mem) :
    l.Installed l.systemHandler (l.initVectors mem) := by
  have hi := Linkage.installed_install hl l.systemHandlers (Linkage.installed_initIdt hl hgdt)
  rwa [systemHandlers_eq] at hi

/-- **Interrupts are dispatched**: after `_init` and any installations and stores elsewhere, an
interrupt of any vector is accepted, comes to the stub of this vector, and is handled by the
handler that was installed last for it, which is given the vector and the error code. An
installation returns the handler that it replaces. -/
theorem interrupt_dispatched (hl : l.Layout) (hgdt : GdtAt mem)
    (hrun : Transition.Run l.tableStep l.SparesTables (l.initVectors mem) es mem')
    (vector : UInt8) :
    (∀ m : Cpu, m.mem = mem' → l.Spared current systemEsp m → ∀ upper upperCs code,
        l.Reaches upper upperCs current systemEsp vector code
          (Linkage.latest l.systemHandler es vector) m)
      ∧ ∀ h, (l.installIsr vector h mem').1 = Linkage.latest l.systemHandler es vector := by
  have hi := Linkage.installed_run hl hrun (installed_initVectors hl hgdt)
  refine ⟨fun m hm hs upper upperCs code => ?_, fun h => (hi.install hl vector h).1⟩
  subst hm
  exact hi.reaches hs upper upperCs vector code

end Dispatch

/-! ### An example -/

/-- Some addresses. -/
def demoLinkage : Linkage where
  isrTable := 0x20000
  stub v := 0x10000 + 16 * v.toUInt32
  unexpected := 0x12000
  expected := 0x12100
  keyboardIsr := 0x12200
  ataIsr := 0x12300
  isrClock := 0x12400
  isrSyscall := 0x12500
  isrSio := 0x12600

/-- Memory with the descriptors, a pointer to a PCB and the system stack pointer. -/
def demoVectorMemory : Memory := fun a =>
  if 0x500 ≤ a then
    if a = 0x30002 then 4 else if a = 0x30006 then 5 else gdt.getD (a - 0x500).toNat 0
  else 0

lemma demoLinkage_layout : demoLinkage.Layout :=
  ⟨(apart_of_le (by decide) (by decide)).symm, (apart_of_le (by decide) (by decide)).symm⟩

lemma demoVectorMemory_gdt : GdtAt demoVectorMemory := by
  have hbytes : ∀ i < 40, demoVectorMemory (gdtAddress + UInt32.ofNat i) = gdt.getD i 0 := by
    decide +kernel
  intro i b hb
  have hi := (List.getElem?_eq_some_iff.mp hb).1
  rw [hbytes i hi, List.getD_eq_getElem?_getD, hb, Option.getD_some]

/-- A processor with this memory. -/
def demoVectorCpu (mem : Memory) : Cpu where
  reg _ := 0x60000
  seg _ := 0x18
  cs := 0x10
  eip := 0x14000
  eflags := 0x202
  mem := mem

lemma demoVectorCpu_spared {mem : Memory} (hcurrent : load32 mem 0x30000 = 0x40000)
    (hsystem : load32 mem 0x30004 = 0x50000) :
    demoLinkage.Spared 0x30000 0x30004 (demoVectorCpu mem) := by
  have hcurrent' : load32 (demoVectorCpu mem).mem 0x30000 = 0x40000 := hcurrent
  have hsystem' : load32 (demoVectorCpu mem).mem 0x30004 = 0x50000 := hsystem
  have hesp : (demoVectorCpu mem).reg .esp = 0x60000 := rfl
  refine ⟨?_, ⟨?_, ?_, ?_⟩, ⟨?_, ?_, ?_⟩⟩
  · rw [KernelApart, hcurrent', hsystem', hesp]
    simp only [List.pairwise_cons, List.mem_cons, List.not_mem_nil, or_false, forall_eq_or_imp,
      forall_eq, List.Pairwise.nil, false_implies, implies_true, and_true]
    refine ⟨⟨?_, ?_, ?_, ?_⟩, ⟨?_, ?_, ?_⟩, ⟨?_, ?_⟩, ?_⟩ <;>
      exact apart_of_le (by decide) (by decide)
  all_goals
    first
      | rw [hcurrent']
      | rw [hsystem']
      | rw [hesp]
    exact (apart_of_le (by decide) (by decide)).symm

/-- A page fault after a handler has been installed for it. -/
theorem interrupt_dispatched_demo : ∃ mem',
    Transition.Run demoLinkage.tableStep demoLinkage.SparesTables
      (demoLinkage.initVectors demoVectorMemory) [.install 0x0e 0x13000] mem'
    ∧ demoLinkage.Reaches (fun _ => 0) 0 0x30000 0x30004 0x0e 2 0x13000 (demoVectorCpu mem') := by
  have hrun : Transition.Run demoLinkage.tableStep demoLinkage.SparesTables
      (demoLinkage.initVectors demoVectorMemory) [.install 0x0e 0x13000] _ :=
    .cons trivial rfl (.nil _)
  refine ⟨_, hrun, (interrupt_dispatched demoLinkage_layout demoVectorMemory_gdt hrun 0x0e).1
    (demoVectorCpu _) rfl (demoVectorCpu_spared ?_ ?_) _ _ _⟩ <;> decide +kernel

end Sp2
