import Sp2.Lib.Words

/-!
The part of the 32-bit x86 that saving and restoring a context uses: the stack, the segment
registers, interrupts and a few moves, all in one privilege level.

* `Cpu`: the registers and the memory. `Cpu.push`, `Cpu.pop`, `Cpu.pusha`, `Cpu.popa`.
* `Instr`, `Instr.exec`, `run`: instructions in sequence.
* `Cpu.interrupt`, `Cpu.iret`: what the hardware does at either end of a handler.
* `pushAll`, `pushAll_words`, `pushAll_same`: words pushed one after another.
-/

namespace X86

open Words Address

/-- The general registers. -/
inductive Reg
  | eax | ecx | edx | ebx | esp | ebp | esi | edi
  deriving DecidableEq

/-- The data segment registers. -/
inductive Seg
  | ds | es | fs | gs | ss
  deriving DecidableEq

/-- The state of the processor. -/
@[ext]
structure Cpu where
  reg : Reg → UInt32
  seg : Seg → UInt16
  cs : UInt16
  eip : UInt32
  eflags : UInt32
  mem : Bytes

/-! ### Selectors -/

/-- A doubleword with a selector in its low half. -/
def selectorWord (sel upper : UInt16) : UInt32 := UInt32.ofNat (sel.toNat + 2 ^ 16 * upper.toNat)

@[simp] lemma selectorWord_toUInt16 (sel upper : UInt16) :
    (selectorWord sel upper).toUInt16 = sel := by
  rw [selectorWord, ← UInt16.toNat_inj, UInt32.toNat_toUInt16, UInt32.toNat_ofNat']
  have := sel.toNat_lt
  omega

/-! ### Instructions -/

namespace Cpu

/-- Write a general register. -/
def setReg (r : Reg) (v : UInt32) (m : Cpu) : Cpu := { m with reg := Function.update m.reg r v }

/-- Push a doubleword. -/
def push (v : UInt32) (m : Cpu) : Cpu :=
  { m.setReg .esp (m.reg .esp - 4) with mem := store32 (m.reg .esp - 4) v m.mem }

/-- The doubleword at the top of the stack. -/
def top (m : Cpu) : UInt32 := load32 m.mem (m.reg .esp)

/-- Discard so many bytes from the stack. -/
def drop (n : UInt32) (m : Cpu) : Cpu := m.setReg .esp (m.reg .esp + n)

/-- Pop a general register other than the stack pointer. -/
def popReg (r : Reg) (m : Cpu) : Cpu := (m.drop 4).setReg r m.top

/-- Pop a segment register. -/
def popSeg (s : Seg) (m : Cpu) : Cpu :=
  { m.drop 4 with seg := Function.update m.seg s m.top.toUInt16 }

/-- `pusha`, which pushes the stack pointer from before it. -/
def pusha (m : Cpu) : Cpu :=
  ((((((((m.push (m.reg .eax)).push (m.reg .ecx)).push (m.reg .edx)).push (m.reg .ebx)).push
    (m.reg .esp)).push (m.reg .ebp)).push (m.reg .esi)).push (m.reg .edi))

/-- `popa`, which discards the stack pointer. -/
def popa (m : Cpu) : Cpu :=
  ((((((((m.popReg .edi).popReg .esi).popReg .ebp).drop 4).popReg .ebx).popReg .edx).popReg
    .ecx).popReg .eax)

/-- The exceptions for which the processor pushes an error code. -/
def errorCodeVectors : List UInt8 := [8, 10, 11, 12, 13, 14, 17]

/-- The flags an interrupt gate clears: TF, IF, NT, RF and VM. -/
def gateFlags : UInt32 := 0x34300

/-- Go on elsewhere, with other flags. -/
def jump (cs : UInt16) (eip eflags : UInt32) (m : Cpu) : Cpu :=
  { m with cs := cs, eip := eip, eflags := eflags }

/-- An interrupt through a gate of the same privilege level, to a handler at `cs` and `eip`.
`upper` is what ends up in the upper half of the doubleword that holds CS. -/
def interrupt (upper : UInt16) (vector : UInt8) (code : UInt32) (cs : UInt16) (eip : UInt32)
    (m : Cpu) : Cpu :=
  let m' := ((m.push m.eflags).push (selectorWord m.cs upper)).push m.eip
  let m' := if vector ∈ errorCodeVectors then m'.push code else m'
  m'.jump cs eip (m.eflags &&& ~~~gateFlags)

/-- `iret`, to the same privilege level. -/
def iret (m : Cpu) : Cpu :=
  ((m.drop 4).drop 4).drop 4 |>.jump (m.drop 4).top.toUInt16 m.top ((m.drop 4).drop 4).top

end Cpu

/-- A memory operand. -/
inductive Operand
  | abs (address : UInt32)
  | based (disp : UInt32) (base : Reg)

/-- The address of a memory operand. -/
def Operand.address (m : Cpu) : Operand → UInt32
  | abs address => address
  | based disp base => m.reg base + disp

/-- The instructions. -/
inductive Instr
  | pushImm (v : UInt32)
  | push (r : Reg)
  | pushSeg (s : Seg)
  | pusha
  | popSeg (s : Seg)
  | popa
  | movImm (v : UInt32) (r : Reg)
  | load (src : Operand) (r : Reg)
  | store (r : Reg) (dst : Operand)
  | addImm (v : UInt32) (r : Reg)

/-- One instruction. `upper s` is what ends up in the upper half of the doubleword that holds
the selector of `s`, which processors treat differently. -/
def Instr.exec (upper : Seg → UInt16) (m : Cpu) : Instr → Cpu
  | pushImm v => m.push v
  | push r => m.push (m.reg r)
  | pushSeg s => m.push (selectorWord (m.seg s) (upper s))
  | pusha => m.pusha
  | popSeg s => m.popSeg s
  | popa => m.popa
  | movImm v r => m.setReg r v
  | load src r => m.setReg r (load32 m.mem (src.address m))
  | store r dst => { m with mem := store32 (dst.address m) (m.reg r) m.mem }
  | addImm v r => m.setReg r (m.reg r + v)

/-- Instructions in sequence. -/
def run (upper : Seg → UInt16) (prog : List Instr) (m : Cpu) : Cpu :=
  prog.foldl (Instr.exec upper) m

lemma run_append (upper : Seg → UInt16) (prog next : List Instr) (m : Cpu) :
    run upper (prog ++ next) m = run upper next (run upper prog m) := List.foldl_append

/-! ### Pushing -/

section Push

variable {m : Cpu} {v : UInt32} {ws base : List UInt32} {x : UInt32} {n : ℕ}

/-- Push words one after another. -/
def pushAll (ws : List UInt32) (m : Cpu) : Cpu := ws.foldl (fun m w => m.push w) m

@[simp] lemma pushAll_nil : pushAll [] m = m := rfl

lemma pushAll_cons : pushAll (v :: ws) m = pushAll ws (m.push v) := rfl

/-- One more word. -/
lemma pushAll_push (ws : List UInt32) : (pushAll ws m).push v = pushAll (ws ++ [v]) m := by
  rw [pushAll, pushAll, List.foldl_append]
  rfl

@[simp] lemma push_reg {r : Reg} (hr : r ≠ .esp) : (m.push v).reg r = m.reg r :=
  Function.update_of_ne hr _ _

/-- Only the stack pointer and the memory change. -/
@[simp] lemma pushAll_reg {r : Reg} (hr : r ≠ .esp) : (pushAll ws m).reg r = m.reg r := by
  induction ws generalizing m with
  | nil => rfl
  | cons v ws ih =>
      rw [pushAll_cons, ih, push_reg hr]

@[simp] lemma pushAll_seg : (pushAll ws m).seg = m.seg := by
  induction ws generalizing m with
  | nil => rfl
  | cons v ws ih => exact ih

@[simp] lemma push_jump {cs : UInt16} {eip eflags : UInt32} :
    (m.jump cs eip eflags).push v = (m.push v).jump cs eip eflags := rfl

@[simp] lemma jump_reg {cs : UInt16} {eip eflags : UInt32} :
    (m.jump cs eip eflags).reg = m.reg := rfl

@[simp] lemma jump_seg {cs : UInt16} {eip eflags : UInt32} :
    (m.jump cs eip eflags).seg = m.seg := rfl

/-- Each word takes four bytes. -/
lemma pushAll_esp (ws : List UInt32) (m : Cpu) :
    (pushAll ws m).reg .esp = m.reg .esp - UInt32.ofNat (4 * ws.length) := by
  induction ws generalizing m with
  | nil => simp
  | cons v ws ih =>
      calc (pushAll ws (m.push v)).reg .esp
          = m.reg .esp - 4 - UInt32.ofNat (4 * ws.length) := ih (m.push v)
        _ = m.reg .esp - UInt32.ofNat (4 * (v :: ws).length) := by
          rw [List.length_cons, Nat.mul_succ, Nat.add_comm, ← sub_ofNat_sub]
          rfl

/-- The words are found in the reverse order, before what was there. -/
lemma pushAll_words (ws : List UInt32) (h : WordsAt m.mem (m.reg .esp) base)
    (hlen : 4 * (ws.length + base.length) ≤ 2 ^ 32) :
    WordsAt (pushAll ws m).mem ((pushAll ws m).reg .esp) (ws.reverse ++ base) := by
  induction ws generalizing m base with
  | nil => exact h
  | cons v ws ih =>
      rw [List.length_cons] at hlen
      rw [pushAll_cons, List.reverse_cons, List.append_assoc, List.singleton_append]
      refine ih (m := m.push v) ?_ (by simp only [List.length_cons]; omega)
      have hpush := h.push (v := v) (by omega)
      simpa [Cpu.push, Cpu.setReg] using hpush

/-- What is pushed leaves the memory outside of it alone. -/
lemma pushAll_same (h : Apart (m.reg .esp - UInt32.ofNat (4 * ws.length)) (4 * ws.length) x n) :
    SameOn (pushAll ws m).mem m.mem x n := by
  induction ws generalizing m with
  | nil => exact SameOn.rfl
  | cons v ws ih =>
      rw [List.length_cons, Nat.mul_succ, Nat.add_comm] at h
      have hbase : m.reg .esp - UInt32.ofNat (4 + 4 * ws.length)
          = m.reg .esp - 4 - UInt32.ofNat (4 * ws.length) := (sub_ofNat_sub _ 4 _).symm
      rw [hbase] at h
      have htop : Apart (m.reg .esp - 4) 4 x n := by
        have h' := h.sub_left (k := 4 * ws.length) (l := 4) (by omega)
        rwa [sub_ofNat_add_ofNat] at h'
      have hrest : Apart ((m.push v).reg .esp - UInt32.ofNat (4 * ws.length)) (4 * ws.length) x n :=
        fun i hi j hj => h i (by omega) j hj
      exact (ih hrest).trans (SameOn.store32 htop)

end Push

end X86
