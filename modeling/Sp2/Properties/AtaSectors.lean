import Sp2.Devices.AtaDrive
import Sp2.Devices.AtaSteps

/-!
The sectors that block addresses reach.

* `Issues`: a process issues one block of a read or a write, from the test of the loop to the
  command register, with nothing between its statements.
* `Issues.block`: the drive goes to the block that the registers encode.
* `sectors_addressed`: the registers encode the block address **exactly if its bits 8 to 23 are
  zero**, since the cast in `(uint8_t) dr->lba >> 8` comes before the shift; two blocks reach
  different sectors exactly if their addresses differ in the other bits.
-/

namespace Sp2

open Transition AtaState

/-- A process in a loop over the blocks of `_ata_read_data` or `_ata_write_data`, alone with a
drive that is ready, issues block `i`: ten statements, up to the command register. -/
structure Issues (s : AtaState) (job : AtaJob) (i : UInt32) (s' : AtaState) : Prop where
  job_eq : ∃ lba blocks buffer,
    job = ataReadData lba blocks buffer ∨ job = ataWriteData lba blocks buffer
  more : i < job.count
  ready : ¬ s.drive.Busy ∧ s.drive.status &&& ataStatusDrdy ≠ 0
  run : ∃ p r, s.calls p = some ⟨job, i, r, .prepare⟩
    ∧ Transition.Run ataStep (fun _ _ => True) s (List.replicate 10 (.run p true)) s'

/-- The sector that the drive reads or writes. -/
def AtaState.sector (s : AtaState) : Option UInt32 := s.drive.command.map (·.block)

section Steps

variable {p : PcbId} {c : AtaCall} {s s' : AtaState} {es : List AtaEvent} {n : ℕ}

/-- The registers are written one by one, and the drive takes the command with all of them. -/
lemma run_outs (l : List (AtaReg × UInt8)) :
    ∀ {s : AtaState} {c : AtaCall}, s.calls p = some c → c.point = .outs l →
      Transition.Run ataStep (fun _ _ => True) s (List.replicate (l.length + 1) (.run p true)) s' →
      ∃ op, s'.drive = (s.drive.outs l).take op := by
  induction l with
  | nil =>
      intro s c hc hpoint h
      obtain ⟨t, ht, h⟩ := (run_succ hc).mp h
      obtain rfl := run_nil.mp h
      simp only [runStep, hpoint, Except.ok.injEq] at ht
      exact ⟨_, by rw [← ht]; rfl⟩
  | cons x l ih =>
      intro s c hc hpoint h
      obtain ⟨t, ht, h⟩ := (run_succ hc).mp h
      simp only [runStep, hpoint, Except.ok.injEq] at ht
      obtain ⟨op, hop⟩ := ih (c := { c with point := .outs l }) (by rw [← ht]; simp) rfl h
      exact ⟨op, by rw [hop, ← ht]; rfl⟩

end Steps

/-- The loop over the blocks fills in the request, and the registers get its block address. -/
lemma Issues.drive {s s' : AtaState} {job : AtaJob} {i : UInt32} (h : Issues s job i s') :
    ∃ op nien, s'.drive = ({ s.drive with nien := nien }.outs (ataOuts (job.lba + i))).take op := by
  obtain ⟨p, r, hc, hrun⟩ := h.run
  have hknown : job.cmd = diskCmdRead ∨ job.cmd = diskCmdWrite := by
    obtain ⟨lba, blocks, buffer, rfl | rfl⟩ := h.job_eq
    · exact Or.inl rfl
    · exact Or.inr rfl
  -- The statements before the registers: the request, the queue, `nIEN` and the drive.
  obtain ⟨t₁, ht₁, hrun⟩ := (run_succ hc).mp hrun
  simp only [runStep, h.more, if_true, Except.ok.injEq] at ht₁
  have hc₁ : t₁.calls p = some ⟨job, i, r, .insert⟩ := by
    rw [← ht₁]
    simp
  have hreq : (t₁.requests r).cmd = job.cmd ∧ (t₁.requests r).lba = job.lba + i := by
    rw [← ht₁]
    simp [AtaState.goto, setReq]
  obtain ⟨t₂, ht₂, hrun⟩ := (run_succ hc₁).mp hrun
  simp only [runStep, hreq, hknown, if_true, Except.ok.injEq] at ht₂
  have hc₂ : t₂.calls p = some ⟨job, i, r, .enable⟩ := by
    rw [← ht₂]
    simp
  obtain ⟨t₃, ht₃, hrun⟩ := (run_succ hc₂).mp hrun
  simp only [runStep, Except.ok.injEq] at ht₃
  have hc₃ : t₃.calls p = some ⟨job, i, r, .ready⟩ := by
    rw [← ht₃]
    simp
  obtain ⟨t₄, ht₄, hrun⟩ := (run_succ hc₃).mp hrun
  have hdrive : t₃.drive = { s.drive with nien := false } := by
    rw [← ht₃, ← ht₂, ← ht₁]
    rfl
  have hlba : (t₃.requests r).lba = job.lba + i := by
    rw [← ht₃, ← ht₂]
    simp [AtaState.goto, setReq, hreq]
  have hready : ¬ (t₃.drive.Busy ∨ t₃.drive.status &&& ataStatusDrdy = 0) := by
    rw [hdrive]
    exact not_or.mpr ⟨h.ready.1, h.ready.2⟩
  simp only [runStep, hready, if_false, hlba, Except.ok.injEq] at ht₄
  have hc₄ : t₄.calls p = some ⟨job, i, r, .outs (ataOuts (job.lba + i))⟩ := by
    rw [← ht₄]
    simp
  obtain ⟨op, hop⟩ := run_outs (ataOuts (job.lba + i)) hc₄ rfl hrun
  refine ⟨op, false, ?_⟩
  rw [hop, ← hdrive, ← ht₄]
  rfl

/-- **The sector of a block**: the low byte of its address and the four bits from bit 24 on. -/
lemma Issues.sector {s s' : AtaState} {job : AtaJob} {i : UInt32} (h : Issues s job i s') :
    ∃ sector, s'.sector = some sector ∧ sector.toNat
      = (job.lba + i).toNat % 2 ^ 8 + 2 ^ 24 * ((job.lba + i).toNat / 2 ^ 24 % 2 ^ 4) := by
  obtain ⟨op, nien, hdrive⟩ := h.drive
  have hbusy : ¬ ({ s.drive with nien := nien }.outs (ataOuts (job.lba + i))).Busy := h.ready.1
  refine ⟨({ s.drive with nien := nien }.outs (ataOuts (job.lba + i))).block, ?_, ?_⟩
  · rw [AtaState.sector, hdrive, Drive.take, if_neg hbusy]
    rfl
  · rw [Drive.block_toNat, Drive.address_of_outs (Drive.outs_regs _ _)]

/-- **The registers encode a block address exactly if its bits 8 to 23 are zero**, and two blocks
with different addresses reach different sectors exactly if the addresses differ in bits 0 to 7
or 24 to 27. -/
theorem sectors_addressed (lba : UInt32) (hlba : lba.toNat < 2 ^ 28) :
    (∀ d : Drive, (d.outs (ataOuts lba)).address = lba.toNat ↔ lba.toNat / 2 ^ 8 % 2 ^ 16 = 0)
    ∧ ∀ {s₁ s₂ s₁' s₂' : AtaState} {job₁ job₂ : AtaJob} {i₁ i₂ : UInt32},
      Issues s₁ job₁ i₁ s₁' → Issues s₂ job₂ i₂ s₂' → job₁.lba + i₁ = lba →
      (job₂.lba + i₂).toNat < 2 ^ 28 → lba ≠ job₂.lba + i₂ →
      (s₁'.sector ≠ s₂'.sector ↔ lba.toNat % 2 ^ 8 ≠ (job₂.lba + i₂).toNat % 2 ^ 8
        ∨ lba.toNat / 2 ^ 24 ≠ (job₂.lba + i₂).toNat / 2 ^ 24) := by
  constructor
  · intro d
    rw [Drive.address_of_outs (Drive.outs_regs d lba)]
    omega
  · intro s₁ s₂ s₁' s₂' job₁ job₂ i₁ i₂ h₁ h₂ hfirst hlt₂ _
    obtain ⟨sector₁, hs₁, hn₁⟩ := h₁.sector
    obtain ⟨sector₂, hs₂, hn₂⟩ := h₂.sector
    rw [hfirst] at hn₁
    rw [hs₁, hs₂, Ne, Option.some_inj, ← UInt32.toNat_inj, hn₁, hn₂]
    omega

/-- A process has called `_ata_read_data` for one block. -/
def readingBlock (lba : UInt32) : AtaState :=
  { ataStart with
    calls := Function.update ataStart.calls 1
      (some ⟨ataReadData lba 1 0x1000, 0, firstRequest, .prepare⟩) }

/-- Block 5 is encoded, and the blocks 0 and 256 are at the same sector. -/
theorem sectors_addressed_reads :
    (∀ d : Drive, (d.outs (ataOuts 5)).address = 5)
    ∧ ∃ s₁ s₂, Issues (readingBlock 0) (ataReadData 0 1 0x1000) 0 s₁
      ∧ Issues (readingBlock 256) (ataReadData 256 1 0x1000) 0 s₂ ∧ s₁.sector = s₂.sector := by
  refine ⟨fun d => ((sectors_addressed 5 (by decide)).1 d).mpr (by decide), ?_⟩
  have hissues : ∀ lba : UInt32, lba = 0 ∨ lba = 256 →
      ∃ s, Issues (readingBlock lba) (ataReadData lba 1 0x1000) 0 s := by
    intro lba hlba
    obtain ⟨s, hrun, -⟩ := exists_run ataStep (fun _ _ => True) (readingBlock lba)
      (List.replicate 10 (.run 1 true)) (f := fun _ => ()) (b := ())
      (by rcases hlba with rfl | rfl <;> decide +kernel)
    have hready : ¬ ataStart.drive.Busy ∧ ataStart.drive.status &&& ataStatusDrdy ≠ 0 := by decide
    exact ⟨s, ⟨lba, 1, 0x1000, Or.inl rfl⟩, show (0 : UInt32) < 1 by decide, hready, 1,
      firstRequest, by simp [readingBlock], hrun⟩
  obtain ⟨s₁, h₁⟩ := hissues 0 (Or.inl rfl)
  obtain ⟨s₂, h₂⟩ := hissues 256 (Or.inr rfl)
  refine ⟨s₁, s₂, h₁, h₂, not_not.mp fun hne => ?_⟩
  have hdiffer := ((sectors_addressed 0 (by decide)).2 h₁ h₂ rfl (by decide) (by decide)).mp hne
  exact absurd hdiffer (by decide)

/-- Block 256 is not encoded. -/
theorem lba_not_encoded : ¬ ∀ lba : UInt32, lba.toNat < 2 ^ 28 → ∀ d : Drive,
    (d.outs (ataOuts lba)).address = lba.toNat := fun h =>
  absurd (h 256 (by decide) ⟨fun _ => 0, false, ataStatusDrdy, none, []⟩) (by decide)

end Sp2
