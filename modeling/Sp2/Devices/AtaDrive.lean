import Sp2.Devices.Ata
import Sp2.Lib.Fields

/-!
What the drive does on its own and with its registers.

* `Quiet`: it requests no data, nor will it on its own.
* `Serves`: what it requests, now or later, is the data of a command from the first word on.
* `Exchanging`, `Exchanged`: some of the words of a buffer have been exchanged for a command, and
  all of them.
* `Serves.exchange`: a command that is served is exchanged by as many words as a block has.
* `Keeps`: what is known of a drive and a command outlasts what the drive does on its own.
* `address`, `block_toNat`, `address_of_outs`: the number that the registers for a block encode.
-/

namespace Sp2

namespace Drive

/-- The drive requests no data, nor will it on its own. -/
structure Quiet (d : Drive) : Prop where
  now : ¬ d.Requests
  later : ¬ d.settle.Requests

/-- What the drive requests, now or later, is the first word of a command for a block. -/
structure Serves (op : AtaOp) (block : UInt32) (d : Drive) : Prop where
  command : d.Requests ∨ d.settle.Requests → d.command = some ⟨op, block⟩
  words : d.Requests ∨ d.settle.Requests → d.words = []
  ready : d.Requests → ¬ d.Busy

/-- The drive requests a word of a buffer, having exchanged the words before it. -/
structure Exchanging (op : AtaOp) (block buffer : UInt32) (k : ℕ) (d : Drive) : Prop where
  command : d.command = some ⟨op, block⟩
  words : d.words = (List.range k).map (wordAddr buffer)
  requests : d.Requests
  ready : ¬ d.Busy

/-- The drive has exchanged each word of a buffer once for a command, in order. -/
structure Exchanged (op : AtaOp) (block buffer : UInt32) (d : Drive) : Prop where
  command : d.command = some ⟨op, block⟩
  words : d.words = (List.range blockWords).map (wordAddr buffer)

instance (op : AtaOp) (block buffer : UInt32) (d : Drive) :
    Decidable (d.Exchanged op block buffer) :=
  decidable_of_iff (d.command = some ⟨op, block⟩
    ∧ d.words = (List.range blockWords).map (wordAddr buffer))
    ⟨fun h => ⟨h.1, h.2⟩, fun h => ⟨h.1, h.2⟩⟩

section Facts

variable {d : Drive} {op : AtaOp} {block buffer : UInt32} {k : ℕ}

/-! ### Settling -/

@[simp] lemma settle_command : d.settle.command = d.command := by
  rw [settle]
  split_ifs <;> rfl

@[simp] lemma settle_words : d.settle.words = d.words := by
  rw [settle]
  split_ifs <;> rfl

lemma settle_of_not_busy (h : ¬ d.Busy) : d.settle = d := if_neg h

lemma not_busy_settle : ¬ d.settle.Busy := by
  by_cases h : d.Busy
  · rw [settle, if_pos h]
    split_ifs
    · exact not_not.mpr (show (ataStatusDrdy ||| ataStatusDrq) &&& ataStatusBsy = 0 by decide)
    · exact not_not.mpr (show ataStatusDrdy &&& ataStatusBsy = 0 by decide)
  · rwa [settle_of_not_busy h]

@[simp] lemma settle_settle : d.settle.settle = d.settle := settle_of_not_busy not_busy_settle

lemma Quiet.settle (h : d.Quiet) : d.settle.Quiet := ⟨h.later, by rw [settle_settle]; exact h.later⟩

lemma Serves.settle (h : d.Serves op block) : d.settle.Serves op block := by
  refine ⟨fun hr => ?_, fun hr => ?_, fun _ => not_busy_settle⟩
  · rw [settle_settle, or_self] at hr
    rw [settle_command]
    exact h.command (Or.inr hr)
  · rw [settle_settle, or_self] at hr
    rw [settle_words]
    exact h.words (Or.inr hr)

lemma Exchanging.settle_eq (h : d.Exchanging op block buffer k) : d.settle = d :=
  settle_of_not_busy h.ready

lemma Exchanged.settle (h : d.Exchanged op block buffer) : d.settle.Exchanged op block buffer :=
  ⟨by rw [settle_command, h.command], by rw [settle_words, h.words]⟩

lemma Quiet.serves (h : d.Quiet) : d.Serves op block :=
  ⟨fun hr => absurd hr (not_or.mpr ⟨h.now, h.later⟩),
    fun hr => absurd hr (not_or.mpr ⟨h.now, h.later⟩), fun hr => absurd hr h.now⟩

/-! ### Registers

Settling looks at the status, the command and the words only. -/

variable {d' : Drive} (hstatus : d'.status = d.status) (hcommand : d'.command = d.command)
  (hwords : d'.words = d.words)

include hstatus in
lemma requests_congr : d'.Requests ↔ d.Requests := by
  rw [Requests, Requests, hstatus]

include hstatus hcommand hwords in
lemma settle_requests_congr : d'.settle.Requests ↔ d.settle.Requests := by
  have hbusy : d'.Busy ↔ d.Busy := by rw [Busy, Busy, hstatus]
  apply requests_congr
  by_cases hb : d.Busy
  · rw [settle, settle, if_pos (hbusy.mpr hb), if_pos hb, hwords, hcommand]
    split_ifs <;> rfl
  · rw [settle_of_not_busy hb, settle_of_not_busy (hbusy.not.mpr hb), hstatus]

include hstatus hcommand hwords in
lemma Quiet.congr (h : d.Quiet) : d'.Quiet :=
  ⟨(requests_congr hstatus).not.mpr h.now,
    (settle_requests_congr hstatus hcommand hwords).not.mpr h.later⟩

include hstatus hcommand hwords in
lemma Serves.congr (h : d.Serves op block) : d'.Serves op block := by
  have hiff : d'.Requests ∨ d'.settle.Requests ↔ d.Requests ∨ d.settle.Requests :=
    or_congr (requests_congr hstatus) (settle_requests_congr hstatus hcommand hwords)
  refine ⟨fun hr => ?_, fun hr => ?_, fun hr => ?_⟩
  · rw [hcommand]
    exact h.command (hiff.mp hr)
  · rw [hwords]
    exact h.words (hiff.mp hr)
  · rw [Busy, hstatus]
    exact h.ready ((requests_congr hstatus).mp hr)

/-! ### Commands -/

/-- A command that the drive takes is served; a drive that is busy takes none. -/
lemma Quiet.take (h : d.Quiet) : (d.take op).Serves op d.block := by
  by_cases hb : d.Busy
  · rw [Drive.take, if_pos hb]
    exact h.serves
  · rw [Drive.take, if_neg hb]
    refine ⟨fun _ => rfl, fun _ => rfl, fun hr => absurd ?_ hr⟩
    exact show ataStatusBsy &&& ataStatusDrq = 0 by decide

/-- A drive that settles after `ATA7_FLUSH_CACHE` requests nothing. -/
lemma Quiet.take_flush (h : d.Quiet) : (d.take .flushCache).settle.Quiet := by
  by_cases hb : d.Busy
  · rw [Drive.take, if_pos hb]
    exact h.settle
  · have heq : (d.take .flushCache).settle.status = ataStatusDrdy := by
      rw [Drive.take, if_neg hb, Drive.settle]
      split_ifs with hbusy hcmd
      · exact absurd hcmd.2 (by simp)
      · rfl
      · exact absurd (show ataStatusBsy &&& ataStatusBsy ≠ 0 by decide) hbusy
    have hnot : ¬ (d.take .flushCache).settle.Requests := by
      rw [Requests, heq]
      exact not_not.mpr (show ataStatusDrdy &&& ataStatusDrq = 0 by decide)
    exact ⟨hnot, by rw [settle_settle]; exact hnot⟩

/-! ### Data -/

/-- The data of a command that is served start with the first word. -/
lemma Serves.exchanging (h : d.Serves op block) (hr : d.Requests) :
    d.Exchanging op block buffer 0 :=
  ⟨h.command (Or.inl hr), h.words (Or.inl hr), hr, h.ready hr⟩

/-- One word of the data. -/
lemma Exchanging.word (h : d.Exchanging op block buffer k) (hk : k + 1 < blockWords) :
    (d.word op (wordAddr buffer k)).Exchanging op block buffer (k + 1) := by
  have hwords : d.words ++ [wordAddr buffer k] = (List.range (k + 1)).map (wordAddr buffer) := by
    rw [h.words, List.range_succ, List.map_append, List.map_singleton]
  have heq : d.word op (wordAddr buffer k)
      = { d with words := d.words ++ [wordAddr buffer k] } := by
    rw [Drive.word, if_pos ⟨h.requests, by simp [h.command]⟩]
    exact if_pos (by simpa [hwords] using hk)
  rw [heq]
  exact ⟨h.command, hwords, h.requests, h.ready⟩

/-- The last word of the data. The drive requests no more for this command. -/
lemma Exchanging.last (h : d.Exchanging op block buffer k) (hk : k + 1 = blockWords) :
    (d.word op (wordAddr buffer k)).Exchanged op block buffer
      ∧ (d.word op (wordAddr buffer k)).Quiet := by
  have hwords : d.words ++ [wordAddr buffer k] = (List.range blockWords).map (wordAddr buffer) := by
    rw [h.words, ← hk, List.range_succ, List.map_append, List.map_singleton]
  have heq : d.word op (wordAddr buffer k) = { d with
      words := d.words ++ [wordAddr buffer k]
      status := if op = .readSectors then ataStatusDrdy else ataStatusBsy } := by
    rw [Drive.word, if_pos ⟨h.requests, by simp [h.command]⟩]
    exact if_neg (by simp [hwords])
  have hnot : ∀ e : Drive, e.status = ataStatusDrdy ∨ e.status = ataStatusBsy → ¬ e.Requests := by
    rintro e (he | he)
    · rw [Requests, he]
      exact not_not.mpr (by decide)
    · rw [Requests, he]
      exact not_not.mpr (by decide)
  rw [heq]
  refine ⟨⟨h.command, hwords⟩, hnot _ ?_, hnot _ ?_⟩
  · dsimp only
    split_ifs
    · exact Or.inl rfl
    · exact Or.inr rfl
  · left
    have hne : d.words ++ [wordAddr buffer k] ≠ [] := by simp
    by_cases hop : op = .readSectors
    · rw [settle_of_not_busy] <;> simp only [Busy, hop, if_pos]
      decide
    · rw [Drive.settle, if_pos (by simp only [Busy, if_neg hop]; decide),
        if_neg fun h => hne h.1]

/-- **A command that is served is exchanged** by as many words as a block has, by induction on
their number. -/
lemma Serves.exchange (h : d.Serves op block) (hr : d.Requests) :
    ((List.range blockWords).foldl (fun d i => d.word op (wordAddr buffer i)) d).Exchanged op block
        buffer
      ∧ ((List.range blockWords).foldl (fun d i => d.word op (wordAddr buffer i)) d).Quiet := by
  have hpart : ∀ k < blockWords,
      ((List.range k).foldl (fun d i => d.word op (wordAddr buffer i)) d).Exchanging op block
        buffer k := by
    intro k
    induction k with
    | zero => exact fun _ => h.exchanging hr
    | succ k ih =>
        intro hk
        rw [List.range_succ, List.foldl_append]
        exact (ih (by omega)).word hk
  rw [show blockWords = 255 + 1 from rfl, List.range_succ, List.foldl_append]
  exact (hpart 255 (by decide)).last rfl

/-! ### What leaves a command alone -/

/-- What is known of a drive and a command is kept. -/
structure Keeps (d d' : Drive) : Prop where
  quiet : d.Quiet → d'.Quiet
  requests : d.Requests → ¬ d.Busy → d'.Requests ∧ ¬ d'.Busy
  serves : ∀ {op block}, d.Serves op block → d'.Serves op block
  exchanging : ∀ {op block buffer k}, d.Exchanging op block buffer k →
    d'.Exchanging op block buffer k
  exchanged : ∀ {op block buffer}, d.Exchanged op block buffer → d'.Exchanged op block buffer

lemma Keeps.trans {d'' : Drive} (h : d.Keeps d') (h' : d'.Keeps d'') : d.Keeps d'' where
  quiet hq := h'.quiet (h.quiet hq)
  requests hr hb := (h.requests hr hb).elim h'.requests
  serves hs := h'.serves (h.serves hs)
  exchanging he := h'.exchanging (h.exchanging he)
  exchanged he := h'.exchanged (h.exchanged he)

lemma keeps_settle : d.Keeps d.settle where
  quiet := Quiet.settle
  requests hr hb := by
    rw [settle_of_not_busy hb]
    exact ⟨hr, hb⟩
  serves := Serves.settle
  exchanging he := he.settle_eq.symm ▸ he
  exchanged := Exchanged.settle

/-- The registers for a block and `nIEN` do not matter. -/
lemma Keeps.of_eq {d' : Drive} (hstatus : d'.status = d.status) (hcommand : d'.command = d.command)
    (hwords : d'.words = d.words) : d.Keeps d' where
  quiet := Quiet.congr hstatus hcommand hwords
  requests hr hb := ⟨(requests_congr hstatus).mpr hr, by rwa [Busy, hstatus]⟩
  serves := Serves.congr hstatus hcommand hwords
  exchanging h := ⟨hcommand.trans h.command, hwords.trans h.words,
    (requests_congr hstatus).mpr h.requests, by rw [Busy, hstatus]; exact h.ready⟩
  exchanged h := ⟨hcommand.trans h.command, hwords.trans h.words⟩

lemma Keeps.refl (d : Drive) : d.Keeps d := .of_eq rfl rfl rfl

end Facts

/-! ### Block numbers -/

section BlockNumbers

open Fields

/-- The number that the registers for a block encode. -/
def address (d : Drive) : ℕ :=
  (d.regs .cylLow).toNat + 2 ^ 8 * (d.regs .cylMid).toNat + 2 ^ 16 * (d.regs .cylHigh).toNat
    + 2 ^ 24 * ((d.regs .driveSelect).toNat % 16)

/-- The drive goes to the block that the registers encode. -/
lemma block_toNat (d : Drive) : d.block.toNat = d.address := by
  have hlow := (d.regs .cylLow).toNat_lt
  have hmid := (d.regs .cylMid).toNat_lt
  have hhigh := (d.regs .cylHigh).toNat_lt
  have h8 : ((d.regs .cylMid).toUInt32 <<< 8).toNat = (d.regs .cylMid).toNat * 2 ^ 8 :=
    toNat_shiftLeft rfl (by decide) (by rw [UInt8.toNat_toUInt32]; omega)
  have h16 : ((d.regs .cylHigh).toUInt32 <<< 16).toNat = (d.regs .cylHigh).toNat * 2 ^ 16 :=
    toNat_shiftLeft rfl (by decide) (by rw [UInt8.toNat_toUInt32]; omega)
  have hmask : ((d.regs .driveSelect).toUInt32 &&& 0x0f).toNat
      = (d.regs .driveSelect).toNat % 2 ^ 4 := toNat_and_mask _ rfl
  have h24 : (((d.regs .driveSelect).toUInt32 &&& 0x0f) <<< 24).toNat
      = (d.regs .driveSelect).toNat % 2 ^ 4 * 2 ^ 24 := by
    rw [toNat_shiftLeft (n := 24) rfl (by decide) (by rw [hmask]; omega), hmask]
  have hsum : (d.regs .cylLow).toNat + (d.regs .cylMid).toNat * 2 ^ 8 < 2 ^ 16 := by omega
  rw [block, UInt32.toNat_or, UInt32.toNat_or, UInt32.toNat_or, h8, h16, h24,
    UInt8.toNat_toUInt32, or_eq_add hlow, or_eq_add hsum, or_eq_add (by omega), address]
  omega

/-- Write registers, one after the other. -/
def outs (l : List (AtaReg × UInt8)) (d : Drive) : Drive := l.foldl (fun d x => d.out x.1 x.2) d

@[simp] lemma outs_nil (d : Drive) : d.outs [] = d := rfl

@[simp] lemma outs_cons (x : AtaReg × UInt8) (l : List (AtaReg × UInt8)) (d : Drive) :
    d.outs (x :: l) = (d.out x.1 x.2).outs l := rfl

/-- The registers for a block are different ones. -/
lemma outs_regs (d : Drive) (lba : UInt32) :
    ∀ x ∈ ataOuts lba, (d.outs (ataOuts lba)).regs x.1 = x.2 := by
  simp [ataOuts, out]

/-- What the registers encode after the writes for a block: the bytes in the middle are always
zero. -/
lemma address_of_outs {d : Drive} {lba : UInt32} (h : ∀ x ∈ ataOuts lba, d.regs x.1 = x.2) :
    d.address = lba.toNat % 2 ^ 8 + 2 ^ 24 * (lba.toNat / 2 ^ 24 % 2 ^ 4) := by
  simp only [ataOuts, List.forall_mem_cons] at h
  obtain ⟨hselect, hlow, hmid, hhigh, -⟩ := h
  have hmask : (((lba >>> 24) &&& 0x0f).toUInt8).toNat = lba.toNat / 2 ^ 24 % 2 ^ 4 := by
    rw [UInt32.toNat_toUInt8, toNat_and_mask (k := 4) _ rfl,
      toNat_shiftRight (n := 24) _ rfl (by decide)]
    omega
  have hor : ((0x50 : UInt8) ||| ((lba >>> 24) &&& 0x0f).toUInt8).toNat
      = lba.toNat / 2 ^ 24 % 2 ^ 4 + 5 * 2 ^ 4 := by
    rw [UInt8.toNat_or, hmask, Nat.or_comm]
    exact or_eq_add (Nat.mod_lt _ (Nat.two_pow_pos 4)) 5
  rw [address, hselect, hlow, hmid, hhigh, hor, UInt32.toNat_toUInt8,
    toNat_byte_shiftRight (n := 8) rfl (by decide) (by decide),
    toNat_byte_shiftRight (n := 16) rfl (by decide) (by decide)]
  omega

end BlockNumbers

end Drive

end Sp2
