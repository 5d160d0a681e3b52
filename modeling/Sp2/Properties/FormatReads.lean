import Sp2.Properties.ConsoleTerminal
import Sp2.Properties.Numbers

/-!
The bytes of a format that are read.

* `BytesAt`, `StringAt`: the bytes in memory from an address on, and those up to a NUL.
* `Complete`: every conversion that the format starts has a type.
* `Scan.after`: so many bytes of the format later; `options_eq`: the options that bytes spell.
* `convert_total`: a conversion comes to its end, and reads no byte of the format.
* `run_complete`, `run_incomplete`: the bytes that the loop reads, by induction on the format.
* `format_read`: **the format is read up to its NUL exactly if it is complete**.
-/

namespace Sp2

open Numerals Address

/-! ### The statement -/

/-- The bytes in memory from an address on. -/
def BytesAt (mem : Memory) : UInt32 → List UInt8 → Prop
  | _, [] => True
  | a, b :: bs => mem a = b ∧ BytesAt mem (a + 1) bs

/-- The string at an address. -/
def StringAt (mem : Memory) (a : UInt32) (t : List UInt8) : Prop :=
  (∀ b ∈ t, b ≠ 0) ∧ BytesAt mem a (t ++ [0])

/-- The addresses of so many bytes. -/
def addresses (a : UInt32) (n : ℕ) : List UInt32 := (List.range n).map fun i => a + UInt32.ofNat i

/-- `ch >= '0' && ch <= '9'`. -/
def isDigit (ch : UInt8) : Bool := decide (ascii '0' ≤ ch ∧ ch ≤ ascii '9')

/-- A byte is left out if it comes first. -/
def skip (b : UInt8) : List UInt8 → List UInt8
  | [] => []
  | ch :: l => if ch = b then l else ch :: l

/-- What comes after the options of a conversion. -/
def afterOptions (l : List UInt8) : List UInt8 :=
  (skip (ascii '0') (skip (ascii '-') l)).dropWhile isDigit

/-- Every conversion that the format starts has a type. -/
inductive Complete : List UInt8 → Prop
  | nil : Complete []
  | plain {ch : UInt8} {l : List UInt8} (hch : ch ≠ ascii '%') (hl : Complete l) :
      Complete (ch :: l)
  | conversion {ch : UInt8} {l rest : List UInt8} (htype : afterOptions l = ch :: rest)
      (hrest : Complete rest) : Complete (ascii '%' :: l)

/-- The loop ends, and has read the bytes of the format up to its NUL. -/
def ReadsFormat (fmt : UInt32) (t : List UInt8) (r : Option Scan) : Prop :=
  ∃ p, r = some p ∧ p.reads = addresses fmt (t.length + 1)

/-! ### Bytes in memory -/

section Bytes

variable {mem : Memory} {a : UInt32} {b : UInt8} {l l' t : List UInt8} {m n fuel : ℕ}

lemma bytesAt_append : BytesAt mem a (l ++ l')
    ↔ BytesAt mem a l ∧ BytesAt mem (a + UInt32.ofNat l.length) l' := by
  induction l generalizing a with
  | nil => simp [BytesAt]
  | cons b l ih =>
      rw [List.cons_append, BytesAt, BytesAt, ih, and_assoc, List.length_cons, add_one_add_ofNat]

lemma BytesAt.getElem (h : BytesAt mem a l) {i : ℕ} (hi : i < l.length) :
    mem (a + UInt32.ofNat i) = l[i] := by
  induction l generalizing a i with
  | nil => exact absurd hi (Nat.not_lt_zero i)
  | cons b l ih =>
      cases i with
      | zero => simpa using h.1
      | succ i =>
          rw [← add_one_add_ofNat]
          exact ih h.2 (Nat.lt_of_succ_lt_succ hi)

/-- A string is shorter than memory: after as many bytes its NUL would be one of them. -/
lemma StringAt.length_lt (h : StringAt mem a t) : t.length < memorySize := by
  by_contra hge
  have hlast := h.2.getElem (i := t.length) (by simp)
  have hlt : t.length - memorySize < t.length := by
    rw [memorySize] at hge ⊢
    omega
  have hbyte := h.2.getElem (i := t.length - memorySize) (by simp)
  have hsame : UInt32.ofNat (t.length - memorySize) = UInt32.ofNat t.length := by
    rw [← UInt32.toNat_inj, UInt32.toNat_ofNat', UInt32.toNat_ofNat']
    rw [memorySize] at hge ⊢
    omega
  rw [hsame, hlast, List.getElem_append_left hlt] at hbyte
  simp only [List.getElem_append_right (Nat.le_refl t.length), Nat.sub_self,
    List.getElem_cons_zero] at hbyte
  exact h.1 _ (List.getElem_mem hlt) hbyte.symm

lemma addresses_add (a : UInt32) (m n : ℕ) :
    addresses a (m + n) = addresses a m ++ addresses (a + UInt32.ofNat m) n := by
  rw [addresses, addresses, addresses, List.range_add, List.map_append, List.map_map]
  congr 2
  funext i
  exact (add_ofNat_add a m i).symm

lemma length_addresses (a : UInt32) (n : ℕ) : (addresses a n).length = n := by
  rw [addresses, List.length_map, List.length_range]

lemma ne_zero_of_all (h : (t.all fun b => decide (b ≠ 0)) = true) : ∀ b ∈ t, b ≠ 0 := by
  simpa using h

/-- A string is read up to its NUL. -/
lemma stringAt_eq (h : StringAt mem a t) (hfuel : t.length < fuel) :
    stringAt mem fuel a = some t := by
  induction t generalizing a fuel with
  | nil =>
      obtain ⟨fuel, rfl⟩ := Nat.exists_eq_succ_of_ne_zero (Nat.ne_of_gt hfuel)
      rw [stringAt, if_pos h.2.1]
  | cons b t ih =>
      obtain ⟨fuel, rfl⟩ := Nat.exists_eq_succ_of_ne_zero (Nat.ne_of_gt (Nat.zero_lt_of_lt hfuel))
      have hb : mem a = b := h.2.1
      rw [stringAt, hb, if_neg (h.1 b List.mem_cons_self),
        ih ⟨fun x hx => h.1 x (List.mem_cons_of_mem b hx), h.2.2⟩ (Nat.lt_of_succ_lt_succ hfuel)]
      rfl

/-- Where memory has a NUL, every address is that of a string. -/
lemma exists_stringAt (h : mem (a + UInt32.ofNat n) = 0) :
    ∃ t, StringAt mem a t ∧ t.length ≤ n := by
  induction n generalizing a with
  | zero => exact ⟨[], ⟨by simp, by simpa [BytesAt] using h⟩, Nat.le_refl 0⟩
  | succ n ih =>
      by_cases hzero : mem a = 0
      · exact ⟨[], ⟨by simp, hzero, trivial⟩, Nat.zero_le _⟩
      · rw [← add_one_add_ofNat] at h
        obtain ⟨t, ht, hlen⟩ := ih h
        refine ⟨mem a :: t, ⟨fun b hb => ?_, rfl, ht.2⟩, Nat.succ_le_succ hlen⟩
        rcases List.mem_cons.mp hb with rfl | hb
        · exact hzero
        · exact ht.1 b hb

/-- Where memory has a NUL, reading a string ends. -/
lemma stringAt_total {z : UInt32} (hz : mem z = 0) (a : UInt32) :
    ∃ t, stringAt mem memorySize a = some t ∧ StringAt mem a t := by
  have hat : a + UInt32.ofNat (z - a).toNat = z := by
    rw [UInt32.ofNat_toNat, ← UInt32.toNat_inj]
    simp only [UInt32.toNat_add, UInt32.toNat_sub]
    have := a.toNat_lt
    have := z.toNat_lt
    omega
  have hnul : mem (a + UInt32.ofNat (z - a).toNat) = 0 := by rw [hat, hz]
  obtain ⟨t, ht, -⟩ := exists_stringAt hnul
  exact ⟨t, stringAt_eq ht ht.length_lt, ht⟩

end Bytes

/-! ### The options of a conversion -/

section Options

variable {mem : Memory} {args : ℕ → UInt32} {p p' : Scan} {o : Options} {ch : UInt8}
  {l ds rest t : List UInt8} {m n fuel : ℕ} {w w' : Int32} {ch' : UInt8}

/-- So many bytes of the format later. -/
def Scan.after (p : Scan) (n : ℕ) : Scan :=
  { p with fmt := p.fmt + UInt32.ofNat n, reads := p.reads ++ addresses p.fmt n }

lemma after_zero (p : Scan) : p.after 0 = p := by
  simp [Scan.after, addresses]

lemma after_after (p : Scan) (m n : ℕ) : (p.after m).after n = p.after (m + n) := by
  simp only [Scan.after, addresses_add, add_ofNat_add, List.append_assoc]

lemma fetch_snd (p : Scan) : (p.fetch mem).2 = p.after 1 := by
  simp [Scan.fetch, Scan.after, addresses]

/-- The number that digits spell, as the loop computes it. -/
def widthOf (ds : List UInt8) (w : Int32) : Int32 :=
  ds.foldl (fun w ch => w * 10 + (ch - ascii '0').toUInt32.toInt32) w

/-- The loop reads the digits and the byte after them, by induction on the digits. -/
lemma widthLoop_eq (hds : ∀ d ∈ ds, isDigit d = true) (hch : isDigit ch = false)
    (hfuel : ds.length < fuel) (hbytes : BytesAt mem p.fmt (ds ++ ch :: rest)) :
    Scan.widthLoop mem fuel (mem p.fmt) w (p.after 1)
      = some (ch, widthOf ds w, p.after (ds.length + 1)) := by
  induction ds generalizing p w fuel with
  | nil =>
      obtain ⟨fuel, rfl⟩ := Nat.exists_eq_succ_of_ne_zero (Nat.ne_of_gt hfuel)
      have hbyte : mem p.fmt = ch := hbytes.1
      rw [Scan.widthLoop, hbyte, if_neg (by simpa [isDigit] using hch)]
      rfl
  | cons d ds ih =>
      obtain ⟨fuel, rfl⟩ := Nat.exists_eq_succ_of_ne_zero (Nat.ne_of_gt (Nat.zero_lt_of_lt hfuel))
      have hbyte : mem p.fmt = d := hbytes.1
      have hnext : BytesAt mem (p.after 1).fmt (ds ++ ch :: rest) := hbytes.2
      rw [Scan.widthLoop, hbyte,
        if_pos (by simpa [isDigit] using hds d List.mem_cons_self), fetch_snd]
      have ih := ih (p := p.after 1) (w := w * 10 + (d - ascii '0').toUInt32.toInt32)
        (fun x hx => hds x (List.mem_cons_of_mem d hx)) (Nat.lt_of_succ_lt_succ hfuel) hnext
      refine ih.trans ?_
      rw [after_after, Nat.add_comm 1]
      rfl

/-- A flag is read if it comes next. -/
lemma flag_eq {b : UInt8} (hl : l ≠ []) (hbytes : BytesAt mem p.fmt l) :
    (mem p.fmt = b ↔ l.head? = some b)
      ∧ (if mem p.fmt = b then (p.after 1).fetch mem else (mem p.fmt, p.after 1))
        = (mem (p.after (l.length - (skip b l).length)).fmt,
          (p.after (l.length - (skip b l).length)).after 1)
      ∧ BytesAt mem (p.after (l.length - (skip b l).length)).fmt (skip b l) := by
  obtain ⟨ch, l, rfl⟩ := List.exists_cons_of_ne_nil hl
  have hbyte : mem p.fmt = ch := hbytes.1
  rw [hbyte, skip, List.head?_cons, Option.some.injEq]
  refine ⟨Iff.rfl, ?_⟩
  by_cases hb : ch = b
  · have hone : (ch :: l).length - l.length = 1 := by simp
    rw [if_pos hb, if_pos hb, hone]
    exact ⟨Prod.ext rfl (fetch_snd _), hbytes.2⟩
  · rw [if_neg hb, if_neg hb, Nat.sub_self, after_zero, hbyte]
    exact ⟨rfl, hbytes⟩

lemma length_skip_le (b : UInt8) (l : List UInt8) : (skip b l).length ≤ l.length := by
  cases l with
  | nil => exact Nat.le_refl _
  | cons ch l =>
      rw [skip]
      split_ifs
      · exact Nat.le_succ _
      · exact Nat.le_refl _

/-- The options that bytes spell, before a type. -/
def optionsOf (l : List UInt8) (ch : UInt8) : Options where
  leftadjust := decide (l.head? = some (ascii '-'))
  padchar := if (skip (ascii '-') l).head? = some (ascii '0') then 0x30 else 0x20
  width := widthOf ((skip (ascii '0') (skip (ascii '-') l)).takeWhile isDigit) 0
  ch := ch

/-- **The options** that the bytes after a `%` spell. -/
lemma options_eq (hbytes : BytesAt mem p.fmt l) (hafter : afterOptions l = ch :: rest)
    (hlen : l.length ≤ memorySize) :
    p.options mem = some (optionsOf l ch, p.after (l.length - rest.length)) := by
  set l₁ := skip (ascii '-') l with hl₁
  set l₂ := skip (ascii '0') l₁ with hl₂
  have hsplit : l₂ = l₂.takeWhile isDigit ++ ch :: rest := by
    rw [← hafter, afterOptions, ← hl₁, ← hl₂, List.takeWhile_append_dropWhile]
  have hne₂ : l₂ ≠ [] := by
    rw [hsplit]
    simp
  have hne₁ : l₁ ≠ [] := by
    rintro h
    rw [hl₂, h] at hne₂
    exact hne₂ rfl
  have hne : l ≠ [] := by
    rintro h
    rw [hl₁, h] at hne₁
    exact hne₁ rfl
  have hch : isDigit ch = false := by
    have h := List.head?_dropWhile_not isDigit l₂
    rw [afterOptions, ← hl₁, ← hl₂] at hafter
    rw [hafter] at h
    exact h
  obtain ⟨hleft, hstep₁, hbytes₁⟩ := flag_eq (b := ascii '-') hne hbytes
  rw [← hl₁] at hstep₁ hbytes₁
  set q := p.after (l.length - l₁.length) with hq
  obtain ⟨hzero, hstep₂, hbytes₂⟩ := flag_eq (b := ascii '0') hne₁ hbytes₁
  rw [← hl₂] at hstep₂ hbytes₂
  set u := q.after (l₁.length - l₂.length) with hu
  have hle₁ : l₁.length ≤ l.length := length_skip_le _ _
  have hle₂ : l₂.length ≤ l₁.length := length_skip_le _ _
  have hlength := congrArg List.length hsplit
  rw [List.length_append, List.length_cons] at hlength
  have hdigits : ∀ d ∈ l₂.takeWhile isDigit, isDigit d = true := fun d => List.mem_takeWhile_imp
  have hshort : (l₂.takeWhile isDigit).length < memorySize := by omega
  rw [hsplit] at hbytes₂
  have hwidth := widthLoop_eq (p := u) (w := 0) hdigits hch hshort hbytes₂
  have hfetch : p.fetch mem = (mem p.fmt, p.after 1) := Prod.ext rfl (fetch_snd p)
  have hend : u.after ((l₂.takeWhile isDigit).length + 1) = p.after (l.length - rest.length) := by
    rw [hu, hq, after_after, after_after]
    congr 1
    omega
  rw [Scan.options, hfetch]
  simp only [decide_eq_true_eq]
  rw [hstep₁]
  dsimp only
  rw [hstep₂]
  dsimp only
  rw [hwidth, hend]
  simp only [Option.map_some, hleft, hzero, optionsOf]
  rfl

/-! ### Conversions -/

/-- A conversion whose text is in the local array. -/
lemma padbuf_eq {r : Int32 × Memory} (h : StringAt r.2 0 t) :
    p.padbuf o r = some ({ p with buf := r.2, ap := p.ap + 1 }.padstr o t r.1) := by
  rw [Scan.padbuf, stringAt_eq h h.length_lt]
  rfl

/-- **A conversion comes to its end**, where memory has a NUL. -/
lemma convert_total {z : UInt32} (hz : mem z = 0) (args : ℕ → UInt32) (o : Options) (p : Scan) :
    ∃ p', p.convert mem args o = some p' := by
  have hbuf : ∀ (r : Int32 × Memory) (a : UInt32), r.2 a = 0 → ∃ p', p.padbuf o r = some p' := by
    intro r a ha
    obtain ⟨t, -, ht⟩ := stringAt_total ha 0
    exact ⟨_, padbuf_eq ht⟩
  rw [Scan.convert]
  split_ifs
  · exact hbuf _ 1 (by simp)
  · exact hbuf _ _ (Function.update_self ..)
  · obtain ⟨t, ht, -⟩ := stringAt_total hz (args p.ap)
    rw [ht]
    exact ⟨_, rfl⟩
  · exact hbuf _ _ (Function.update_self ..)
  · exact hbuf _ _ (Function.update_self ..)
  · exact ⟨p, rfl⟩

/-- A conversion reads no byte of the format after its type. -/
lemma convert_reads (h : p.convert mem args o = some p') :
    p'.fmt = p.fmt ∧ p'.reads = p.reads := by
  have hbuf : ∀ r : Int32 × Memory, p.padbuf o r = some p' →
      p'.fmt = p.fmt ∧ p'.reads = p.reads := by
    intro r hr
    obtain ⟨t, -, rfl⟩ := Option.map_eq_some_iff.mp hr
    exact ⟨rfl, rfl⟩
  rw [Scan.convert] at h
  split_ifs at h
  · exact hbuf _ h
  · exact hbuf _ h
  · obtain ⟨t, -, rfl⟩ := Option.map_eq_some_iff.mp h
    exact ⟨rfl, rfl⟩
  · exact hbuf _ h
  · exact hbuf _ h
  · obtain rfl := Option.some.inj h
    exact ⟨rfl, rfl⟩

/-- The NUL is no type: nothing is printed. -/
lemma convert_nul (ho : o.ch = 0) : p.convert mem args o = some p := by
  rw [Scan.convert, ho]
  rfl

lemma plain_reads (ch : UInt8) (p : Scan) :
    (p.plain ch).fmt = p.fmt ∧ (p.plain ch).reads = p.reads := by
  rw [Scan.plain]
  dsimp only
  split_ifs <;> exact ⟨rfl, rfl⟩

/-! ### The bytes that are read -/

lemma widthLoop_reads (h : Scan.widthLoop mem fuel ch w p = some (ch', w', p')) :
    p.reads.length ≤ p'.reads.length := by
  induction fuel generalizing ch w p with
  | zero => exact absurd h (by simp [Scan.widthLoop])
  | succ fuel ih =>
      rw [Scan.widthLoop] at h
      split_ifs at h
      · have hle := ih h
        rw [fetch_snd] at hle
        exact Nat.le_trans (by simp [Scan.after]) hle
      · simp only [Option.some.injEq, Prod.mk.injEq] at h
        rw [h.2.2]

/-- The options of a conversion are not read backwards. -/
lemma options_reads (h : p.options mem = some (o, p')) : p.reads.length ≤ p'.reads.length := by
  rw [Scan.options] at h
  obtain ⟨⟨ch', w', q⟩, hw, heq⟩ := Option.map_eq_some_iff.mp h
  obtain rfl : q = p' := congrArg Prod.snd heq
  refine Nat.le_trans ?_ (widthLoop_reads hw)
  split_ifs <;> simp [Scan.fetch]

/-- The loop reads at least one byte more. -/
lemma run_reads {r : Scan} (h : Scan.run mem args fuel p = some r) :
    p.reads.length + 1 ≤ r.reads.length := by
  induction fuel generalizing p with
  | zero => exact absurd h (by simp [Scan.run])
  | succ fuel ih =>
      have hone : (p.after 1).reads.length = p.reads.length + 1 := by simp [Scan.after, addresses]
      rw [Scan.run] at h
      simp only [fetch_snd] at h
      split_ifs at h
      · obtain rfl := Option.some.inj h
        exact hone.ge
      · obtain ⟨q, hq, hrun⟩ := Option.bind_eq_some_iff.mp h
        obtain ⟨⟨o, u⟩, ho, hconvert⟩ := Option.bind_eq_some_iff.mp hq
        have hoptions := options_reads ho
        have hsame := (convert_reads hconvert).2
        have hrest := ih hrun
        dsimp only at hsame
        rw [hsame] at hrest
        omega
      · have hrest := ih h
        rw [(plain_reads _ _).2] at hrest
        omega

end Options

/-! ### The loop -/

section Run

variable {mem : Memory} {args : ℕ → UInt32} {p r : Scan} {ch : UInt8} {l rest t : List UInt8}
  {a : UInt32} {fuel : ℕ}

lemma BytesAt.suffix (h : BytesAt mem a l) (hrest : rest <:+ l) :
    BytesAt mem (a + UInt32.ofNat (l.length - rest.length)) rest := by
  obtain ⟨front, rfl⟩ := hrest
  have hlen : (front ++ rest).length - rest.length = front.length := by simp
  rw [hlen]
  exact (bytesAt_append.mp h).2

lemma skip_suffix (b : UInt8) (l : List UInt8) : skip b l <:+ l := by
  cases l with
  | nil => exact List.suffix_refl _
  | cons ch l =>
      rw [skip]
      split_ifs
      · exact List.suffix_cons ch l
      · exact List.suffix_refl _

lemma afterOptions_suffix (l : List UInt8) : afterOptions l <:+ l :=
  (List.dropWhile_suffix _).trans ((skip_suffix _ _).trans (skip_suffix _ _))

/-- The NUL is not one of the options. -/
lemma afterOptions_nul (l : List UInt8) : afterOptions (l ++ [0]) = afterOptions l ++ [0] := by
  have hskip : ∀ (b : UInt8) (l : List UInt8), b ≠ 0 → skip b (l ++ [0]) = skip b l ++ [0] := by
    intro b l hb
    cases l with
    | nil => exact if_neg hb.symm
    | cons ch l =>
        rw [List.cons_append, skip, skip]
        split_ifs <;> rfl
  rw [afterOptions, hskip _ _ (by decide), hskip _ _ (by decide), List.dropWhile_append,
    afterOptions]
  split_ifs with hempty
  · rw [List.isEmpty_iff.mp hempty]
    decide
  · rfl

/-- A step of the loop at a character that is no conversion. -/
lemma run_plain (hbyte : mem p.fmt = ch) (hne : ch ≠ 0) (hch : ch ≠ ascii '%') :
    Scan.run mem args (fuel + 1) p = Scan.run mem args fuel ((p.after 1).plain ch) := by
  have hfetch : p.fetch mem = (ch, p.after 1) := Prod.ext hbyte (fetch_snd p)
  rw [Scan.run, hfetch]
  dsimp only
  rw [if_neg hne, if_neg hch]

/-- The NUL of a format is a byte more. -/
lemma length_nul_le (hlen : l.length < memorySize) : (l ++ [0]).length ≤ memorySize := by
  rw [List.length_append, List.length_singleton]
  exact hlen

/-- A step of the loop at a conversion: its bytes are read, its text is printed, and the bytes after
its type are still to come. -/
lemma run_conversion (args : ℕ → UInt32) (fuel : ℕ) (hbytes : BytesAt mem p.fmt (ascii '%' :: l))
    (hafter : afterOptions l = ch :: rest) (hlen : l.length ≤ memorySize) :
    Scan.run mem args (fuel + 1) p
        = ((p.after (l.length - rest.length + 1)).convert mem args (optionsOf l ch)).bind
            (Scan.run mem args fuel)
      ∧ BytesAt mem (p.after (l.length - rest.length + 1)).fmt rest ∧ rest.length < l.length := by
  have hsuffix : ch :: rest <:+ l := hafter ▸ afterOptions_suffix l
  have hbytes' : BytesAt mem (p.after 1).fmt l := hbytes.2
  have hfetch : p.fetch mem = (ascii '%', p.after 1) := Prod.ext hbytes.1 (fetch_snd p)
  have hread : (p.after 1).after (l.length - rest.length)
      = p.after (l.length - rest.length + 1) := by
    rw [after_after, Nat.add_comm]
  refine ⟨?_, ?_, hsuffix.length_le⟩
  · rw [Scan.run, hfetch]
    dsimp only
    rw [if_neg (by decide), if_pos rfl, options_eq hbytes' hafter hlen, hread, Option.bind_some]
  · rw [← hread]
    exact hbytes'.suffix ((List.suffix_cons ch rest).trans hsuffix)

/-- So at a conversion in front of a NUL. -/
lemma run_conversion_nul (args : ℕ → UInt32) (fuel : ℕ)
    (hbytes : BytesAt mem p.fmt (ascii '%' :: (l ++ [0])))
    (hafter : afterOptions l = ch :: rest) (hlen : l.length < memorySize) :
    Scan.run mem args (fuel + 1) p
        = ((p.after (l.length - rest.length + 1)).convert mem args (optionsOf (l ++ [0]) ch)).bind
            (Scan.run mem args fuel)
      ∧ BytesAt mem (p.after (l.length - rest.length + 1)).fmt (rest ++ [0])
      ∧ rest.length < l.length ∧ rest ⊆ l := by
  have hafter' : afterOptions (l ++ [0]) = ch :: (rest ++ [0]) := by
    rw [afterOptions_nul, hafter, List.cons_append]
  have hsuffix : ch :: rest <:+ l := hafter ▸ afterOptions_suffix l
  have hcount : (l ++ [0]).length - (rest ++ [0]).length = l.length - rest.length := by
    rw [List.length_append, List.length_append, Nat.add_sub_add_right]
  obtain ⟨hrun, hnext, -⟩ := run_conversion args fuel hbytes hafter' (length_nul_le hlen)
  rw [hcount] at hrun hnext
  exact ⟨hrun, hnext, hsuffix.length_le, fun b hb => hsuffix.subset (List.mem_cons_of_mem ch hb)⟩

/-- **A complete format is read up to its NUL**, by induction on its conversions. -/
lemma run_complete (args : ℕ → UInt32) (ht : Complete t) (hnul : ∀ b ∈ t, b ≠ 0)
    (hbytes : BytesAt mem p.fmt (t ++ [0])) (hlen : t.length < memorySize)
    (hfuel : t.length < fuel) : ∃ r, Scan.run mem args fuel p = some r
      ∧ r.reads = p.reads ++ addresses p.fmt (t.length + 1) := by
  induction ht generalizing p fuel with
  | nil =>
      obtain ⟨fuel, rfl⟩ := Nat.exists_eq_succ_of_ne_zero (Nat.ne_of_gt hfuel)
      refine ⟨p.after 1, ?_, rfl⟩
      rw [Scan.run, Scan.fetch, if_pos hbytes.1]
      exact congrArg some (fetch_snd p)
  | @plain ch l hch hl ih =>
      obtain ⟨fuel, rfl⟩ := Nat.exists_eq_succ_of_ne_zero (Nat.ne_of_gt (Nat.zero_lt_of_lt hfuel))
      rw [List.length_cons] at hlen hfuel
      obtain ⟨hfmt, hreads⟩ := plain_reads ch (p.after 1)
      have hnext : BytesAt mem ((p.after 1).plain ch).fmt (l ++ [0]) := by
        rw [hfmt]
        exact hbytes.2
      have hfuel' : l.length < fuel := by omega
      obtain ⟨r, hrun, hr⟩ := ih (fun b hb => hnul b (List.mem_cons_of_mem ch hb)) hnext (by omega)
        hfuel'
      have haddresses := addresses_add p.fmt 1 (l.length + 1)
      refine ⟨r, (run_plain hbytes.1 (hnul ch List.mem_cons_self) hch).trans hrun, ?_⟩
      rw [hr, hfmt, hreads, List.length_cons, Nat.add_comm (l.length + 1) 1, haddresses]
      exact List.append_assoc ..
  | @conversion ch l rest htype hrest ih =>
      obtain ⟨fuel, rfl⟩ := Nat.exists_eq_succ_of_ne_zero (Nat.ne_of_gt (Nat.zero_lt_of_lt hfuel))
      rw [List.length_cons] at hlen hfuel
      obtain ⟨hstep, hnext, hshort, hsubset⟩ :=
        run_conversion_nul args fuel hbytes htype (by omega)
      have hz : mem (p.fmt + UInt32.ofNat (l.length + 1)) = 0 := by
        rw [hbytes.getElem (i := l.length + 1) (by simp)]
        simp
      obtain ⟨u, hu⟩ := convert_total hz args (optionsOf (l ++ [0]) ch)
        (p.after (l.length - rest.length + 1))
      obtain ⟨hfmt, hreads⟩ := convert_reads hu
      rw [← hfmt] at hnext
      have hfuel' : rest.length < fuel := by omega
      obtain ⟨r, hrun, hr⟩ := ih (fun b hb => hnul b (List.mem_cons_of_mem _ (hsubset hb))) hnext
        (by omega) hfuel'
      refine ⟨r, by rw [hstep, hu, Option.bind_some, hrun], ?_⟩
      have hcovered : l.length - rest.length + 1 + (rest.length + 1) = l.length + 1 + 1 := by
        omega
      rw [hr, hfmt, hreads, Scan.after, List.append_assoc, ← addresses_add, hcovered,
        List.length_cons]

/-- **A format that is not complete is read beyond its NUL**, by induction on its length: the type
of its last conversion is the NUL, and the loop goes on behind it. -/
lemma run_incomplete (ht : ¬ Complete t) (hnul : ∀ b ∈ t, b ≠ 0)
    (hbytes : BytesAt mem p.fmt (t ++ [0])) (hlen : t.length < memorySize)
    (hrun : Scan.run mem args fuel p = some r) :
    p.reads.length + t.length + 2 ≤ r.reads.length := by
  induction hn : t.length using Nat.strong_induction_on generalizing t p fuel with
  | _ n ih =>
      subst hn
      obtain ⟨fuel, rfl⟩ : ∃ f, fuel = f + 1 :=
        Nat.exists_eq_succ_of_ne_zero (by rintro rfl; simp [Scan.run] at hrun)
      cases t with
      | nil => exact absurd Complete.nil ht
      | cons ch l =>
          rw [List.length_cons] at hlen ih ⊢
          by_cases hch : ch = ascii '%'
          · subst hch
            have hbytes' : BytesAt mem p.fmt (ascii '%' :: (l ++ [0])) := hbytes
            cases htype : afterOptions l with
            | nil =>
                have hafter : afterOptions (l ++ [0]) = 0 :: [] := by
                  rw [afterOptions_nul, htype, List.nil_append]
                obtain ⟨hstep, -, -⟩ :=
                  run_conversion args fuel hbytes' hafter (length_nul_le (by omega))
                rw [hstep, convert_nul rfl, Option.bind_some] at hrun
                have hreads := run_reads hrun
                rw [Scan.after, List.length_append, length_addresses, List.length_append,
                  List.length_singleton, List.length_nil] at hreads
                omega
            | cons type rest =>
                obtain ⟨hstep, hnext, hshort, hsubset⟩ :=
                  run_conversion_nul args fuel hbytes' htype (by omega)
                rw [hstep] at hrun
                obtain ⟨u, hu, hgoes⟩ := Option.bind_eq_some_iff.mp hrun
                obtain ⟨hfmt, hreads⟩ := convert_reads hu
                rw [← hfmt] at hnext
                have hincomplete : ¬ Complete rest := fun hrest =>
                  ht (Complete.conversion htype hrest)
                have hih := ih rest.length (by omega) hincomplete
                  (fun b hb => hnul b (List.mem_cons_of_mem _ (hsubset hb))) hnext (by omega)
                  hgoes rfl
                rw [hreads, Scan.after, List.length_append, length_addresses] at hih
                omega
          · rw [run_plain hbytes.1 (hnul ch List.mem_cons_self) hch] at hrun
            obtain ⟨hfmt, hreads⟩ := plain_reads ch (p.after 1)
            have hnext : BytesAt mem ((p.after 1).plain ch).fmt (l ++ [0]) := by
              rw [hfmt]
              exact hbytes.2
            have hincomplete : ¬ Complete l := fun hl => ht (Complete.plain hch hl)
            have hih := ih l.length (by omega) hincomplete
              (fun b hb => hnul b (List.mem_cons_of_mem ch hb)) hnext (by omega) hrun rfl
            rw [hreads, Scan.after, List.length_append, length_addresses] at hih
            omega

end Run

/-! ### Formats -/

section Formats

variable {mem : Memory} {fmt : UInt32} {t : List UInt8}

/-- At every place, and at the cursor. -/
lemma doPrintf_reads (h : StringAt mem fmt t) (args : ℕ → UInt32) (x y : Int32) (buf : Memory)
    (s : Console) : ReadsFormat fmt t (doPrintf mem args x y fmt buf s) ↔ Complete t := by
  rw [doPrintf]
  constructor
  · rintro ⟨p, hp, hreads⟩
    by_contra ht
    have hmore := run_incomplete ht h.1 h.2 h.length_lt hp
    rw [hreads, length_addresses, List.length_nil] at hmore
    omega
  · intro ht
    obtain ⟨r, hr, hreads⟩ := run_complete args
      (p := ⟨⟨s, []⟩, fmt, 0, x, y, buf, []⟩) ht h.1 h.2 h.length_lt h.length_lt
    exact ⟨r, hr, by rw [hreads, List.nil_append]⟩

/-- **The format is read up to its NUL**, and no byte behind it, exactly if it is complete: by
`c_printf` and, at every place, by `c_printf_at`. -/
theorem format_read (h : StringAt mem fmt t) (args : ℕ → UInt32) (buf : Memory) (s : Console) :
    (ReadsFormat fmt t (printf mem args fmt buf s) ↔ Complete t)
      ∧ ∀ x y, ReadsFormat fmt t (printfAt mem args x y fmt buf s) ↔ Complete t :=
  ⟨doPrintf_reads h args (-1) (-1) buf s,
    fun x y => doPrintf_reads h args x.toInt32 y.toInt32 buf s⟩

end Formats

/-- The format `"q%d"`. -/
def decimalMemory : Memory := fun a =>
  if a = 0 then ascii 'q' else if a = 1 then ascii '%' else if a = 2 then ascii 'd' else 0

/-- It is complete, and read to its end. -/
theorem format_read_percent :
    ReadsFormat 0 [ascii 'q', ascii '%', ascii 'd']
        (printf decimalMemory (fun _ => 7) 0 (fun _ => 0) blankConsole)
      ∧ ∀ x y, ReadsFormat 0 [ascii 'q', ascii '%', ascii 'd']
          (printfAt decimalMemory (fun _ => 7) x y 0 (fun _ => 0) blankConsole) := by
  have hstring : StringAt decimalMemory 0 [ascii 'q', ascii '%', ascii 'd'] :=
    ⟨ne_zero_of_all rfl, rfl, rfl, rfl, rfl, trivial⟩
  have hcomplete : Complete [ascii 'q', ascii '%', ascii 'd'] :=
    .plain (by decide) (.conversion (l := [ascii 'd']) rfl .nil)
  obtain ⟨hprintf, hprintfAt⟩ := format_read hstring (fun _ => 7) (fun _ => 0) blankConsole
  exact ⟨hprintf.mpr hcomplete, fun x y => (hprintfAt x y).mpr hcomplete⟩

/-- The format `"%"`, and another string behind it. -/
def percentMemory : Memory := fun a => if a = 0 then ascii '%' else if a = 2 then ascii 'q' else 0

lemma stringAt_percent : StringAt percentMemory 0 [ascii '%'] :=
  ⟨ne_zero_of_all rfl, rfl, rfl, trivial⟩

/-- After a `%` at its end the format is read on. -/
theorem format_read_on : ¬ ∀ mem fmt t args buf s, StringAt mem fmt t →
    ReadsFormat fmt t (printf mem args fmt buf s) := by
  intro h
  have hreads := h percentMemory 0 _ (fun _ => 0) (fun _ => 0) blankConsole stringAt_percent
  have hcomplete := (doPrintf_reads stringAt_percent _ _ _ _ _).mp hreads
  cases hcomplete with
  | plain hch _ => exact hch rfl
  | conversion htype _ => exact absurd htype (List.cons_ne_nil _ _).symm

end Sp2
