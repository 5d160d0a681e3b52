import Sp2.Loader.BuildImage
import Mathlib.Data.Int.Order.Basic
import Mathlib.Data.List.TakeWhile
import Mathlib.Order.MinMax

/-!
Load addresses on the command line of `BuildImage.c`.

* `Numeral`, `Number`, `Pair`: the spellings of an address that the usage message describes, and
  the address that each of them denotes.
* `strtol_number`: `strtol` reads a number, and brings it into the range of a `long`.
* `decodeAddress_colon`: **no pair is ever accepted**. The first call of `strtol` stops at the
  colon, where `process_file` expects the end of the text.
* `number_of_accepted`: every text that is accepted is a number, or empty.
* `load_address_decoded`: when an accepted address is stored as it was denoted, and when two
  spellings of one address are treated alike.
-/

namespace Sp2.Loader

/-! ### Spellings -/

/-- Digits of a base. -/
def IsDigits (base : ℕ) (ds : List Char) : Prop := ∀ c ∈ ds, isDigit base c = true

instance (base : ℕ) (ds : List Char) : Decidable (IsDigits base ds) :=
  List.decidableBAll (isDigit base · = true) ds

/-- The number that digits stand for. -/
def digitsValue (base : ℕ) (ds : List Char) : ℕ :=
  ds.foldl (fun n c => n * base + (digitValue c).getD 0) 0

/-- A number without a sign: hexadecimal, octal or decimal. -/
inductive Numeral : List Char → ℕ → Prop
  | hex (x : Char) (ds : List Char) (hx : x = 'x' ∨ x = 'X') (hne : ds ≠ [])
      (hds : IsDigits 16 ds) : Numeral ('0' :: x :: ds) (digitsValue 16 ds)
  | oct (ds : List Char) (hds : IsDigits 8 ds) : Numeral ('0' :: ds) (digitsValue 8 ds)
  | dec (c : Char) (ds : List Char) (hc : c ≠ '0') (hds : IsDigits 10 (c :: ds)) :
      Numeral (c :: ds) (digitsValue 10 (c :: ds))

/-- An address spelled as a number, with white space and a sign in front of it. -/
inductive Number : List Char → ℤ → Prop
  | unsigned (spaces : List Char) {s : List Char} {n : ℕ} (hspaces : ∀ c ∈ spaces, isSpace c = true)
      (h : Numeral s n) : Number (spaces ++ s) n
  | plus (spaces : List Char) {s : List Char} {n : ℕ} (hspaces : ∀ c ∈ spaces, isSpace c = true)
      (h : Numeral s n) : Number (spaces ++ '+' :: s) n
  | minus (spaces : List Char) {s : List Char} {n : ℕ} (hspaces : ∀ c ∈ spaces, isSpace c = true)
      (h : Numeral s n) : Number (spaces ++ '-' :: s) (-n)

/-- An address spelled as a segment and an offset, of four hexadecimal digits each. -/
inductive Pair : List Char → ℤ → Prop
  | mk (segment offset : List Char) (hsegment : IsDigits 16 segment) (hs : segment.length = 4)
      (hoffset : IsDigits 16 offset) (ho : offset.length = 4) :
      Pair (segment ++ ':' :: offset) (16 * digitsValue 16 segment + digitsValue 16 offset)

/-! ### What is to hold -/

/-- A program whose address is accepted is stored with the segment and the offset of this address,
and ends below `0xA0000`. -/
def Located (b : Build) (file : List UInt8) (addr : List Char) (a : ℤ) : Prop :=
  ∀ b', processFile b ⟨file, addr⟩ = some b' → ∃ segment offset count : UInt16,
    b'.info = offset :: segment :: count :: b.info ∧ 16 * segment.toNat + offset.toNat = a
      ∧ 0 ≤ a ∧ a + 512 * numSectors file ≤ 0xa0000

/-- A number and a pair that denote the same address are both accepted or both refused. -/
def Alike (b : Build) (file : List UInt8) (a : ℤ) : Prop :=
  ∀ number pair, Number number a → Pair pair a →
    ((processFile b ⟨file, number⟩).isSome ↔ (processFile b ⟨file, pair⟩).isSome)

/-- What `strtol` makes of a number. -/
def longOf (a : ℤ) : Int32 := Int32.ofInt (max (-2 ^ 31) (min (2 ^ 31 - 1) a))

/-- A number is refused: it is too large, the program does not fit behind it, or the table is
full. -/
def Refused (b : Build) (file : List UInt8) (a : ℤ) : Prop :=
  0x9ffff < longOf a ∨ 0x9ffff < longOf a + Int32.ofNat (numSectors file) * 512
    ∨ numInfo - b.info.length < 3

instance (b : Build) (file : List UInt8) (a : ℤ) : Decidable (Refused b file a) :=
  inferInstanceAs (Decidable (_ ∨ _ ∨ _))

/-! ### `strtol` -/

section Strtol

variable {base n : ℕ} {s ds : List Char} {a : ℤ} {c : Char}

/-- All of some digits are read. -/
lemma digits_eq : ∀ (ds : List Char) (n : ℕ), IsDigits base ds →
    digits base n ds = (ds.foldl (fun n c => n * base + (digitValue c).getD 0) n, [])
  | [], _, _ => rfl
  | c :: ds, n, h => by
      rw [digits, if_pos (h c List.mem_cons_self), List.foldl_cons]
      exact digits_eq ds _ fun x hx => h x (List.mem_cons_of_mem c hx)

/-- The base of a number, and its digits. -/
lemma stripPrefix_numeral (h : Numeral s n) : ∃ base ds, stripPrefix 0 s = (base, ds)
    ∧ IsDigits base ds ∧ ds ≠ [] ∧ digitsValue base ds = n := by
  cases h with
  | hex x ds hx hne hds =>
      obtain ⟨c, t, rfl⟩ := List.exists_cons_of_ne_nil hne
      refine ⟨16, c :: t, ?_, hds, hne, rfl⟩
      simp [stripPrefix, hx, hds c List.mem_cons_self]
  | oct ds hds =>
      refine ⟨8, '0' :: ds, ?_, ?_, List.cons_ne_nil _ _, rfl⟩
      · cases ds with
        | nil => rfl
        | cons x t =>
            have hx : ¬ (x = 'x' ∨ x = 'X') := by
              rintro (rfl | rfl)
              · exact absurd (hds 'x' List.mem_cons_self) (by decide)
              · exact absurd (hds 'X' List.mem_cons_self) (by decide)
            cases t with
            | nil => rfl
            | cons c t => simp [stripPrefix, hx]
      · intro c hc
        rcases List.mem_cons.mp hc with rfl | hc
        · decide
        · exact hds c hc
  | dec c ds hc hds =>
      refine ⟨10, c :: ds, ?_, hds, List.cons_ne_nil _ _, rfl⟩
      simp [stripPrefix, hc]

/-- A number starts with a digit, so neither with a space nor with a sign. -/
lemma Numeral.head (h : Numeral s n) : ∃ c t, s = c :: t ∧ isDigit 10 c = true := by
  cases h with
  | hex x ds hx hne hds => exact ⟨'0', _, rfl, by decide⟩
  | oct ds hds => exact ⟨'0', _, rfl, by decide⟩
  | dec c ds hc hds => exact ⟨_, _, rfl, hds _ List.mem_cons_self⟩

/-- A space stands for no digit. -/
lemma digitValue_space (h : isSpace c = true) : digitValue c = none := by
  have hlt : c.toNat < '0'.toNat := by
    simp only [isSpace, Bool.decide_or, Bool.decide_and, Bool.or_eq_true, Bool.and_eq_true,
      decide_eq_true_eq] at h
    rcases h with rfl | ⟨-, h⟩
    · decide
    · exact Nat.lt_of_le_of_lt h (by decide)
  have hnot : ∀ d : Char, '0'.toNat ≤ d.toNat → ¬ d ≤ c := fun d hd hle =>
    absurd (show d.toNat ≤ c.toNat from hle) (by omega)
  rw [digitValue, if_neg fun h => hnot '0' (by decide) h.1,
    if_neg fun h => hnot 'a' (by decide) h.1, if_neg fun h => hnot 'A' (by decide) h.1]

/-- A digit is neither a space nor a sign. -/
lemma not_space_of_digit (h : isDigit 10 c = true) : isSpace c = false ∧ c ≠ '-' ∧ c ≠ '+' := by
  refine ⟨?_, ?_, ?_⟩
  · by_contra hspace
    rw [isDigit, digitValue_space (by simpa using hspace)] at h
    exact absurd h (by decide)
  all_goals
    rintro rfl
    exact absurd h (by decide)

/-- Spaces are passed. -/
lemma dropWhile_spaces {spaces t : List Char} (hspaces : ∀ c ∈ spaces, isSpace c = true)
    (hc : isSpace c = false) : (spaces ++ c :: t).dropWhile isSpace = c :: t := by
  rw [List.dropWhile_append_of_pos hspaces, List.dropWhile_cons_of_neg (by simp [hc])]

/-- **`strtol` reads a number**. -/
lemma strtol_number (h : Number s a) : strtol s 0 = (longOf a, []) := by
  have hread : ∀ {s n}, Numeral s n → ∃ base ds, stripPrefix 0 s = (base, ds)
      ∧ (ds.head?.any (isDigit base)) = true ∧ digits base 0 ds = (n, []) := by
    intro s n h
    obtain ⟨base, ds, hstrip, hds, hne, rfl⟩ := stripPrefix_numeral h
    obtain ⟨c, t, rfl⟩ := List.exists_cons_of_ne_nil hne
    exact ⟨base, c :: t, hstrip, hds c List.mem_cons_self, digits_eq _ 0 hds⟩
  cases h with
  | @unsigned spaces s n hspaces h =>
      obtain ⟨base, ds, hstrip, hhead, hdigits⟩ := hread h
      obtain ⟨c, t, rfl, hc⟩ := h.head
      obtain ⟨hspace, hminus, hplus⟩ := not_space_of_digit hc
      simp only [strtol, dropWhile_spaces hspaces hspace]
      simp [hminus, hplus, hstrip, hhead, hdigits, longOf]
  | @plus spaces s n hspaces h =>
      obtain ⟨base, ds, hstrip, hhead, hdigits⟩ := hread h
      simp only [strtol, dropWhile_spaces hspaces (show isSpace '+' = false by decide)]
      simp [hstrip, hhead, hdigits, longOf]
  | @minus spaces s n hspaces h =>
      obtain ⟨base, ds, hstrip, hhead, hdigits⟩ := hread h
      simp only [strtol, dropWhile_spaces hspaces (show isSpace '-' = false by decide)]
      simp [hstrip, hhead, hdigits, longOf]

/-- A prefix contains no colon. -/
lemma colon_mem_stripPrefix (h : ':' ∈ s) : ':' ∈ (stripPrefix base s).2 := by
  unfold stripPrefix
  split
  · rename_i x c t
    split
    · rename_i hx
      have hne : ':' ≠ '0' ∧ ':' ≠ x := ⟨by decide, by rcases hx.2.1 with rfl | rfl <;> decide⟩
      simpa [hne] using h
    · exact h
  · exact h
  · exact h

/-- `strtol` stops in front of a colon, whatever comes before it. -/
lemma colon_mem_strtol (base : ℕ) (h : ':' ∈ s) : ':' ∈ (strtol s base).2 := by
  have hdigits : ∀ {base : ℕ} (s : List Char) (n : ℕ), ':' ∈ s → ':' ∈ (digits base n s).2 := by
    intro base s
    induction s with
    | nil => exact fun _ h => absurd h List.not_mem_nil
    | cons c s ih =>
        intro n h
        rw [digits]
        split_ifs with hc
        · refine ih _ ((List.mem_cons.mp h).resolve_left ?_)
          rintro rfl
          exact absurd hc (by simp [isDigit, show digitValue ':' = none by decide])
        · exact h
  have hspaces : ':' ∈ s.dropWhile isSpace := by
    rw [← List.takeWhile_append_dropWhile (p := isSpace) (l := s), List.mem_append] at h
    exact h.resolve_left fun h => absurd (List.mem_takeWhile_imp h) (by decide)
  simp only [strtol]
  split
  · rename_i t heq
    rw [heq, List.mem_cons] at hspaces
    have ht : ':' ∈ t := hspaces.resolve_left (by decide)
    split
    · exact hdigits _ _ (colon_mem_stripPrefix ht)
    · exact h
  · rename_i t heq
    rw [heq, List.mem_cons] at hspaces
    have ht : ':' ∈ t := hspaces.resolve_left (by decide)
    split
    · exact hdigits _ _ (colon_mem_stripPrefix ht)
    · exact h
  · split
    · exact hdigits _ _ (colon_mem_stripPrefix hspaces)
    · exact h

end Strtol

/-! ### The words of an address -/

/-- The segment and the offset of an address below `0xA0000`. -/
lemma words_eq {address : Int32} {a : ℕ} (h : address.toInt = a) (ha : a ≤ 0x9ffff) :
    (address >>> 4).toInt16.toUInt16.toNat = a / 16
      ∧ (address &&& 0xf).toInt16.toUInt16.toNat = a % 16 := by
  have htoNat : address.toBitVec.toNat = a := by
    have hint : address.toBitVec.toInt = a := h
    have hlt := address.toBitVec.isLt
    rw [BitVec.toInt_eq_toNat_cond] at hint
    split_ifs at hint <;> omega
  have hmsb : address.toBitVec.msb = false := by
    rw [BitVec.msb_eq_false_iff_two_mul_lt]
    omega
  have hword : ∀ x : Int32, x.toInt16.toUInt16.toNat = x.toBitVec.toNat % 2 ^ 16 := fun x => by
    change (x.toBitVec.signExtend 16).toNat = _
    rw [BitVec.signExtend_eq_setWidth_of_le _ (by decide), BitVec.toNat_setWidth]
  have hshift : (address >>> 4).toBitVec = address.toBitVec >>> 4 := by
    rw [Int32.toBitVec_shiftRight, ← BitVec.sshiftRight_eq_of_msb_false hmsb]
    rfl
  have hmask : (address &&& 0xf).toBitVec = address.toBitVec &&& 0xf#32 := rfl
  rw [hword, hword, hshift, hmask, BitVec.toNat_ushiftRight, BitVec.toNat_and, htoNat,
    Nat.shiftRight_eq_div_pow]
  have hand : a &&& (0xf#32).toNat = a % 16 := Nat.and_two_pow_sub_one_eq_mod a 4
  rw [hand]
  omega

/-! ### What `process_file` does -/

section Process

variable {b b' : Build} {file : List UInt8} {addr : List Char} {a : ℤ}

lemma Number.colon_notMem (h : Number addr a) : ':' ∉ addr := fun hcolon => by
  have hrest := colon_mem_strtol 0 hcolon
  rw [strtol_number h] at hrest
  exact List.not_mem_nil hrest

lemma Pair.colon_mem (h : Pair addr a) : ':' ∈ addr := by
  obtain ⟨s, o, -, -, -, -⟩ := h
  exact List.mem_append_right _ List.mem_cons_self

/-- **No pair is ever accepted**: what the first call of `strtol` leaves starts with the colon. -/
lemma decodeAddress_colon (h : ':' ∈ addr) : decodeAddress addr = none := by
  have hrest : (strtol addr 16).2 ≠ [] := List.ne_nil_of_mem (colon_mem_strtol 16 h)
  rw [decodeAddress, if_pos h]
  split_ifs <;> simp [hrest]

lemma processFile_colon (h : ':' ∈ addr) : processFile b ⟨file, addr⟩ = none := by
  simp only [processFile, decodeAddress_colon h]
  rfl

/-- A number is stored unless it is refused. -/
lemma processFile_number (h : Number addr a) :
    (Refused b file a → processFile b ⟨file, addr⟩ = none)
    ∧ (¬ Refused b file a → processFile b ⟨file, addr⟩ = some ⟨b.out ++ padded file,
      (longOf a &&& 0xf).toInt16.toUInt16 :: (longOf a >>> 4).toInt16.toUInt16
        :: UInt16.ofNat (numSectors file) :: b.info⟩) := by
  have hdecode : decodeAddress addr = if 0x9ffff < longOf a then none else
      some ((longOf a >>> 4).toInt16.toUInt16, (longOf a &&& 0xf).toInt16.toUInt16, longOf a) := by
    simp only [decodeAddress, if_neg h.colon_notMem, strtol_number h, true_and, ← Int32.not_lt,
      ite_not]
  simp only [processFile, copyFile_eq, hdecode, Option.bind_eq_bind]
  constructor
  · intro hrefused
    by_cases hlarge : 0x9ffff < longOf a
    · rw [if_pos hlarge]
      rfl
    · rw [if_neg hlarge, Option.bind_some]
      rcases hrefused.resolve_left hlarge with hfit | hfull
      · exact if_pos hfit
      · simp only [if_pos hfull, ite_self]
  · intro h
    rw [Refused, not_or, not_or] at h
    rw [if_neg h.1, Option.bind_some]
    simp only [gt_iff_lt, if_neg h.2.1, if_neg h.2.2]

/-! ### Every accepted text is a number -/

lemma isDigits_of_digits {base : ℕ} : ∀ (s : List Char) (n : ℕ), (digits base n s).2 = [] →
    IsDigits base s
  | [], _, _ => fun _ h => absurd h List.not_mem_nil
  | c :: s, n, h => by
      rw [digits] at h
      by_cases hc : isDigit base c = true
      · rw [if_pos hc] at h
        intro x hx
        rcases List.mem_cons.mp hx with rfl | hx
        · exact hc
        · exact isDigits_of_digits s _ h x hx
      · rw [if_neg hc] at h
        exact absurd h (List.cons_ne_nil _ _)

/-- What `strtol` takes for a prefix and digits is a numeral. -/
lemma exists_numeral {s : List Char} (hhead : (stripPrefix 0 s).2.head?.any
      (isDigit (stripPrefix 0 s).1) = true)
    (hdigits : IsDigits (stripPrefix 0 s).1 (stripPrefix 0 s).2) : ∃ n, Numeral s n := by
  cases s with
  | nil => exact absurd hhead (by simp [stripPrefix])
  | cons c t =>
      by_cases hc : c = '0'
      · subst hc
        by_cases hhex : ∃ x d u, t = x :: d :: u ∧ (x = 'x' ∨ x = 'X') ∧ isDigit 16 d = true
        · obtain ⟨x, d, u, rfl, hx, hd⟩ := hhex
          have hstrip : stripPrefix 0 ('0' :: x :: d :: u) = (16, d :: u) := by
            simp [stripPrefix, hx, hd]
          rw [hstrip] at hdigits
          exact ⟨_, .hex x (d :: u) hx (List.cons_ne_nil d u) hdigits⟩
        · have hstrip : stripPrefix 0 ('0' :: t) = (8, '0' :: t) := by
            rcases t with - | ⟨x, - | ⟨d, u⟩⟩
            · rfl
            · rfl
            · have hnot : ¬ ((x = 'x' ∨ x = 'X') ∧ isDigit 16 d = true) := fun h =>
                hhex ⟨x, d, u, rfl, h⟩
              simp [stripPrefix, hnot]
          rw [hstrip] at hdigits
          exact ⟨_, .oct t fun x hx => hdigits x (List.mem_cons_of_mem _ hx)⟩
      · have hstrip : stripPrefix 0 (c :: t) = (10, c :: t) := by simp [stripPrefix, hc]
        rw [hstrip] at hdigits
        exact ⟨_, .dec c t hc hdigits⟩

/-- A text that `strtol` reads to its end is empty or a number. -/
lemma number_of_strtol {s : List Char} (h : (strtol s 0).2 = []) : s = [] ∨ ∃ a, Number s a := by
  have hsplit : s.takeWhile isSpace ++ s.dropWhile isSpace = s := List.takeWhile_append_dropWhile
  have hspaces : ∀ c ∈ s.takeWhile isSpace, isSpace c = true := fun c => List.mem_takeWhile_imp
  simp only [strtol] at h
  split at h
  · rename_i t heq
    split at h
    · rename_i hhead
      obtain ⟨n, hn⟩ := exists_numeral hhead (isDigits_of_digits _ _ h)
      have hnumber := Number.minus _ hspaces hn
      rw [← heq, hsplit] at hnumber
      exact Or.inr ⟨_, hnumber⟩
    · exact Or.inl h
  · rename_i t heq
    split at h
    · rename_i hhead
      obtain ⟨n, hn⟩ := exists_numeral hhead (isDigits_of_digits _ _ h)
      have hnumber := Number.plus _ hspaces hn
      rw [← heq, hsplit] at hnumber
      exact Or.inr ⟨_, hnumber⟩
    · exact Or.inl h
  · split at h
    · rename_i hhead
      obtain ⟨n, hn⟩ := exists_numeral hhead (isDigits_of_digits _ _ h)
      have hnumber := Number.unsigned _ hspaces hn
      rw [hsplit] at hnumber
      exact Or.inr ⟨_, hnumber⟩
    · exact Or.inl h

/-- **Every address that is accepted is a number**, or else the empty text. -/
theorem number_of_accepted (h : processFile b ⟨file, addr⟩ = some b') :
    addr = [] ∨ ∃ a, Number addr a := by
  refine number_of_strtol ?_
  by_contra hrest
  have hnone : decodeAddress addr = none := by
    by_cases hcolon : ':' ∈ addr
    · exact decodeAddress_colon hcolon
    · simp only [decodeAddress, if_neg hcolon, hrest, false_and, if_false]
  simp only [processFile, hnone] at h
  exact absurd h (by simp)

end Process

/-! ### Every address that fits has both spellings -/

/-- The last `k` hexadecimal digits of a number. -/
def hexDigits : ℕ → ℕ → List Char
  | 0, _ => []
  | k + 1, n => hexDigits k (n / 16) ++ [Nat.digitChar (n % 16)]

lemma digitChar_spec : ∀ d < 16, isDigit 16 (Nat.digitChar d) = true
    ∧ digitValue (Nat.digitChar d) = some d := by decide

lemma hexDigits_spec : ∀ k n, IsDigits 16 (hexDigits k n) ∧ (hexDigits k n).length = k
    ∧ digitsValue 16 (hexDigits k n) = n % 16 ^ k
  | 0, n => ⟨fun _ h => absurd h List.not_mem_nil, rfl, (Nat.mod_one n).symm⟩
  | k + 1, n => by
      obtain ⟨hdigits, hlen, hvalue⟩ := hexDigits_spec k (n / 16)
      obtain ⟨hdigit, hlast⟩ := digitChar_spec (n % 16) (Nat.mod_lt n (by decide))
      refine ⟨fun c hc => ?_, by rw [hexDigits, List.length_append, hlen]; rfl, ?_⟩
      · rcases List.mem_append.mp hc with hc | hc
        · exact hdigits c hc
        · rwa [List.mem_singleton.mp hc]
      · rw [digitsValue] at hvalue ⊢
        rw [hexDigits, List.foldl_append, hvalue, List.foldl_cons, List.foldl_nil, hlast,
          Option.getD_some, Nat.pow_succ', Nat.mod_mul]
        omega

lemma exists_number {a : ℕ} (h : a ≤ 0x9ffff) : ∃ number, Number number a := by
  obtain ⟨hdigits, hlen, hvalue⟩ := hexDigits_spec 5 a
  have hnumber := Number.unsigned [] (fun _ h => absurd h List.not_mem_nil)
    (Numeral.hex 'x' _ (Or.inl rfl) (List.ne_nil_of_length_eq_add_one hlen) hdigits)
  rw [hvalue, Nat.mod_eq_of_lt (by omega)] at hnumber
  exact ⟨_, hnumber⟩

lemma exists_pair {a : ℕ} (h : a ≤ 0x9ffff) : ∃ pair, Pair pair a := by
  obtain ⟨hs, hslen, hsvalue⟩ := hexDigits_spec 4 (a / 16)
  obtain ⟨ho, holen, hovalue⟩ := hexDigits_spec 4 (a % 16)
  have hpair := Pair.mk _ _ hs hslen ho holen
  rw [hsvalue, hovalue, Nat.mod_eq_of_lt (show a / 16 < 16 ^ 4 by omega),
    Nat.mod_eq_of_lt (show a % 16 < 16 ^ 4 by omega)] at hpair
  have ha : 16 * ((a / 16 : ℕ) : ℤ) + ((a % 16 : ℕ) : ℤ) = a := by omega
  exact ⟨_, ha ▸ hpair⟩

/-! ### The theorem -/

lemma longOf_toInt (a : ℤ) : (longOf a).toInt = max (-2 ^ 31) (min (2 ^ 31 - 1) a) :=
  Int32.toInt_ofInt_of_le (by omega) (by omega)

/-- The 32-bit arithmetic of the check is exact for an address that is not too large and a sum that
has 31 bits. -/
lemma sum_exact {a : ℤ} {n : ℕ} (ha : 0 ≤ a) (hsum : a + 512 * n < 2 ^ 31) :
    (longOf a).toInt = a ∧ (longOf a + Int32.ofNat n * 512).toInt = a + 512 * n := by
  have hlong : longOf a = Int32.ofInt a := by
    rw [longOf, min_eq_right (by omega), max_eq_right (by omega)]
  have htotal : longOf a + Int32.ofNat n * 512 = Int32.ofInt (a + 512 * n) := by
    rw [hlong, Int32.ofInt_add, Int32.ofInt_mul, Int32.mul_comm]
    rfl
  rw [htotal, hlong]
  exact ⟨Int32.toInt_ofInt_of_le (by omega) (by omega),
    Int32.toInt_ofInt_of_le (by omega) (by omega)⟩

/-- **Load addresses**: an address that is accepted is stored as it was denoted exactly if it is
refused, spelled as a pair, or neither negative nor so large with the program that 31 bits do not
hold the sum. A number and a pair that denote the same address are treated alike exactly if the
number is refused, or the address is negative, so that no pair denotes it. -/
theorem load_address_decoded (b : Build) (file : List UInt8) {addr : List Char} {a : ℤ}
    (h : Number addr a ∨ Pair addr a) :
    (Located b file addr a ↔ Pair addr a ∨ Refused b file a
      ∨ 0 ≤ a ∧ a + 512 * numSectors file < 2 ^ 31)
    ∧ (Alike b file a ↔ Refused b file a ∨ a < 0) := by
  refine ⟨⟨fun hlocated => ?_, ?_⟩, ⟨fun halike => ?_, ?_⟩⟩
  · -- what is stored says that the address fits
    rcases h with hnumber | hpair
    · by_cases hrefused : Refused b file a
      · exact Or.inr (Or.inl hrefused)
      · obtain ⟨-, -, -, -, -, hnonneg, hend⟩ :=
          hlocated _ ((processFile_number hnumber).2 hrefused)
        exact Or.inr (Or.inr ⟨hnonneg, by omega⟩)
    · exact Or.inl hpair
  · intro hcond b' hb'
    have hnumber := h.resolve_right fun hpair => by
      rw [processFile_colon hpair.colon_mem] at hb'
      exact absurd hb' (by simp)
    have hrefused : ¬ Refused b file a := fun hrefused => by
      rw [(processFile_number hnumber).1 hrefused] at hb'
      exact absurd hb' (by simp)
    obtain ⟨hnonneg, hsum⟩ := (hcond.resolve_left fun hpair =>
      hnumber.colon_notMem hpair.colon_mem).resolve_left hrefused
    obtain ⟨ha, htotal⟩ := sum_exact hnonneg hsum
    rw [(processFile_number hnumber).2 hrefused, Option.some.injEq] at hb'
    rw [Refused, not_or, not_or, Int32.not_lt, Int32.not_lt, Int32.le_iff_toInt_le,
      Int32.le_iff_toInt_le, ha, htotal] at hrefused
    obtain ⟨hsmall, hfits, -⟩ := hrefused
    have hmax : (0x9ffff : Int32).toInt = 0x9ffff := rfl
    rw [hmax] at hsmall hfits
    obtain ⟨k, rfl⟩ := Int.eq_ofNat_of_zero_le hnonneg
    obtain ⟨hsegment, hoffset⟩ := words_eq ha (by omega)
    refine ⟨_, _, _, by rw [← hb'], ?_, hnonneg, by omega⟩
    rw [hsegment, hoffset]
    omega
  · -- an address that fits has both spellings, and the pair is refused
    by_contra hnot
    rw [not_or, not_lt] at hnot
    obtain ⟨hrefused, hnonneg⟩ := hnot
    obtain ⟨k, rfl⟩ := Int.eq_ofNat_of_zero_le hnonneg
    have hsmall : k ≤ 0x9ffff := by
      have hlong := (not_or.mp hrefused).1
      rw [Int32.not_lt, Int32.le_iff_toInt_le, longOf_toInt] at hlong
      change _ ≤ (0x9ffff : ℤ) at hlong
      omega
    obtain ⟨number, hnumber⟩ := exists_number hsmall
    obtain ⟨pair, hpair⟩ := exists_pair hsmall
    have hiff := halike number pair hnumber hpair
    rw [(processFile_number hnumber).2 hrefused, processFile_colon hpair.colon_mem] at hiff
    exact absurd (hiff.mp rfl) (by simp)
  · rintro (hrefused | hneg) number pair hnumber hpair
    · rw [(processFile_number hnumber).1 hrefused, processFile_colon hpair.colon_mem]
    · obtain ⟨s, o, -, -, -, -⟩ := hpair
      omega

/-- An example of the usage message, as a number. -/
lemma number_example : Number "0x10c00".toList 0x10c00 :=
  .unsigned [] (fun _ h => absurd h List.not_mem_nil)
    (.hex 'x' "10c00".toList (Or.inl rfl) (by decide) (by decide))

/-- The number of the usage message is stored as it should be. -/
theorem load_address_decoded_number :
    Located ⟨[], []⟩ [1, 2, 3] "0x10c00".toList 0x10c00 :=
  (load_address_decoded ⟨[], []⟩ [1, 2, 3] (Or.inl number_example)).1.mpr
    (Or.inr (Or.inr (by decide)))

/-- The pair of the usage message that denotes the same address is refused, while the number is
accepted, and so is a negative number. -/
theorem usage_pair_refused : ¬ Alike ⟨[], []⟩ [1, 2, 3] 0x10c00
    ∧ ¬ Located ⟨[], []⟩ [1, 2, 3] "-16".toList (-16) := by
  refine ⟨fun h => ?_, fun h => ?_⟩
  · have hpair : Pair "10c0:0000".toList 0x10c00 :=
      .mk "10c0".toList "0000".toList (by decide) rfl (by decide) rfl
    have hiff := h _ _ number_example hpair
    rw [(processFile_number number_example).2 (by decide),
      processFile_colon hpair.colon_mem] at hiff
    exact absurd (hiff.mp rfl) (by simp)
  · have hnumber : Number "-16".toList (-16) :=
      .minus [] (n := 16) (fun _ h => absurd h List.not_mem_nil)
        (.dec '1' ['6'] (by decide) (by decide))
    obtain ⟨-, -, -, -, -, hnonneg, -⟩ := h _ ((processFile_number hnumber).2 (by decide))
    exact absurd hnonneg (by decide)

end Sp2.Loader
