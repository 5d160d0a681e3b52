import Mathlib.Algebra.Ring.Int.Defs
import Mathlib.Algebra.Ring.Nat
import Mathlib.Tactic.Common

/-!
`BuildImage.c`: the program that puts the bootstrap and the programs it is to load together to a
disk image.

* `strtol`: the conversion of a number, with what is left of the text.
* `copyFile`: a file in sectors, the last one padded.
* `processFile`, `buildImage`: one program file and its load address, and the whole command.

A failing command (`quit`) gives no image; the messages are left out.
-/

namespace Sp2.Loader

/-- The size of a sector. -/
abbrev sectorSize : ℕ := 512

/-! ### `strtol` -/

/-- `isspace`. -/
def isSpace (c : Char) : Bool := c = ' ' ∨ (0x09 ≤ c.toNat ∧ c.toNat ≤ 0x0d)

/-- The value of a digit of any base. -/
def digitValue (c : Char) : Option ℕ :=
  if '0' ≤ c ∧ c ≤ '9' then some (c.toNat - '0'.toNat)
  else if 'a' ≤ c ∧ c ≤ 'z' then some (c.toNat - 'a'.toNat + 10)
  else if 'A' ≤ c ∧ c ≤ 'Z' then some (c.toNat - 'A'.toNat + 10)
  else none

/-- A digit of the base. -/
def isDigit (base : ℕ) (c : Char) : Bool := (digitValue c).any (· < base)

/-- The digits at the start of a text, after some with the value `n`. -/
def digits (base : ℕ) : ℕ → List Char → ℕ × List Char
  | n, [] => (n, [])
  | n, c :: s =>
      if isDigit base c then digits base (n * base + (digitValue c).getD 0) s else (n, c :: s)

/-- The base a number is written in, and the number without its prefix. -/
def stripPrefix (base : ℕ) (s : List Char) : ℕ × List Char :=
  match s with
  | '0' :: x :: c :: t =>
      if (base = 0 ∨ base = 16) ∧ (x = 'x' ∨ x = 'X') ∧ isDigit 16 c then (16, c :: t)
      else (if base = 0 then 8 else base, s)
  | '0' :: _ => (if base = 0 then 8 else base, s)
  | _ => (if base = 0 then 10 else base, s)

/-- `strtol` for a `long` of 32 bits. A number out of range gives the nearest one that is in
range; a text that does not start with a number gives zero and all of the text. -/
def strtol (s : List Char) (base : ℕ) : Int32 × List Char :=
  let t := s.dropWhile isSpace
  let (negative, t) := match t with
    | '-' :: t => (true, t)
    | '+' :: t => (false, t)
    | t => (false, t)
  let (base, t) := stripPrefix base t
  if t.head?.any (isDigit base) then
    let (n, rest) := digits base 0 t
    (if negative then Int32.ofInt (max (-2 ^ 31) (-n)) else Int32.ofInt (min (2 ^ 31 - 1) n), rest)
  else (0, s)

/-! ### Files -/

/-- The loop of `copy_file`, for at most so many rounds: the sectors written, and their
number. -/
def copyLoop : ℕ → List UInt8 → List UInt8 × ℕ
  | 0, _ => ([], 0)
  | fuel + 1, bytes =>
      let buf := bytes.take sectorSize
      if buf.length > 0 then
        let r := copyLoop fuel (bytes.drop sectorSize)
        (buf ++ List.replicate (sectorSize - buf.length) 0 ++ r.1, r.2 + 1)
      else ([], 0)

/-- `copy_file`: a round takes at least one byte. -/
def copyFile (bytes : List UInt8) : List UInt8 × ℕ := copyLoop (bytes.length + 1) bytes

/-- The number of sectors of a file. -/
def numSectors (bytes : List UInt8) : ℕ := (bytes.length + (sectorSize - 1)) / sectorSize

/-- A file with zeros after it, up to the end of a sector. -/
def padded (bytes : List UInt8) : List UInt8 :=
  bytes ++ List.replicate (numSectors bytes * sectorSize - bytes.length) 0

@[simp] lemma length_padded (bytes : List UInt8) :
    (padded bytes).length = numSectors bytes * sectorSize := by
  rw [padded, List.length_append, List.length_replicate, numSectors]
  simp only [sectorSize]
  omega

lemma numSectors_pos {bytes : List UInt8} : 0 < numSectors bytes ↔ bytes ≠ [] := by
  rw [← List.length_pos_iff, numSectors]
  simp only [sectorSize]
  omega

/-- The first sector of a file, and the others. -/
lemma padded_eq {bytes : List UInt8} (h : 0 < bytes.length) :
    padded bytes = bytes.take sectorSize
      ++ List.replicate (sectorSize - (bytes.take sectorSize).length) 0
      ++ padded (bytes.drop sectorSize) := by
  by_cases hle : bytes.length ≤ sectorSize
  · have hone : numSectors bytes = 1 := by
      rw [numSectors]
      simp only [sectorSize] at hle ⊢
      omega
    have hrest : padded (bytes.drop sectorSize) = [] := by
      rw [List.drop_of_length_le hle]
      rfl
    rw [hrest, List.append_nil, List.take_of_length_le hle, padded, hone, Nat.one_mul]
  · have hmore : numSectors bytes * sectorSize - bytes.length
        = numSectors (bytes.drop sectorSize) * sectorSize - (bytes.drop sectorSize).length := by
      rw [numSectors, numSectors, List.length_drop]
      simp only [sectorSize] at hle ⊢
      omega
    have hfull : sectorSize - (bytes.take sectorSize).length = 0 := by
      rw [List.length_take]
      omega
    rw [padded, padded, hmore, hfull, List.replicate_zero, List.append_nil, ← List.append_assoc,
      List.take_append_drop]

/-- What is written to the output for a file. -/
lemma copyFile_eq (bytes : List UInt8) : copyFile bytes = (padded bytes, numSectors bytes) := by
  have hloop : ∀ (fuel : ℕ) (bytes : List UInt8), bytes.length < fuel →
      copyLoop fuel bytes = (padded bytes, numSectors bytes) := by
    intro fuel
    induction fuel with
    | zero => exact fun bytes h => absurd h (Nat.not_lt_zero _)
    | succ fuel ih =>
        intro bytes h
        rw [copyLoop]
        by_cases hbytes : 0 < bytes.length
        · have hbuf : (bytes.take sectorSize).length > 0 := by
            rw [List.length_take]
            simp only [sectorSize]
            omega
          have hrest : (bytes.drop sectorSize).length < fuel := by
            rw [List.length_drop]
            simp only [sectorSize]
            omega
          have hcount : numSectors (bytes.drop sectorSize) + 1 = numSectors bytes := by
            rw [numSectors, numSectors, List.length_drop]
            simp only [sectorSize]
            omega
          simp only [if_pos hbuf, ih _ hrest, hcount, ← padded_eq hbytes]
        · obtain rfl : bytes = [] := List.length_eq_zero_iff.mp (by omega)
          rfl
  exact hloop _ _ (Nat.lt_succ_self _)

/-- `N_INFO`. -/
abbrev numInfo : ℕ := 256

/-- A program file and the text of its load address. -/
structure Program where
  file : List UInt8
  addr : List Char

/-- What has been written to the output, and the words of `info` from `n_info` on. -/
structure Build where
  out : List UInt8
  info : List UInt16

/-- The `segment`, `offset` and `address` that `process_file` computes from a load address, when
it is valid. -/
def decodeAddress (addr : List Char) : Option (UInt16 × UInt16 × Int32) :=
  if ':' ∈ addr then
    if addr.length = 9 ∧ addr.idxOf ':' = 4 then
      let (segment, u1) := strtol addr 16
      let (offset, u2) := strtol (addr.drop 5) 16
      let segment := segment.toInt16
      let offset := offset.toInt16
      let address := (segment.toInt32 <<< 4) + offset.toInt32
      if u1 = [] ∧ u2 = [] then some (segment.toUInt16, offset.toUInt16, address) else none
    else none
  else
    let (address, rest) := strtol addr 0
    if rest = [] ∧ address ≤ 0x9ffff then
      some ((address >>> 4).toInt16.toUInt16, (address &&& 0xf).toInt16.toUInt16, address)
    else none

/-- `process_file`: append a program to the output, and its three words to the table. -/
def processFile (b : Build) (p : Program) : Option Build := do
  let (bytes, nSectors) := copyFile p.file
  let (segment, offset, address) ← decodeAddress p.addr
  if address + Int32.ofNat nSectors * 512 > 0x9ffff then none
  else if numInfo - b.info.length < 3 then none
  else some ⟨b.out ++ bytes, offset :: segment :: UInt16.ofNat nSectors :: b.info⟩

/-- The bytes of an array of `short`. -/
def wordBytes (info : List UInt16) : List UInt8 :=
  info.flatMap fun w : UInt16 => [w.toUInt8, (w >>> 8).toUInt8]

/-- `main`, for the contents of the boot file and of at least one program file: the image, unless
the command fails. The table replaces as many bytes at the end of the bootstrap, which have to be
zero. -/
def buildImage (boot : List UInt8) (programs : List Program) : Option (List UInt8) :=
  if programs = [] then none
  else
    let (bytes, nSectors) := copyFile boot
    match programs.foldlM processFile ⟨bytes, []⟩ with
    | none => none
    | some b =>
        let table := wordBytes b.info
        -- `fseek` fails for a position before the start of the file.
        if nSectors * sectorSize < table.length then none
        else
          let start := nSectors * sectorSize - table.length
          if ((b.out.drop start).take table.length).all (· = 0) then
            some (b.out.take start ++ table ++ b.out.drop (start + table.length))
          else none

/-! ### What an image consists of -/

/-- The words of the table for one program. -/
structure Entry where
  count : UInt16
  segment : UInt16
  offset : UInt16

/-- From the last word of the table backwards. -/
def Entry.words (e : Entry) : List UInt16 := [e.count, e.segment, e.offset]

/-- The entry of a program. -/
def Entry.Of (e : Entry) (p : Program) : Prop :=
  e.count = UInt16.ofNat (numSectors p.file) ∧
    ∃ address, decodeAddress p.addr = some (e.segment, e.offset, address)

/-- The programs one after another. -/
def contents (programs : List Program) : List UInt8 := programs.flatMap fun p => padded p.file

/-- The table of some entries, from its last word backwards. -/
def tableWords (entries : List Entry) : List UInt16 := entries.flatMap Entry.words

@[simp] lemma tableWords_cons (e : Entry) (entries : List Entry) :
    tableWords (e :: entries) = e.words ++ tableWords entries := List.flatMap_cons

lemma length_tableWords (entries : List Entry) :
    (tableWords entries).length = 3 * entries.length := by
  induction entries with
  | nil => rfl
  | cons e entries ih =>
      have hwords : e.words.length = 3 := rfl
      rw [tableWords_cons, List.length_append, List.length_cons, hwords, ih]
      omega

lemma length_wordBytes (info : List UInt16) : (wordBytes info).length = 2 * info.length := by
  induction info with
  | nil => rfl
  | cons w info ih =>
      have hcons : wordBytes (w :: info) = w.toUInt8 :: (w >>> 8).toUInt8 :: wordBytes info := rfl
      rw [hcons, List.length_cons, List.length_cons, List.length_cons, ih]
      omega

lemma processFile_eq {b b' : Build} {p : Program} (h : processFile b p = some b') :
    ∃ e : Entry, e.Of p ∧ b'.out = b.out ++ padded p.file ∧
      b'.info = e.words.reverse ++ b.info ∧ b'.info.length ≤ numInfo := by
  simp only [processFile, copyFile_eq, Option.bind_eq_bind, Option.bind_eq_some_iff] at h
  obtain ⟨⟨segment, offset, address⟩, haddr, h⟩ := h
  simp only at h
  split_ifs at h with hlarge hfull
  obtain rfl := Option.some.inj h
  refine ⟨⟨UInt16.ofNat (numSectors p.file), segment, offset⟩, ⟨rfl, address, haddr⟩, rfl, rfl, ?_⟩
  simp only [List.length_cons]
  omega

/-- The programs are written in order, and their entries in the reverse order. -/
lemma processFiles_eq {b b' : Build} {programs : List Program}
    (h : programs.foldlM processFile b = some b') (hb : b.info.length ≤ numInfo) :
    ∃ entries : List Entry, List.Forall₂ Entry.Of entries programs ∧
      b'.out = b.out ++ contents programs ∧
      b'.info = (tableWords entries).reverse ++ b.info ∧ b'.info.length ≤ numInfo := by
  induction programs generalizing b with
  | nil =>
      obtain rfl := Option.some.inj h
      exact ⟨[], .nil, (List.append_nil _).symm, rfl, hb⟩
  | cons p programs ih =>
      rw [List.foldlM_cons, Option.bind_eq_bind, Option.bind_eq_some_iff] at h
      obtain ⟨b₁, hp, h⟩ := h
      obtain ⟨e, he, hout, hinfo, hlen⟩ := processFile_eq hp
      obtain ⟨entries, hentries, hout', hinfo', hlen'⟩ := ih h hlen
      refine ⟨e :: entries, .cons he hentries, ?_, ?_, hlen'⟩
      · rw [hout', hout, List.append_assoc]
        rfl
      · rw [hinfo', hinfo, tableWords_cons, List.reverse_append, List.append_assoc]

/-- The table is at the end of the bootstrap. -/
lemma buildImage_eq {boot image : List UInt8} {programs : List Program}
    (h : buildImage boot programs = some image) :
    ∃ entries : List Entry, List.Forall₂ Entry.Of entries programs ∧
      3 * entries.length ≤ numInfo ∧ 6 * entries.length ≤ (padded boot).length ∧
      image = (padded boot).take ((padded boot).length - 6 * entries.length)
        ++ wordBytes (tableWords entries).reverse ++ contents programs := by
  rw [buildImage] at h
  by_cases hnone : programs = []
  · rw [if_pos hnone] at h
    exact absurd h nofun
  rw [if_neg hnone, copyFile_eq] at h
  cases hfiles : programs.foldlM processFile ⟨padded boot, []⟩ with
  | none =>
      simp only [hfiles] at h
      exact absurd h nofun
  | some b =>
      obtain ⟨entries, hentries, hout, hinfo, hlen⟩ := processFiles_eq hfiles (Nat.zero_le _)
      change b.out = padded boot ++ contents programs at hout
      have hinfoLen : b.info.length = 3 * entries.length := by
        rw [hinfo, List.append_nil, List.length_reverse, length_tableWords]
      have htable : (wordBytes b.info).length = 6 * entries.length := by
        rw [length_wordBytes, hinfoLen]
        omega
      simp only [hfiles, htable, ← length_padded] at h
      split_ifs at h with hshort hzero
      obtain rfl := Option.some.inj h
      refine ⟨entries, hentries, hinfoLen ▸ hlen, by omega, ?_⟩
      rw [hout, hinfo, List.append_nil, List.take_append_of_le_length (Nat.sub_le _ _),
        Nat.sub_add_cancel (by omega), List.drop_left]

end Sp2.Loader
