import Mathlib.Algebra.Group.Nat.Defs
import PropertyToolkit.Proofs.Base64.RoundTrip
import PropertyToolkit.Proofs.Fallible

/-!
The texts that are read as Base64, blanks aside, and what they are read as. Digits come in groups of
four; a last group of two or three is filled up with pads, and behind whole groups any number of
pads is passed over. The bits of the digits, one after the other, are the bits of the bytes, up to
the last whole byte.
-/

set_option autoImplicit false

namespace PropertyToolkit.Base64

/-! ## Bits -/

/-- The bits of a digit, the highest first. -/
def bits (n : Sextet) : List Bool := [32, 16, 8, 4, 2, 1].map fun place => n.val / place % 2 = 1

/-- The number that some bits stand for, the highest first. -/
def ofBits (bits : List Bool) : Nat := bits.foldl (fun n bit => 2 * n + bit.toNat) 0

/-- The bytes of some bits, eight bits a byte. Bits that do not fill a byte get lost. -/
def wholeBytes : List Bool → List UInt8
  | a :: b :: c :: d :: e :: f :: g :: h :: rest =>
    UInt8.ofNat (ofBits [a, b, c, d, e, f, g, h]) :: wholeBytes rest
  | _ => []

/-- The bits that do not fill a byte. -/
def spareBits : List Bool → List Bool
  | _ :: _ :: _ :: _ :: _ :: _ :: _ :: _ :: rest => spareBits rest
  | short => short

/-- The bytes that some digits carry. -/
def bytesOf (digits : List Sextet) : List UInt8 := wholeBytes (digits.flatMap bits)

/-- The bits of some digits that no byte comes of. -/
def spareOf (digits : List Sextet) : List Bool := spareBits (digits.flatMap bits)

/-- Bits in front of some others count for as many places more. -/
theorem ofBits_append (first second : List Bool) :
    ofBits (first ++ second) = ofBits first * 2 ^ second.length + ofBits second := by
  have foldl_from (n : Nat) (bits : List Bool) :
      bits.foldl (fun n bit => 2 * n + bit.toNat) n = n * 2 ^ bits.length + ofBits bits := by
    induction bits generalizing n with
    | nil => simp [ofBits]
    | cons bit rest ih =>
      rw [ofBits, List.foldl_cons, List.foldl_cons, ih, ih (2 * 0 + bit.toNat), List.length_cons,
        Nat.pow_succ, Nat.add_mul, Nat.add_mul, Nat.mul_zero, Nat.zero_mul, Nat.zero_add,
        Nat.mul_comm 2 n, Nat.mul_assoc, Nat.mul_comm 2, Nat.add_assoc]
  rw [ofBits, List.foldl_append, ← ofBits, foldl_from]

/-! Eight bits in a row are the rest of one digit and the start of the next. -/

theorem ofBits_first (p q : Sextet) :
    ofBits (bits p ++ (bits q).take 2) = p.val * 4 + q.val / 16 := by
  have whole : ∀ n, ofBits (bits n) = n.val := by decide
  have start : ∀ n, ofBits ((bits n).take 2) = n.val / 16 := by decide
  rw [ofBits_append, whole, start]
  rfl

theorem ofBits_second (q r : Sextet) :
    ofBits ((bits q).drop 2 ++ (bits r).take 4) = q.val % 16 * 16 + r.val / 4 := by
  have rest : ∀ n, ofBits ((bits n).drop 2) = n.val % 16 := by decide
  have start : ∀ n, ofBits ((bits n).take 4) = n.val / 4 := by decide
  rw [ofBits_append, rest, start]
  rfl

theorem ofBits_third (r s : Sextet) :
    ofBits ((bits r).drop 4 ++ bits s) = r.val % 4 * 64 + s.val := by
  have rest : ∀ n, ofBits ((bits n).drop 4) = n.val % 4 := by decide
  have whole : ∀ n, ofBits (bits n) = n.val := by decide
  rw [ofBits_append, rest, whole]
  rfl

theorem bytesOf_two (p q : Sextet) : bytesOf [p, q] = [firstByte p q] := by
  rw [firstByte, ← ofBits_first]
  rfl

theorem bytesOf_three (p q r : Sextet) :
    bytesOf [p, q, r] = [firstByte p q, secondByte q r] := by
  rw [firstByte, secondByte, ← ofBits_first, ← ofBits_second]
  rfl

theorem bytesOf_four (p q r s : Sextet) (more : List Sextet) :
    bytesOf (p :: q :: r :: s :: more) =
      [firstByte p q, secondByte q r, thirdByte r s] ++ bytesOf more := by
  rw [firstByte, secondByte, thirdByte, ← ofBits_first, ← ofBits_second, ← ofBits_third]
  rfl

theorem spareOf_four (p q r s : Sextet) (more : List Sextet) :
    spareOf (p :: q :: r :: s :: more) = spareOf more := rfl

/-- Two digits have four bits to spare. -/
theorem spareOf_two_iff (p q : Sextet) :
    (∀ bit ∈ spareOf [p, q], bit = false) ↔ q.val % 16 = 0 := by
  have table : ∀ q, (∀ bit ∈ (bits q).drop 2, bit = false) ↔ q.val % 16 = 0 := by decide
  exact table q

/-- Three digits have two bits to spare. -/
theorem spareOf_three_iff (p q r : Sextet) :
    (∀ bit ∈ spareOf [p, q, r], bit = false) ↔ r.val % 4 = 0 := by
  have table : ∀ r, (∀ bit ∈ (bits r).drop 4, bit = false) ↔ r.val % 4 = 0 := by decide
  exact table r

/-! ## Spellings -/

/-- A text without blanks that spells some digits: nothing at all; one or more groups of four digits
with any number of pads behind them; or any number of groups and one more of two digits and two
pads, or of three digits and a pad. -/
inductive Spells : List Sextet → Text → Prop
  | nothing : Spells [] []
  | groups {digits : List Sextet} (filled : digits ≠ []) (whole : digits.length % 4 = 0)
    (pads : Nat) : Spells digits (digits.map digit ++ List.replicate pads pad)
  | two {digits : List Sextet} (left : digits.length % 4 = 2) :
    Spells digits (digits.map digit ++ [pad, pad])
  | three {digits : List Sextet} (left : digits.length % 4 = 3) :
    Spells digits (digits.map digit ++ [pad])

/-- What may come behind some digits, of which `count` are left over from the whole groups. -/
def Ends (count : Nat) (rest : Text) : Prop :=
  (count = 0 ∧ ∀ c ∈ rest, c = pad) ∨ (count = 2 ∧ rest = [pad, pad]) ∨ (count = 3 ∧ rest = [pad])

theorem spells_iff {digits : List Sextet} {t : Text} :
    Spells digits t ↔ ∃ rest, t = digits.map digit ++ rest ∧ Ends (digits.length % 4) rest ∧
      (digits = [] → rest = []) := by
  constructor
  · intro spells
    cases spells with
    | nothing => exact ⟨[], rfl, .inl ⟨rfl, nofun⟩, fun _ => rfl⟩
    | groups filled whole pads =>
      refine ⟨_, rfl, .inl ⟨whole, ?_⟩, fun empty => absurd empty filled⟩
      intro c mem
      exact List.eq_of_mem_replicate mem
    | two left =>
      refine ⟨_, rfl, .inr (.inl ⟨left, rfl⟩), ?_⟩
      rintro rfl
      cases left
    | three left =>
      refine ⟨_, rfl, .inr (.inr ⟨left, rfl⟩), ?_⟩
      rintro rfl
      cases left
  · rintro ⟨rest, rfl, ⟨whole, pads⟩ | ⟨left, rfl⟩ | ⟨left, rfl⟩, bare⟩
    · by_cases empty : digits = []
      · rw [bare empty, empty]
        exact .nothing
      · rw [List.eq_replicate_of_mem pads]
        exact .groups empty whole rest.length
    · exact .two left
    · exact .three left

theorem sextet?_pad : sextet? pad = none := by decide

theorem digit_injective {m n : Sextet} (same : digit m = digit n) : m = n := by
  have read := sextet?_digit m
  rw [same, sextet?_digit] at read
  exact (Option.some.inj read).symm

/-- A digit is the only code point that stands for its number. -/
theorem digit_of_sextet? {c : CodePoint} {n : Sextet} (read : sextet? c = some n) :
    digit n = c := by
  have capitals : ∀ k : Fin 26, (digit (lowSextet k.val)).value = 'A'.toNat + k.val := by decide
  have smalls : ∀ k : Fin 26, (digit (lowSextet (k.val + 26))).value = 'a'.toNat + k.val := by
    decide
  have numbers : ∀ k : Fin 10, (digit (lowSextet (k.val + 52))).value = '0'.toNat + k.val := by
    decide
  have between {low high : Char} (inside : c.within low high = true) :
      low.toNat ≤ c.value ∧ c.value ≤ high.toNat := by
    simpa [CodePoint.within] using inside
  rw [sextet?] at read
  split at read
  · next inside =>
    obtain ⟨least, most⟩ := between inside
    have bound : c.value - 'A'.toNat < 26 := by
      have last : 'Z'.toNat = 'A'.toNat + 25 := rfl
      omega
    cases read
    exact CodePoint.ext ((capitals ⟨_, bound⟩).trans (Nat.add_sub_of_le least))
  split at read
  · next inside =>
    obtain ⟨least, most⟩ := between inside
    have bound : c.value - 'a'.toNat < 26 := by
      have last : 'z'.toNat = 'a'.toNat + 25 := rfl
      omega
    cases read
    exact CodePoint.ext ((smalls ⟨_, bound⟩).trans (Nat.add_sub_of_le least))
  split at read
  · next inside =>
    obtain ⟨least, most⟩ := between inside
    have bound : c.value - '0'.toNat < 10 := by
      have last : '9'.toNat = '0'.toNat + 9 := rfl
      omega
    cases read
    exact CodePoint.ext ((numbers ⟨_, bound⟩).trans (Nat.add_sub_of_le least))
  split at read
  · next plus =>
    cases read
    rw [plus]
    decide
  split at read
  · next slash =>
    cases read
    rw [slash]
    decide
  · cases read

/-- The digits that a text starts with, and the rest. -/
theorem exists_digits (t : Text) :
    ∃ (digits : List Sextet) (rest : Text), t = digits.map digit ++ rest ∧
      ∀ c ∈ rest.head?, sextet? c = none := by
  induction t with
  | nil => exact ⟨[], [], rfl, nofun⟩
  | cons c t ih =>
    cases read : sextet? c with
    | none =>
      refine ⟨[], c :: t, rfl, ?_⟩
      rintro _ ⟨⟩
      exact read
    | some n =>
      obtain ⟨digits, rest, rfl, stops⟩ := ih
      refine ⟨n :: digits, rest, ?_, stops⟩
      rw [List.map_cons, digit_of_sextet? read]
      rfl

/-! ## The reader -/

/-- A reading comes to some bytes under a condition, and to a fault otherwise. -/
def Gives (reading : Except DecodeFault (List UInt8)) (bytes : List UInt8) (P : Prop) : Prop :=
  ∀ result, reading = .ok result ↔ result = bytes ∧ P

namespace Gives

variable {reading : Except DecodeFault (List UInt8)} {bytes : List UInt8} {P Q : Prop}

theorem congr (gives : Gives reading bytes P) (same : P ↔ Q) : Gives reading bytes Q :=
  fun result => (gives result).trans (and_congr_right fun _ => same)

theorem of_ok (holds : P) : Gives (.ok bytes) bytes P := by
  intro result
  rw [Except.ok.injEq, eq_comm, and_iff_left holds]

theorem of_ne (failed : ∀ result, reading ≠ .ok result) (fails : ¬P) : Gives reading bytes P :=
  fun result => iff_of_false (failed result) fun both => fails both.2

theorem of_error (fault : DecodeFault) (fails : ¬P) : Gives (.error fault) bytes P :=
  of_ne (fun _ => nofun) fails

/-- The bytes of a digit come before those of the rest. -/
theorem map (gives : Gives reading bytes P) (early : List UInt8) :
    Gives (reading.map (early ++ ·)) (early ++ bytes) P := by
  intro result
  rw [map_eq_ok_iff]
  constructor
  · rintro ⟨late, found, rfl⟩
    obtain ⟨rfl, holds⟩ := (gives late).1 found
    exact ⟨rfl, holds⟩
  · rintro ⟨rfl, holds⟩
    exact ⟨bytes, (gives bytes).2 ⟨rfl, holds⟩, rfl⟩

end Gives

namespace Reader

/-- A pad where no group can be completed is passed over, but no digit may come after it. -/
theorem read_pad_of_short {reader : Reader} (short : reader.group.length < 2) (rest : Text) :
    reader.read (pad :: rest) = ({ reader with padded := true } : Reader).read rest := by
  rw [read, if_pos rfl, if_neg (by omega)]

theorem read_pad_of_open {reader : Reader} (filled : 2 ≤ reader.group.length)
    (missing : reader.group.length + (reader.pads + 1) < 4) (rest : Text) :
    reader.read (pad :: rest) =
      ({ reader with pads := reader.pads + 1, padded := true } : Reader).read rest := by
  rw [read, if_pos rfl, if_pos filled, if_neg (by omega)]

/-- The pad that completes a group ends the text. -/
theorem read_pad_of_complete {reader : Reader} (filled : 2 ≤ reader.group.length)
    (complete : 4 ≤ reader.group.length + (reader.pads + 1)) (rest : Text) :
    Gives (reader.read (pad :: rest)) [] (rest = []) := by
  rw [read, if_pos rfl, if_pos filled, if_pos complete]
  by_cases last : rest = []
  · rw [if_pos last]
    exact .of_ok last
  · rw [if_neg last]
    exact .of_error _ last

theorem read_ne_ok {reader : Reader} {c : CodePoint} (solid : c ≠ pad)
    (refused : sextet? c = none ∨ reader.padded = true) (rest : Text) (bytes : List UInt8) :
    reader.read (c :: rest) ≠ .ok bytes := by
  rw [read, if_neg solid]
  cases read : sextet? c with
  | none => simp
  | some n =>
    have padded : reader.padded = true := by simpa [read] using refused
    simp [padded]

/-- A text may end between two groups. -/
theorem finish_gives (reader : Reader) : Gives reader.finish [] (reader.group.length = 0) := by
  unfold finish
  split
  · next none => exact .of_ok none
  · next one =>
    apply Gives.of_error
    omega
  · next some _ => exact .of_error _ some

/-- Behind a pad that completes nothing only pads may come, and no group may be open. -/
theorem read_of_padded {reader : Reader} (padded : reader.padded = true)
    (short : reader.group.length < 2) (rest : Text) :
    Gives (reader.read rest) [] (reader.group.length = 0 ∧ ∀ c ∈ rest, c = pad) := by
  induction rest generalizing reader with
  | nil => exact (finish_gives reader).congr (by simp)
  | cons c rest ih =>
    rw [List.forall_mem_cons]
    by_cases more : c = pad
    · rw [more, read_pad_of_short short]
      have behind := @ih { reader with padded := true } rfl short
      exact behind.congr (by simp)
    · apply Gives.of_ne
      · exact read_ne_ok more (.inr padded) rest
      · exact fun ends => more ends.2.1

/-- A pad behind the second digit of a group has to be followed by one more. -/
theorem read_of_open {reader : Reader} (padded : reader.padded = true)
    (two : reader.group.length = 2) (one : reader.pads = 1) (rest : Text) :
    Gives (reader.read rest) [] (rest = [pad]) := by
  cases rest with
  | nil => exact (finish_gives reader).congr (by simp [two])
  | cons c rest =>
    by_cases more : c = pad
    · rw [more]
      exact (read_pad_of_complete (by omega) (by omega) rest).congr (by simp)
    · apply Gives.of_ne
      · exact read_ne_ok more (.inr padded) rest
      · rintro ⟨⟩
        exact more rfl

/-- What may come behind the last digit depends on how many digits the open group has. -/
theorem read_of_stop {reader : Reader} (fresh : reader.pads = 0)
    (unfinished : reader.group.length < 4) {rest : Text}
    (stops : ∀ c ∈ rest.head?, sextet? c = none) :
    Gives (reader.read rest) [] (Ends reader.group.length rest) := by
  unfold Ends
  cases rest with
  | nil => exact (finish_gives reader).congr (by simp)
  | cons c rest =>
    by_cases more : c = pad
    · rw [more]
      by_cases short : reader.group.length < 2
      · have apart : reader.group.length ≠ 2 ∧ reader.group.length ≠ 3 := by omega
        have behind := @read_of_padded { reader with padded := true } rfl short rest
        rw [read_pad_of_short short]
        exact behind.congr (by simp [apart])
      by_cases two : reader.group.length = 2
      · have one : reader.pads + 1 = 1 := by omega
        have behind := @read_of_open
          { reader with pads := reader.pads + 1, padded := true } rfl two one rest
        rw [read_pad_of_open (by omega) (by omega)]
        exact behind.congr (by simp [two])
      · have three : reader.group.length = 3 := by omega
        exact (read_pad_of_complete (by omega) (by omega) rest).congr (by simp [three])
    · apply Gives.of_ne
      · exact read_ne_ok more (.inl (stops c rfl)) rest
      · rintro (⟨-, pads⟩ | ⟨-, pads⟩ | ⟨-, pads⟩)
        · exact more (pads c (List.mem_cons_self ..))
        · cases pads
          exact more rfl
        · cases pads
          exact more rfl

/-- Between two groups the reader takes digits group by group, and the digits that are left over
decide what may come behind them. -/
theorem read_digits (taken : Nat) (digits : List Sextet) {rest : Text}
    (stops : ∀ c ∈ rest.head?, sextet? c = none) :
    Gives ((between taken).read (digits.map digit ++ rest)) (bytesOf digits)
      (Ends (digits.length % 4) rest) := by
  match digits with
  | [] =>
    have unfinished : (between taken).group.length < 4 := by simp [between]
    exact read_of_stop rfl unfinished stops
  | [p] =>
    change Gives ((between taken).read (digit p :: rest)) _ _
    rw [between, read_digit rfl]
    exact (read_of_stop rfl (by simp [push]) stops).map _
  | [p, q] =>
    change Gives ((between taken).read (digit p :: digit q :: rest)) _ _
    rw [bytesOf_two, between, read_digit rfl, read_digit rfl]
    exact ((read_of_stop rfl (by simp [push]) stops).map _).map _
  | [p, q, r] =>
    change Gives ((between taken).read (digit p :: digit q :: digit r :: rest)) _ _
    rw [bytesOf_three, between, read_digit rfl, read_digit rfl, read_digit rfl]
    exact (((read_of_stop rfl (by simp [push]) stops).map _).map _).map _
  | p :: q :: r :: s :: more =>
    have left : (p :: q :: r :: s :: more).length % 4 = more.length % 4 := by
      simp only [List.length_cons]
      omega
    change Gives ((between taken).read
      (digit p :: digit q :: digit r :: digit s :: (more.map digit ++ rest))) _ _
    rw [left, bytesOf_four, read_four]
    exact (read_digits (taken + 4) more stops).map _

end Reader

/-! ## The language -/

theorem eq_pad_of_ends {count : Nat} {rest : Text} (ends : Ends count rest) :
    ∀ c ∈ rest, c = pad := by
  rcases ends with ⟨-, pads⟩ | ⟨-, rfl⟩ | ⟨-, rfl⟩
  · exact pads
  · simp
  · simp

theorem decodeCompact_eq_ok_iff {t : Text} {bytes : List UInt8} :
    decodeCompact t = .ok bytes ↔ ∃ digits, Spells digits t ∧ bytes = bytesOf digits := by
  simp only [spells_iff]
  constructor
  · intro decoded
    obtain ⟨digits, rest, rfl, stops⟩ := exists_digits t
    rw [decodeCompact] at decoded
    split at decoded
    · cases decoded
    split at decoded
    · cases decoded
    next led =>
    obtain ⟨same, ends⟩ := (Reader.read_digits 0 digits stops bytes).1 decoded
    refine ⟨digits, ⟨rest, rfl, ends, ?_⟩, same⟩
    rintro rfl
    -- A pad cannot stand at the very start.
    cases rest with
    | nil => rfl
    | cons c rest =>
      have first := eq_pad_of_ends ends c (List.mem_cons_self ..)
      exact absurd (congrArg some first) led
  · rintro ⟨digits, ⟨rest, rfl, ends, bare⟩, rfl⟩
    have pads := eq_pad_of_ends ends
    have small : ∀ c ∈ digits.map digit ++ rest, c.value < 0x80 := by
      intro c mem
      rcases List.mem_append.1 mem with written | padded
      · obtain ⟨n, -, rfl⟩ := List.mem_map.1 written
        exact value_digit_lt n
      · rw [pads c padded]
        decide
    have ascii : ((digits.map digit ++ rest).any fun c => 0x80 ≤ c.value) = false := by
      rw [List.any_eq_false]
      intro c mem
      have bound := small c mem
      simp only [decide_eq_true_eq]
      omega
    have led : (digits.map digit ++ rest).head? ≠ some pad := by
      cases digits with
      | nil => simp [bare rfl]
      | cons n digits => exact fun same => digit_ne_pad n (Option.some.inj same)
    have stops : ∀ c ∈ rest.head?, sextet? c = none := by
      intro c mem
      rw [pads c (List.mem_of_mem_head? mem)]
      exact sextet?_pad
    rw [decodeCompact, ascii, if_neg led]
    exact (Reader.read_digits 0 digits stops _).2 ⟨rfl, ends⟩

/-! ## Writing what was read -/

section

variable (p q r s : Sextet)

theorem toNat_firstByte : (firstByte p q).toNat = p.val * 4 + q.val / 16 := by
  have small : p.val * 4 + q.val / 16 < 256 := by omega
  exact UInt8.toNat_ofNat_of_lt' small

theorem toNat_secondByte : (secondByte q r).toNat = q.val % 16 * 16 + r.val / 4 := by
  have small : q.val % 16 * 16 + r.val / 4 < 256 := by omega
  exact UInt8.toNat_ofNat_of_lt' small

theorem toNat_thirdByte : (thirdByte r s).toNat = r.val % 4 * 64 + s.val := by
  have small : r.val % 4 * 64 + s.val < 256 := by omega
  exact UInt8.toNat_ofNat_of_lt' small

/-! The digits of the bytes that four digits carry. -/

theorem lowSextet_firstByte : lowSextet ((firstByte p q).toNat / 4) = p := by
  apply Fin.ext
  rw [toNat_firstByte, val_lowSextet (by omega)]
  omega

theorem lowSextet_secondByte :
    lowSextet ((firstByte p q).toNat % 4 * 16 + (secondByte q r).toNat / 16) = q := by
  apply Fin.ext
  rw [toNat_firstByte, toNat_secondByte, val_lowSextet (by omega)]
  omega

theorem lowSextet_thirdByte :
    lowSextet ((secondByte q r).toNat % 16 * 4 + (thirdByte r s).toNat / 64) = r := by
  apply Fin.ext
  rw [toNat_secondByte, toNat_thirdByte, val_lowSextet (by omega)]
  omega

theorem lowSextet_lastByte : lowSextet (thirdByte r s).toNat = s := by
  apply Fin.ext
  rw [toNat_thirdByte]
  change (r.val % 4 * 64 + s.val) % 64 = s.val
  omega

/-- Without the byte behind it, a digit comes back unless it has bits to spare. -/
theorem lowSextet_firstByte_iff : lowSextet ((firstByte p q).toNat % 4 * 16) = q ↔
    q.val % 16 = 0 := by
  rw [Fin.ext_iff, toNat_firstByte, val_lowSextet (by omega)]
  omega

theorem lowSextet_secondByte_iff : lowSextet ((secondByte q r).toNat % 16 * 4) = r ↔
    r.val % 4 = 0 := by
  rw [Fin.ext_iff, toNat_secondByte, val_lowSextet (by omega)]
  omega

theorem encode_two :
    encode [firstByte p q] =
      [digit p, digit (lowSextet ((firstByte p q).toNat % 4 * 16)), pad, pad] := by
  change [digit (lowSextet ((firstByte p q).toNat / 4)), _, _, _] = _
  rw [lowSextet_firstByte]
  rfl

theorem encode_three :
    encode [firstByte p q, secondByte q r] =
      [digit p, digit q, digit (lowSextet ((secondByte q r).toNat % 16 * 4)), pad] := by
  change [digit (lowSextet ((firstByte p q).toNat / 4)),
    digit (lowSextet ((firstByte p q).toNat % 4 * 16 + (secondByte q r).toNat / 16)), _, _] = _
  rw [lowSextet_firstByte, lowSextet_secondByte]
  rfl

theorem encode_four (rest : List UInt8) :
    encode ([firstByte p q, secondByte q r, thirdByte r s] ++ rest) =
      digit p :: digit q :: digit r :: digit s :: encode rest := by
  change digit (lowSextet ((firstByte p q).toNat / 4)) ::
    digit (lowSextet ((firstByte p q).toNat % 4 * 16 + (secondByte q r).toNat / 16)) ::
    digit (lowSextet ((secondByte q r).toNat % 16 * 4 + (thirdByte r s).toNat / 64)) ::
    digit (lowSextet (thirdByte r s).toNat) :: encode rest = _
  rw [lowSextet_firstByte, lowSextet_secondByte, lowSextet_thirdByte, lowSextet_lastByte]

end

/-- Digits are written as they were read if no pad stands behind whole groups, and if no bit that is
lost is set. -/
theorem encode_bytesOf_iff (digits : List Sextet) (rest : Text) :
    encode (bytesOf digits) = digits.map digit ++ rest ↔
      Ends (digits.length % 4) rest ∧ (digits.length % 4 = 0 → rest = []) ∧
        ∀ bit ∈ spareOf digits, bit = false := by
  match digits with
  | [] =>
    have nothing : encode (bytesOf []) = [] := rfl
    have spare : spareOf [] = [] := rfl
    rw [nothing, spare]
    constructor
    · intro same
      have empty : rest = [] := same.symm
      rw [empty]
      exact ⟨.inl ⟨rfl, nofun⟩, fun _ => rfl, nofun⟩
    · intro ends
      exact (ends.2.1 rfl).symm
  | [p] =>
    apply iff_of_false
    · intro same
      have nothing : [] = digit p :: rest := same
      cases nothing
    · rintro ⟨⟨none, -⟩ | ⟨two, -⟩ | ⟨three, -⟩, -⟩
      · cases none
      · cases two
      · cases three
  | [p, q] =>
    rw [bytesOf_two, encode_two, spareOf_two_iff, ← lowSextet_firstByte_iff p q]
    constructor
    · intro same
      obtain ⟨spare, rfl⟩ : digit (lowSextet ((firstByte p q).toNat % 4 * 16)) = digit q ∧
          rest = [pad, pad] := by simpa [eq_comm] using same
      exact ⟨.inr (.inl ⟨rfl, rfl⟩), nofun, digit_injective spare⟩
    · rintro ⟨⟨none, -⟩ | ⟨-, rfl⟩ | ⟨three, -⟩, -, spare⟩
      · cases none
      · rw [spare]
        rfl
      · cases three
  | [p, q, r] =>
    rw [bytesOf_three, encode_three, spareOf_three_iff, ← lowSextet_secondByte_iff q r]
    constructor
    · intro same
      obtain ⟨spare, rfl⟩ : digit (lowSextet ((secondByte q r).toNat % 16 * 4)) = digit r ∧
          rest = [pad] := by simpa [eq_comm] using same
      exact ⟨.inr (.inr ⟨rfl, rfl⟩), nofun, digit_injective spare⟩
    · rintro ⟨⟨none, -⟩ | ⟨two, -⟩ | ⟨-, rfl⟩, -, spare⟩
      · cases none
      · cases two
      · rw [spare]
        rfl
  | p :: q :: r :: s :: more =>
    have left : (p :: q :: r :: s :: more).length % 4 = more.length % 4 := by
      simp only [List.length_cons]
      omega
    rw [left, bytesOf_four, encode_four, spareOf_four, ← encode_bytesOf_iff more rest]
    simp

theorem encode_bytesOf_of_spells {digits : List Sextet} {t : Text} (spells : Spells digits t) :
    encode (bytesOf digits) = t ↔
      (digits.length % 4 = 0 → pad ∉ t) ∧ ∀ bit ∈ spareOf digits, bit = false := by
  obtain ⟨rest, rfl, ends, -⟩ := spells_iff.1 spells
  have written : pad ∉ digits.map digit := by
    intro mem
    obtain ⟨n, -, same⟩ := List.mem_map.1 mem
    exact digit_ne_pad n same
  have bare : rest = [] ↔ pad ∉ digits.map digit ++ rest := by
    constructor
    · rintro rfl
      rwa [List.append_nil]
    · intro unpadded
      rw [List.eq_nil_iff_forall_not_mem]
      intro c mem
      rw [eq_pad_of_ends ends c mem] at mem
      exact unpadded (List.mem_append_right _ mem)
  rw [encode_bytesOf_iff, and_iff_right ends, bare]

/-- Which texts are read: those that spell some digits once their blanks are gone. They are read as
the bits of the digits cut down to whole bytes; every other text has a fault. What was read is
written in the same way, blanks aside, exactly if no pad stands behind whole groups and no spare bit
is set. -/
theorem decode_eq_ok_iff_spells (t : Text) :
    (∀ bytes, decode t = .ok bytes ↔
      ∃ digits, Spells digits (compact t) ∧ bytes = bytesOf digits) ∧
    ((¬∃ digits, Spells digits (compact t)) ↔ ∃ fault, decode t = .error fault) ∧
    ∀ digits, Spells digits (compact t) →
      (encodeLines (bytesOf digits) 0 = .ok (compact t) ↔
        (digits.length % 4 = 0 → pad ∉ compact t) ∧ ∀ bit ∈ spareOf digits, bit = false) := by
  have read (bytes : List UInt8) : decode t = .ok bytes ↔
      ∃ digits, Spells digits (compact t) ∧ bytes = bytesOf digits := decodeCompact_eq_ok_iff
  refine ⟨read, ?_, ?_⟩
  · cases decoded : decode t with
    | error fault =>
      refine iff_of_true ?_ ⟨fault, rfl⟩
      rintro ⟨digits, spells⟩
      have other := (read _).2 ⟨digits, spells, rfl⟩
      rw [decoded] at other
      cases other
    | ok bytes =>
      obtain ⟨digits, spells, -⟩ := (read bytes).1 decoded
      exact iff_of_false (fun unspelled => unspelled ⟨digits, spells⟩) nofun
  · intro digits spells
    rw [← encode_bytesOf_of_spells spells]
    exact (Except.ok.injEq _ _).to_iff

/-- Pads behind a whole group are read, and a spare bit that is set is dropped; neither is written
again. -/
theorem decode_eq_ok_iff_spells_lax :
    Spells [24, 22, 9, 35] (compact "YWJ\u3000j=\n") ∧ Spells [24, 17] (compact "YR = =") ∧
      decode "YWJ\u3000j=\n" = .ok [0x61, 0x62, 0x63] ∧ decode "YR = =" = .ok [0x61] ∧
      encodeLines (bytesOf [24, 22, 9, 35]) 0 ≠ .ok (compact "YWJ\u3000j=\n") ∧
      encodeLines (bytesOf [24, 17]) 0 ≠ .ok (compact "YR = =") := by
  have group : Spells [24, 22, 9, 35] (compact "YWJ\u3000j=\n") :=
    @Spells.groups [24, 22, 9, 35] (List.cons_ne_nil _ _) rfl 1
  have two : Spells [24, 17] (compact "YR = =") := @Spells.two [24, 17] rfl
  obtain ⟨readGroup, -, writeGroup⟩ := decode_eq_ok_iff_spells "YWJ\u3000j=\n"
  obtain ⟨readTwo, -, writeTwo⟩ := decode_eq_ok_iff_spells "YR = ="
  refine ⟨group, two, ?_, ?_, ?_, ?_⟩
  · exact (readGroup _).2 ⟨_, group, by decide⟩
  · exact (readTwo _).2 ⟨_, two, by decide⟩
  · rw [ne_eq, writeGroup _ group]
    decide
  · rw [ne_eq, writeTwo _ two]
    decide

end PropertyToolkit.Base64
