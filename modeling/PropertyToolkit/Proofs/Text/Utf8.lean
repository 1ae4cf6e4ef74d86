import PropertyToolkit.Text.Utf8

/-!
What is written as UTF-8 is read back.
-/

set_option autoImplicit false

namespace PropertyToolkit.Utf8

theorem codePoint_value (c : CodePoint) : codePoint c.value = c := by
  rw [codePoint, CodePoint.ofNat?, dif_pos c.bounded]
  rfl

theorem toNat_ofNat {n : Nat} (small : n < 256) : (UInt8.ofNat n).toNat = n := by
  rw [UInt8.toNat_ofNat']
  exact Nat.mod_eq_of_lt small

/-- A continuation byte in range adds its six bits. -/
theorem continuation_cons {b : UInt8} {low high : Nat} (range : low ≤ b.toNat ∧ b.toNat ≤ high)
    (missing value seen : Nat) (rest : List UInt8) :
    continuation (missing + 1) low high value seen (b :: rest) =
      continuation missing 0x80 0xBF (value * 64 + b.toNat % 64) (seen + 1) rest := by
  rw [continuation, if_pos range]

/-- The continuation byte of six bits. -/
def trail (bits : Nat) : UInt8 := UInt8.ofNat (0x80 + bits % 64)

theorem toNat_trail (bits : Nat) : (trail bits).toNat = 0x80 + bits % 64 :=
  toNat_ofNat (by omega)

theorem continuation_trail (missing value seen bits : Nat) (rest : List UInt8) :
    continuation (missing + 1) 0x80 0xBF value seen (trail bits :: rest) =
      continuation missing 0x80 0xBF (value * 64 + bits % 64) (seen + 1) rest := by
  have byte := toNat_trail bits
  have six : (0x80 + bits % 64) % 64 = bits % 64 := by omega
  rw [continuation_cons (by omega), byte, six]

theorem decodeOne_of_continuation {lead : UInt8} {missing low high n : Nat}
    {bytes rest : List UInt8}
    (large : ¬lead.toNat < 0x80) (shape : shape? lead.toNat = some (missing, low, high))
    (read : continuation missing low high (lead.toNat % Nat.pow 2 (6 - missing)) 1 bytes =
      .ok (n, rest)) :
    decodeOne lead bytes = .ok (codePoint n, missing + 1, rest) := by
  rw [decodeOne, if_neg large, shape]
  simp only [read]

/-! ## The lengths of a code point -/

theorem decodeOne_one {n : Nat} (small : n < 0x80) (rest : List UInt8) :
    decodeOne (UInt8.ofNat n) rest = .ok (codePoint n, 1, rest) := by
  have byte : (UInt8.ofNat n).toNat = n := toNat_ofNat (by omega)
  rw [decodeOne, byte, if_pos small]

theorem decodeOne_two {n : Nat} (low : 0x80 ≤ n) (high : n < 0x800) (rest : List UInt8) :
    decodeOne (UInt8.ofNat (0xC0 + n / 64)) (trail n :: rest) = .ok (codePoint n, 2, rest) := by
  have byte : (UInt8.ofNat (0xC0 + n / 64)).toNat = 0xC0 + n / 64 := toNat_ofNat (by omega)
  have shape : shape? (0xC0 + n / 64) = some (1, 0x80, 0xBF) := by
    rw [shape?, if_neg (by omega), if_pos (by omega)]
  refine decodeOne_of_continuation (by omega) (byte ▸ shape) ?_
  rw [continuation_trail, continuation, byte]
  have value : (0xC0 + n / 64) % 32 * 64 + n % 64 = n := by omega
  exact congrArg (fun m => Except.ok (m, rest)) value

theorem shape?_three {k : Nat} (small : k < 16) :
    shape? (0xE0 + k) =
      some (2, if k = 0 then 0xA0 else 0x80, if k = 13 then 0x9F else 0xBF) := by
  revert k
  decide

/-- The range of the second byte is that of the code points with three bytes that are no
surrogates. -/
theorem decodeOne_three {n : Nat} (low : 0x800 ≤ n) (high : n < 0x10000)
    (scalar : n < 0xD800 ∨ 0xE000 ≤ n) (rest : List UInt8) :
    decodeOne (UInt8.ofNat (0xE0 + n / 4096)) (trail (n / 64) :: trail n :: rest) =
      .ok (codePoint n, 3, rest) := by
  have byte : (UInt8.ofNat (0xE0 + n / 4096)).toNat = 0xE0 + n / 4096 := toNat_ofNat (by omega)
  have shape := shape?_three (show n / 4096 < 16 by omega)
  have second := toNat_trail (n / 64)
  refine decodeOne_of_continuation (by omega) (byte ▸ shape) ?_
  rw [continuation_cons (by constructor <;> split <;> omega), continuation_trail, continuation,
    byte, second]
  have value : ((0xE0 + n / 4096) % 16 * 64 + (0x80 + n / 64 % 64) % 64) * 64 + n % 64 = n := by
    omega
  exact congrArg (fun m => Except.ok (m, rest)) value

theorem shape?_four {k : Nat} (small : k < 5) :
    shape? (0xF0 + k) =
      some (3, if k = 0 then 0x90 else 0x80, if k = 4 then 0x8F else 0xBF) := by
  revert k
  decide

theorem decodeOne_four {n : Nat} (low : 0x10000 ≤ n) (high : n < 0x110000) (rest : List UInt8) :
    decodeOne (UInt8.ofNat (0xF0 + n / 262144))
        (trail (n / 4096) :: trail (n / 64) :: trail n :: rest) =
      .ok (codePoint n, 4, rest) := by
  have byte : (UInt8.ofNat (0xF0 + n / 262144)).toNat = 0xF0 + n / 262144 := toNat_ofNat (by omega)
  have shape := shape?_four (show n / 262144 < 5 by omega)
  have second := toNat_trail (n / 4096)
  refine decodeOne_of_continuation (by omega) (byte ▸ shape) ?_
  rw [continuation_cons (by constructor <;> split <;> omega), continuation_trail,
    continuation_trail, continuation, byte, second]
  have value : (((0xF0 + n / 262144) % 8 * 64 + (0x80 + n / 4096 % 64) % 64) * 64 +
      n / 64 % 64) * 64 + n % 64 = n := by omega
  exact congrArg (fun m => Except.ok (m, rest)) value

/-! ## Texts -/

theorem encodeCodePoint_eq (c : CodePoint) :
    encodeCodePoint c =
      if c.value < 0x80 then [UInt8.ofNat c.value]
      else if c.value < 0x800 then [UInt8.ofNat (0xC0 + c.value / 64), trail c.value]
      else if c.value < 0x10000 then
        [UInt8.ofNat (0xE0 + c.value / 4096), trail (c.value / 64), trail c.value]
      else
        [UInt8.ofNat (0xF0 + c.value / 262144), trail (c.value / 4096), trail (c.value / 64),
          trail c.value] := by
  have last : UInt8.ofNat (0x80 + c.value / Nat.pow 2 0 % 64) = trail c.value := by
    rw [trail, show Nat.pow 2 0 = 1 from rfl, Nat.div_one]
  simp only [encodeCodePoint, last]
  rfl

theorem decodeOne_encodeCodePoint {c : CodePoint} (scalar : c.isSurrogate = false)
    (rest : List UInt8) :
    ∃ lead more, encodeCodePoint c = lead :: more ∧
      decodeOne lead (more ++ rest) = .ok (c, more.length + 1, rest) := by
  have outside : c.value < 0xD800 ∨ 0xE000 ≤ c.value := by
    simp only [CodePoint.isSurrogate, Bool.and_eq_false_iff, decide_eq_false_iff_not] at scalar
    omega
  have read := codePoint_value c
  rw [encodeCodePoint_eq]
  by_cases one : c.value < 0x80
  · have back := decodeOne_one one rest
    rw [read] at back
    rw [if_pos one]
    exact ⟨_, _, rfl, back⟩
  rw [if_neg one]
  by_cases two : c.value < 0x800
  · have back := decodeOne_two (by omega) two rest
    rw [read] at back
    rw [if_pos two]
    exact ⟨_, _, rfl, back⟩
  rw [if_neg two]
  by_cases three : c.value < 0x10000
  · have back := decodeOne_three (by omega) three outside rest
    rw [read] at back
    rw [if_pos three]
    exact ⟨_, _, rfl, back⟩
  · have back := decodeOne_four (by omega) c.bounded rest
    rw [read] at back
    rw [if_neg three]
    exact ⟨_, _, rfl, back⟩

theorem decodeFrom_cons {position count : Nat} {lead : UInt8} {bytes rest : List UInt8}
    {c : CodePoint} {t : Text} (first : decodeOne lead bytes = .ok (c, count, rest))
    (others : decodeFrom (position + count) rest = .ok t) :
    decodeFrom position (lead :: bytes) = .ok (c :: t) := by
  rw [decodeFrom]
  split
  · next fault =>
    rw [first] at fault
    cases fault
  · next read =>
    rw [first] at read
    cases read
    rw [others]

theorem decodeFrom_of_encodeFrom {t : Text} {bytes : List UInt8} {position : Nat}
    (written : encodeFrom false position t = .ok bytes) (start : Nat) :
    decodeFrom start bytes = .ok t := by
  induction t generalizing bytes position start with
  | nil =>
    cases written
    rw [decodeFrom]
  | cons c t ih =>
    rw [encodeFrom, bytesOf?] at written
    cases scalar : c.isSurrogate with
    | true =>
      rw [scalar] at written
      cases written
    | false =>
      rw [scalar] at written
      simp only [Bool.false_eq_true, ↓reduceIte] at written
      split at written
      · cases written
      · next others =>
        cases written
        obtain ⟨lead, more, bytes, first⟩ := decodeOne_encodeCodePoint scalar _
        rw [bytes]
        exact decodeFrom_cons first (ih others _)

/-- A text without surrogates can be written. -/
theorem exists_encode {t : Text} (scalar : ∀ c ∈ t, c.isSurrogate = false) :
    ∃ bytes, encode t = .ok bytes := by
  have from_any (position : Nat) : ∃ bytes, encodeFrom false position t = .ok bytes := by
    induction t generalizing position with
    | nil => exact ⟨[], rfl⟩
    | cons c t ih =>
      rw [List.forall_mem_cons] at scalar
      obtain ⟨bytes, others⟩ := ih scalar.2 (position + 1)
      refine ⟨encodeCodePoint c ++ bytes, ?_⟩
      simp only [encodeFrom, bytesOf?, scalar.1, Bool.false_eq_true, ↓reduceIte, others]
  exact from_any 0

/-- Only surrogates cannot be written. -/
theorem exists_surrogate_of_encode {t : Text} {fault : EncodeFault}
    (failed : encode t = .error fault) : ∃ c ∈ t, c.isSurrogate = true := by
  apply Classical.byContradiction
  intro none
  have scalar : ∀ c ∈ t, c.isSurrogate = false := fun c mem =>
    Bool.eq_false_iff.2 fun surrogate => none ⟨c, mem, surrogate⟩
  obtain ⟨bytes, written⟩ := exists_encode scalar
  rw [failed] at written
  cases written

/-- What can be written is read back. -/
theorem decode_of_encode {t : Text} {bytes : List UInt8} (written : encode t = .ok bytes) :
    decode bytes = .ok t :=
  decodeFrom_of_encodeFrom written 0

end PropertyToolkit.Utf8
