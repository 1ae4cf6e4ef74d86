import Mathlib.Data.Nat.Digits.Defs
import PropertyToolkit.Proofs.Text.Cut
import PropertyToolkit.Number.Integer

/-!
Numerals: an optional sign and at least one decimal digit of ASCII. A numeral is read as the integer
that it writes by the places of its digits, unless they are too many, and every integer is written
as a numeral.
-/

set_option autoImplicit false

namespace PropertyToolkit

/-! ## Digits -/

/-- The ASCII digit of a number below ten. -/
def decimal (d : Fin 10) : CodePoint := CodePoint.ofDigit d

theorem value_decimal : ∀ d : Fin 10, (decimal d).value = 0x30 + d.val := by decide

theorem ofChar_digitChar : ∀ d : Fin 10, CodePoint.ofChar (Nat.digitChar d) = decimal d := by decide

theorem isAsciiDigit_decimal : ∀ d, (decimal d).isAsciiDigit = true := by decide

theorem isPadding_decimal : ∀ d, (decimal d).isPadding = false := by decide

theorem digit?_decimal : ∀ d, Integer.digit? (decimal d) = some d.val := by decide

theorem decimal_ne_mark : ∀ d, decimal d ≠ '_' := by decide

theorem decimal_ne_minus : ∀ d, decimal d ≠ '-' := by decide

theorem decimal_ne_plus : ∀ d, decimal d ≠ '+' := by decide

theorem exists_decimal {c : CodePoint} (digit : c.isAsciiDigit = true) : ∃ d, decimal d = c := by
  have range : 0x30 ≤ c.value ∧ c.value ≤ 0x39 := by
    simpa [CodePoint.isAsciiDigit, CodePoint.within] using digit
  refine ⟨⟨c.value - 0x30, by omega⟩, CodePoint.ext ?_⟩
  rw [value_decimal]
  exact Nat.add_sub_of_le range.1

theorem exists_map_decimal {t : Text} (digits : ∀ c ∈ t, c.isAsciiDigit = true) :
    ∃ ds : List (Fin 10), ds.map decimal = t := by
  induction t with
  | nil => exact ⟨[], rfl⟩
  | cons c rest ih =>
    obtain ⟨first, later⟩ := List.forall_mem_cons.1 digits
    obtain ⟨d, rfl⟩ := exists_decimal first
    obtain ⟨ds, rfl⟩ := ih later
    exact ⟨d :: ds, rfl⟩

theorem digitRun_map_decimal (ds : List (Fin 10)) :
    Integer.digitRun 10 (ds.map decimal) = some (ds.map Fin.val, []) := by
  induction ds with
  | nil => rfl
  | cons d ds ih =>
    rw [List.map_cons, Integer.digitRun.eq_def]
    dsimp only
    rw [if_neg (decimal_ne_mark d), digit?_decimal]
    dsimp only
    rw [if_pos d.isLt, ih]
    rfl

/-- Digits stand for the sum of their places, the last one for the ones. -/
theorem value_eq_ofDigits (digits : List Nat) :
    Text.value 10 digits = Nat.ofDigits 10 digits.reverse := by
  rw [Nat.ofDigits_eq_foldr, List.foldr_reverse, Text.value]
  congr
  funext n digit
  rw [Nat.cast_id, Nat.mul_comm, Nat.add_comm]

/-! ## Numerals -/

inductive Sign where
  | plus
  | minus
deriving DecidableEq

def Sign.codePoint : Sign → CodePoint
  | plus => '+'
  | minus => '-'

/-- An optional sign and decimal digits, the most significant one first. -/
structure Numeral where
  sign : Option Sign
  digits : List (Fin 10)
  filled : digits ≠ []

namespace Numeral

def text (n : Numeral) : Text := n.sign.toList.map Sign.codePoint ++ n.digits.map decimal

/-- The number that the digits write, each with the power of ten of its place. -/
def magnitude (n : Numeral) : Nat := Nat.ofDigits 10 (n.digits.map Fin.val).reverse

def value (n : Numeral) : Int := if n.sign = some .minus then -(n.magnitude : Int) else n.magnitude

theorem cutSign_text (n : Numeral) :
    Integer.cutSign n.text = (decide (n.sign = some .minus), n.digits.map decimal) := by
  obtain ⟨sign, digits, filled⟩ := n
  cases sign with
  | some sign => cases sign <;> rfl
  | none =>
    obtain ⟨d, ds, rfl⟩ := List.exists_cons_of_ne_nil filled
    show Integer.cutSign (decimal d :: ds.map decimal) = _
    rw [Integer.cutSign, if_neg (decimal_ne_minus d), if_neg (decimal_ne_plus d)]
    rfl

theorem isPadding_of_mem_text (n : Numeral) : ∀ c ∈ n.text, c.isPadding = false := by
  intro c mem
  rcases List.mem_append.1 mem with first | digit
  · obtain ⟨sign, _, rfl⟩ := List.mem_map.1 first
    cases sign <;> decide
  · obtain ⟨d, _, rfl⟩ := List.mem_map.1 digit
    exact isPadding_decimal d

/-- A base of ten has no prefix. -/
theorem dropBase_ten (t : Text) : Integer.dropBase 10 t = t := by
  have letters : Integer.prefixLetters 10 = [] := by decide
  unfold Integer.dropBase
  split
  · rw [letters, if_neg fun both => absurd both.2 (by simp)]
  · rfl

/-- A numeral is read as its value, unless it has too many digits. -/
theorem read_text (n : Numeral) :
    Integer.read 10 n.text =
      if n.digits.length ≤ Integer.maxDigits then .ok n.value
      else .error (.tooLong n.digits.length) := by
  have trimmed : n.text.trim CodePoint.isPadding = n.text :=
    Text.trim_of_none n.isPadding_of_mem_text
  have unmarked : (n.digits.map decimal).head? ≠ some '_' := by
    obtain ⟨d, ds, same⟩ := List.exists_cons_of_ne_nil n.filled
    rw [same]
    exact fun marked => decimal_ne_mark d (Option.some.inj marked)
  have counted : (n.digits.map Fin.val).length = n.digits.length := List.length_map _
  have present : n.digits.map Fin.val ≠ [] := fun empty => n.filled (List.map_eq_nil_iff.1 empty)
  have limited : Integer.isPowerOfTwo 10 = false := by decide
  unfold Integer.read
  rw [trimmed, cutSign_text]
  dsimp only
  rw [dropBase_ten, if_neg unmarked, digitRun_map_decimal]
  dsimp only
  rw [if_neg present, counted, limited, value_eq_ofDigits]
  by_cases short : n.digits.length ≤ Integer.maxDigits
  · simp only [short, Nat.not_lt.2 short, Bool.not_false, decide_false, Bool.and_false,
      Bool.false_eq_true, ne_eq, not_true_eq_false, ↓reduceIte, decide_eq_true_eq]
    rfl
  · simp only [short, Nat.lt_of_not_le short, Bool.not_false, decide_true, Bool.and_true,
      ↓reduceIte]

/-- The texts that are numerals. -/
theorem exists_text_eq_iff {t : Text} :
    (∃ n : Numeral, n.text = t) ↔
      (Integer.cutSign t).2 ≠ [] ∧ (Integer.cutSign t).2.all CodePoint.isAsciiDigit = true := by
  constructor
  · rintro ⟨n, rfl⟩
    rw [cutSign_text]
    refine ⟨fun empty => n.filled (List.map_eq_nil_iff.1 empty), ?_⟩
    simp [isAsciiDigit_decimal]
  · rintro ⟨filled, digits⟩
    obtain ⟨ds, written⟩ := exists_map_decimal (List.all_eq_true.1 digits)
    rw [← written] at filled
    have present : ds ≠ [] := fun empty => filled (List.map_eq_nil_iff.2 empty)
    -- The sign that is split off, if there is one, is that of the numeral.
    cases t with
    | nil => exact absurd written filled
    | cons c rest =>
      rw [Integer.cutSign] at written
      split at written
      · next minus =>
        refine ⟨⟨some .minus, ds, present⟩, ?_⟩
        rw [minus]
        exact congrArg ((Sign.codePoint .minus) :: ·) written
      · split at written
        · next plus =>
          refine ⟨⟨some .plus, ds, present⟩, ?_⟩
          rw [plus]
          exact congrArg ((Sign.codePoint .plus) :: ·) written
        · exact ⟨⟨none, ds, present⟩, written⟩

/-! ## Integers as numerals -/

theorem exists_digits_ofNat (n : Nat) :
    ∃ ds : List (Fin 10), ds.map decimal = Text.ofNat n ∧
      Nat.ofDigits 10 (ds.map Fin.val).reverse = n := by
  induction n using Nat.strongRecOn with
  | ind n ih =>
    unfold Text.ofNat
    rw [Nat.toDigits_eq_if (by decide)]
    split
    · next small =>
      exact ⟨[⟨n, small⟩], by rw [List.map_singleton, ← ofChar_digitChar]; rfl, by simp⟩
    · next large =>
      obtain ⟨ds, written, same⟩ := ih (n / 10) (by omega)
      have last : n % 10 < 10 := Nat.mod_lt n (by decide)
      refine ⟨ds ++ [⟨n % 10, last⟩], ?_, ?_⟩
      · rw [List.map_append, written, List.map_append, List.map_singleton, ← ofChar_digitChar]
        rfl
      · rw [List.map_append, List.reverse_append, List.map_singleton, List.reverse_singleton,
          List.singleton_append, Nat.ofDigits_cons, same]
        exact Nat.mod_add_div n 10

/-- Every integer is written as a numeral with its value, whose digits are not too many just if it
can be written as a property. -/
theorem exists_text_eq_ofInt (z : Int) :
    ∃ n : Numeral, n.text = Text.ofInt z ∧ n.value = z ∧
      (n.digits.length ≤ Integer.maxDigits ↔ Integer.isWritable z = true) := by
  obtain ⟨ds, written, same⟩ := exists_digits_ofNat z.natAbs
  have length : ds.length = (Nat.toDigits 10 z.natAbs).length := by
    have lengths := congrArg List.length written
    rwa [Text.ofNat, List.length_map, List.length_map] at lengths
  have filled : ds ≠ [] := by
    intro empty
    rw [empty] at length
    exact Nat.toDigits_ne_nil (List.length_eq_zero_iff.1 length.symm)
  have limit : ds.length ≤ Integer.maxDigits ↔ Integer.isWritable z = true := by
    rw [length, Nat.length_toDigits_le_iff (by decide) (by decide), Integer.isWritable,
      Nat.pow_eq, decide_eq_true_iff]
  by_cases negative : z < 0
  · refine ⟨⟨some .minus, ds, filled⟩, ?_, ?_, limit⟩
    · rw [Text.ofInt, if_pos negative, ← written]
      rfl
    · rw [value, if_pos rfl, magnitude, same]
      omega
  · refine ⟨⟨none, ds, filled⟩, ?_, ?_, limit⟩
    · rw [Text.ofInt, if_neg negative, ← written]
      rfl
    · rw [value, if_neg nofun, magnitude, same]
      omega

end Numeral

end PropertyToolkit
