/-!
Code points: the numbers below `0x110000`. A surrogate is a code point here, because an escape may
spell one on its own; only a `Char` is never a surrogate. Blanks and decimal digits are those of all
scripts.
-/

set_option autoImplicit false

namespace PropertyToolkit

structure CodePoint where
  value : Nat
  bounded : value < 0x110000
deriving DecidableEq

namespace CodePoint

@[ext] theorem ext {c d : CodePoint} (h : c.value = d.value) : c = d := by
  cases c
  cases d
  cases h
  rfl

def ofChar (c : Char) : CodePoint :=
  ⟨c.toNat, by
    rcases c.valid with h | h
    · exact Nat.lt_trans h (by decide)
    · exact h.2⟩

instance : Coe Char CodePoint := ⟨ofChar⟩

instance : Inhabited CodePoint := ⟨'\x00'⟩

@[simp] theorem ofChar_value (c : Char) : (ofChar c).value = c.toNat := rfl

/-- The code point of a number, if there is one. -/
def ofNat? (n : Nat) : Option CodePoint :=
  if h : n < 0x110000 then some ⟨n, h⟩ else none

/-- The code point of a number below `0x10000`, such as four hexadecimal digits spell. -/
def ofUnit (n : Fin 0x10000) : CodePoint :=
  ⟨n.val, Nat.lt_trans n.isLt (by decide)⟩

def isSurrogate (c : CodePoint) : Bool :=
  0xD800 ≤ c.value && c.value < 0xE000

/-- The character of a code point; a surrogate has none. -/
def toChar? (c : CodePoint) : Option Char :=
  if c.isSurrogate then none else some (Char.ofNat c.value)

/-- Lies between two characters, ends included. -/
def within (c : CodePoint) (low high : Char) : Bool :=
  low.toNat ≤ c.value && c.value ≤ high.toNat

def isAsciiDigit (c : CodePoint) : Bool := c.within '0' '9'

def isAsciiLetter (c : CodePoint) : Bool := c.within 'a' 'z' || c.within 'A' 'Z'

/-- The value of a digit in a base up to 36: letters of either case follow the ten digits. -/
def asciiDigit? (c : CodePoint) : Option Nat :=
  if c.within '0' '9' then some (c.value - '0'.toNat)
  else if c.within 'a' 'z' then some (c.value - 'a'.toNat + 10)
  else if c.within 'A' 'Z' then some (c.value - 'A'.toNat + 10)
  else none

/-- The value of a hexadecimal digit of either case. -/
def hexDigit? (c : CodePoint) : Option (Fin 16) :=
  match c.asciiDigit? with
  | some n => if h : n < 16 then some ⟨n, h⟩ else none
  | none => none

/-- The digit of a value below 36, in lower case. -/
def ofDigit (n : Nat) : CodePoint :=
  if n < 10 then Char.ofNat ('0'.toNat + n) else Char.ofNat ('a'.toNat + n - 10)

/-- The ranges of blank code points, both ends included: the white space of Unicode and the four
information separators. -/
def blankRanges : List (Nat × Nat) := [
    (0x9, 0xD), (0x1C, 0x20), (0x85, 0x85), (0xA0, 0xA0), (0x1680, 0x1680), (0x2000, 0x200A),
    (0x2028, 0x2029), (0x202F, 0x202F), (0x205F, 0x205F), (0x3000, 0x3000)]

def isBlank (c : CodePoint) : Bool :=
  blankRanges.any fun range => range.1 ≤ c.value && c.value ≤ range.2

/-- The zeros of the scripts that have decimal digits in Unicode 14. In every script the ten digits
follow each other. -/
def zeros : List Nat := [
    0x30, 0x660, 0x6F0, 0x7C0, 0x966, 0x9E6, 0xA66, 0xAE6, 0xB66, 0xBE6,
    0xC66, 0xCE6, 0xD66, 0xDE6, 0xE50, 0xED0, 0xF20, 0x1040, 0x1090, 0x17E0,
    0x1810, 0x1946, 0x19D0, 0x1A80, 0x1A90, 0x1B50, 0x1BB0, 0x1C40, 0x1C50,
    0xA620, 0xA8D0, 0xA900, 0xA9D0, 0xA9F0, 0xAA50, 0xABF0, 0xFF10, 0x104A0,
    0x10D30, 0x11066, 0x110F0, 0x11136, 0x111D0, 0x112F0, 0x11450, 0x114D0,
    0x11650, 0x116C0, 0x11730, 0x118E0, 0x11950, 0x11C50, 0x11D50, 0x11DA0,
    0x16A60, 0x16AC0, 0x16B50, 0x1D7CE, 0x1D7D8, 0x1D7E2, 0x1D7EC, 0x1D7F6,
    0x1E140, 0x1E2F0, 0x1E950, 0x1FBF0]

/-- The value of a decimal digit of any script. -/
def decimalDigit? (c : CodePoint) : Option Nat :=
  match zeros.find? fun first => first ≤ c.value && c.value < first + 10 with
  | some first => some (c.value - first)
  | none => none

end CodePoint

/-- Text is a list of code points. -/
abbrev Text := List CodePoint

namespace Text

def ofString (s : String) : Text := s.toList.map CodePoint.ofChar

instance : Coe String Text := ⟨ofString⟩

-- Named, so that definitions refer to it and not each to a proof of its own.
instance text_lawfulBEq : LawfulBEq Text := inferInstance

/-- The characters of a text, if none of its code points is a surrogate. -/
def toString? (t : Text) : Option String :=
  (t.mapM CodePoint.toChar?).map String.ofList

end Text

end PropertyToolkit
