import PropertyToolkit.Base64.Alphabet

/-!
Writing bytes in Base64. Three bytes make four digits; a last group of one or two bytes is filled up
with pads. In lines of a given length every line ends with a line break, and one more break closes
the text.
-/

set_option autoImplicit false

namespace PropertyToolkit.Base64

/-- The digits of a group of one to three bytes, without pads. -/
def groupDigits (a : UInt8) : Option UInt8 → Option UInt8 → Sextet × Sextet × Sextet × Sextet
  | b, c =>
    let x := a.toNat
    let y := (b.getD 0).toNat
    let z := (c.getD 0).toNat
    (lowSextet (x / 4), lowSextet (x % 4 * 16 + y / 16), lowSextet (y % 16 * 4 + z / 64),
      lowSextet z)

/-- The text of some bytes on a single line. -/
def encode : List UInt8 → Text
  | [] => []
  | [a] =>
    let (p, q, _, _) := groupDigits a none none
    [digit p, digit q, pad, pad]
  | [a, b] =>
    let (p, q, r, _) := groupDigits a (some b) none
    [digit p, digit q, digit r, pad]
  | a :: b :: c :: rest =>
    let (p, q, r, s) := groupDigits a (some b) (some c)
    digit p :: digit q :: digit r :: digit s :: encode rest

def lineBreak : Text := "\r\n"

/-- Cuts a text into lines of `length`, the last of which may be shorter. -/
def lines (length : Nat) (t : Text) : List Text :=
  if _h : t = [] ∨ length = 0 then []
  else t.take length :: lines length (t.drop length)
termination_by t.length
decreasing_by
  have filled : 0 < t.length := List.length_pos_iff.2 fun empty => _h (Or.inl empty)
  have positive : 0 < length := Nat.pos_of_ne_zero fun none => _h (Or.inr none)
  rw [List.length_drop]
  omega

/-- The line length is negative or not a multiple of four. -/
inductive LengthFault where
  | notMultipleOfFour
deriving DecidableEq

def LengthFault.message : LengthFault → Text
  | notMultipleOfFour => "Length must be a multiple of 4"

/-- The text of some bytes in lines of a given length; zero stands for a single line. -/
def encodeLines (bytes : List UInt8) (length : Int) : Except LengthFault Text :=
  if length < 0 ∨ length % 4 ≠ 0 then .error .notMultipleOfFour
  else if length = 0 then .ok (encode bytes)
  else
    .ok ((lines length.toNat (encode bytes)).flatMap (fun line => line ++ lineBreak) ++ lineBreak)

end PropertyToolkit.Base64
