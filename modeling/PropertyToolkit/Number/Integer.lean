import PropertyToolkit.Text.Cut

/-!
Integers as text. They are written in decimal. A reader of a base from 2 to 36 takes blanks around
the number, a sign, digits of either case and of any script, and single underscores between digits;
in the bases 2, 8 and 16 the prefix of the base may come first. A number of more than 4300 digits is
refused, save in a base that is a power of two.
-/

set_option autoImplicit false

namespace PropertyToolkit

/-- The blanks that may stand around a number: all but the information separators. -/
def CodePoint.isPadding (c : CodePoint) : Bool := c.isBlank && !(0x1C ≤ c.value && c.value ≤ 0x1F)

namespace Text

def ofNat (n : Nat) : Text := (Nat.toDigits 10 n).map CodePoint.ofChar

def ofInt (n : Int) : Text := if n < 0 then "-" ++ ofNat n.natAbs else ofNat n.natAbs

/-- The number written by digits of a base, most significant first. -/
def value (base : Nat) (digits : List Nat) : Nat :=
  digits.foldl (fun n digit => n * base + digit) 0

end Text

namespace Integer

/-- The most digits that a number may have where their number is limited. -/
def maxDigits : Nat := 4300

inductive ReadFault where
  | malformed
  /-- The number has `digits` digits, too many to read. -/
  | tooLong (digits : Nat)
deriving DecidableEq

def tooLongMessage (digits : Nat) : Text :=
  "Exceeds the limit (" ++ Text.ofNat maxDigits ++
    " digits) for integer string conversion: value has " ++ Text.ofNat digits ++
    " digits; use sys.set_int_max_str_digits() to increase the limit"

/-- A number with too many digits cannot be written as a property either. -/
def isWritable (n : Int) : Bool := n.natAbs < Nat.pow 10 maxDigits

def unwritableMessage : Text :=
  "Exceeds the limit (" ++ Text.ofNat maxDigits ++
    " digits) for integer string conversion; use sys.set_int_max_str_digits() to increase the limit"

/-- Digits of other scripts count like the ASCII ones. -/
def digit? (c : CodePoint) : Option Nat :=
  if c.value < 0x80 then c.asciiDigit? else c.decimalDigit?

/-- The digits at the start of a text, with single underscores between them, and the rest. An
underscore that no digit follows is an error. -/
def digitRun (base : Nat) : Text → Option (List Nat × Text)
  | [] => some ([], [])
  | c :: rest =>
    if c = '_' then
      match rest with
      | [] => none
      | d :: tail =>
        match digit? d with
        | none => none
        | some n =>
          if n < base then (digitRun base tail).map fun run => (n :: run.1, run.2) else none
    else
      match digit? c with
      | none => some ([], c :: rest)
      | some n =>
        if n < base then (digitRun base rest).map fun run => (n :: run.1, run.2)
        else some ([], c :: rest)

/-- The letters that follow a zero in the prefix of a base. -/
def prefixLetters (base : Nat) : List CodePoint :=
  if base = 2 then ['b', 'B'] else if base = 8 then ['o', 'O']
  else if base = 16 then ['x', 'X'] else []

/-- Drops the prefix of a base and one underscore after it. -/
def dropBase (base : Nat) : Text → Text
  | first :: letter :: rest =>
    if first = '0' ∧ (prefixLetters base).contains letter then
      match rest with
      | mark :: tail => if mark = '_' then tail else rest
      | [] => []
    else first :: letter :: rest
  | t => t

def isPowerOfTwo (base : Nat) : Bool := base = 2 ∨ base = 4 ∨ base = 8 ∨ base = 16 ∨ base = 32

/-- Splits off a sign: whether it was a minus, and the rest. -/
def cutSign : Text → Bool × Text
  | [] => (false, [])
  | c :: rest =>
    if c = '-' then (true, rest) else if c = '+' then (false, rest) else (false, c :: rest)

/-- Reads a whole text as an integer. -/
def read (base : Nat) (t : Text) : Except ReadFault Int :=
  let (negative, unsigned) := cutSign (t.trim CodePoint.isPadding)
  let body := dropBase base unsigned
  if body.head? = some '_' then .error .malformed
  else
    match digitRun base body with
    | none => .error .malformed
    | some (digits, rest) =>
      if digits = [] then .error .malformed
      else if !isPowerOfTwo base && maxDigits < digits.length then .error (.tooLong digits.length)
      else if rest ≠ [] then .error .malformed
      else
        let n : Nat := Text.value base digits
        .ok (if negative then -(n : Int) else n)

end Integer

end PropertyToolkit
