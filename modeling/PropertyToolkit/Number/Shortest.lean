import PropertyToolkit.Number.Double

/-!
Floating-point numbers as text. A number is written with the fewest significant digits that read
back as the same number, and of those the ones nearest to it. Numbers from `10 ^ -4` up to `10 ^ 16`
are written with a point, the others with an exponent of at least two digits.
-/

set_option autoImplicit false

namespace PropertyToolkit.Double

/-- The digits of a decimal number and the position of its point: `0.digits * 10 ^ point`. -/
structure Decimal where
  digits : Text
  point : Int
deriving DecidableEq

/-- The least `j` from `start` on with `target ≤ n * 10 ^ j`, sought in `fuel` steps. -/
def raise (n target : Nat) : (fuel start : Nat) → Nat
  | 0, j => j
  | fuel + 1, j => if target ≤ n * Nat.pow 10 j then j else raise n target fuel (j + 1)

/-- The exponent of the leading decimal digit of a positive number of units. -/
def leadingExponent (units : Nat) : Int :=
  if one ≤ units then ((Nat.toDigits 10 (units / one)).length : Int) - 1
  else -(raise units one 400 0 : Int)

/-- The nearest number to `n * 10 ^ exponent`. -/
def ofScaled (negative : Bool) (n : Nat) (exponent : Int) : Double :=
  if exponent < 0 then ofRatio negative n (Nat.pow 10 exponent.natAbs)
  else ofRatio negative (n * Nat.pow 10 exponent.toNat) 1

/-- The numbers of grid points just below and just above a number of units, on the decimal grid of
step `10 ^ exponent`, with a flag that tells whether the first is the nearer one. -/
def neighbours (units : Nat) (exponent : Int) : Nat × Nat × Bool :=
  let n := if exponent < 0 then units * Nat.pow 10 exponent.natAbs else units
  let d := if exponent < 0 then one else one * Nat.pow 10 exponent.toNat
  let below := n / d
  let twice := 2 * (n % d)
  (below, below + 1, twice < d || (twice = d && below % 2 = 0))

/-- The grid point with `count` digits that reads back as the number, the nearer one of two. -/
def fit? (units count : Nat) : Option (Nat × Int) :=
  let exponent := leadingExponent units - (count - 1 : Nat)
  let (below, above, lowNearer) := neighbours units exponent
  let reads (n : Nat) : Bool := ofScaled false n exponent = finite false units
  if reads below && (lowNearer || !reads above) then some (below, exponent)
  else if reads above then some (above, exponent)
  else none

/-- The first fit of `count` digits or more, sought in `fuel` steps. -/
def fitFrom (units : Nat) : (fuel count : Nat) → Nat × Int
  | 0, _ => (units, -1074)
  | fuel + 1, count => (fit? units count).getD (fitFrom units fuel (count + 1))

/-- The decimal number with the fewest digits that reads back as a positive number of units. -/
def shortest (units : Nat) : Decimal :=
  let (n, exponent) := fitFrom units 17 1
  let written := Text.ofNat n
  ⟨written.trimEnd (· = '0'), exponent + written.length⟩

def zeros (count : Nat) : Text := List.replicate count '0'

/-- An exponent with its sign and at least two digits. -/
def exponentText (exponent : Int) : Text :=
  let digits := Text.ofNat exponent.natAbs
  (if exponent < 0 then ("-" : Text) else "+") ++ (zeros (2 - digits.length) ++ digits)

def Decimal.text (d : Decimal) : Text :=
  let count : Int := d.digits.length
  if d.point ≤ -4 ∨ 16 < d.point then
    let fraction := d.digits.drop 1
    d.digits.take 1 ++ ((if fraction = [] then [] else ("." : Text) ++ fraction) ++
      (("e" : Text) ++ exponentText (d.point - 1)))
  else if d.point ≤ 0 then ("0." : Text) ++ (zeros d.point.natAbs ++ d.digits)
  else if count ≤ d.point then d.digits ++ (zeros (d.point - count).toNat ++ (".0" : Text))
  else d.digits.take d.point.toNat ++ (("." : Text) ++ d.digits.drop d.point.toNat)

def text : Double → Text
  | nan => "nan"
  | infinite negative => if negative then "-inf" else "inf"
  | finite negative units =>
    (if negative then ("-" : Text) else []) ++
      (if units = 0 then ("0.0" : Text) else (shortest units).text)

/-- The digits at the start of a text, with single underscores between them, and the rest. -/
def mantissaRun (t : Text) : Option (List Nat × Text) :=
  if t.head? = some '_' then none else Integer.digitRun 10 t

/-- The part after an `e`: a sign and at least one digit, to the end of the text. -/
def readExponent? (t : Text) : Option Int :=
  let (negative, body) := Integer.cutSign t
  match mantissaRun body with
  | some (digit :: digits, []) =>
    let n : Nat := Text.value 10 (digit :: digits)
    some (if negative then -(n : Int) else n)
  | _ => none

/-- The number `0.digits * 10 ^ point`, where exponents far out of range are cut short. -/
def ofDigits (negative : Bool) (digits : List Nat) (exponent : Int) : Double :=
  let n := Text.value 10 digits
  let leading : Int := (Nat.toDigits 10 n).length + exponent
  if n = 0 ∨ leading < -400 then finite negative 0
  else if 400 < leading then infinite negative
  else ofScaled negative n exponent

/-- Reads digits with at most one point and an optional exponent. -/
def readDigits? (negative : Bool) (t : Text) : Option Double := do
  let (whole, afterWhole) ← mantissaRun t
  let (fraction, afterFraction) ←
    match afterWhole with
    | [] => some ([], [])
    | c :: rest => if c = '.' then mantissaRun rest else some ([], c :: rest)
  if whole = [] ∧ fraction = [] then none
  else
    let exponent ←
      match afterFraction with
      | [] => some 0
      | c :: rest => if c = 'e' ∨ c = 'E' then readExponent? rest else none
    some (ofDigits negative (whole ++ fraction) (exponent - fraction.length))

/-- The small forms of ASCII capitals. -/
def asciiLower (t : Text) : Text :=
  t.map fun c => if c.within 'A' 'Z' then (CodePoint.ofNat? (c.value + 32)).getD c else c

/-- Reads a whole text as a number: blanks around it, a sign, then decimal digits or one of the
words for infinity and NaN, in any case. -/
def read? (t : Text) : Option Double :=
  let (negative, body) := Integer.cutSign (t.trim CodePoint.isPadding)
  let word := asciiLower body
  if word = "inf" ∨ word = "infinity" then some (infinite negative)
  else if word = "nan" then some nan
  else readDigits? negative body

end PropertyToolkit.Double
