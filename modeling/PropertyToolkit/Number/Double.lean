import PropertyToolkit.Number.Integer

/-!
Floating-point numbers of double precision. A finite one is a whole number of units of `2 ^ -1074`
with at most 53 significant bits; results are rounded to the nearest such number, a tie to the one
whose last bit is zero. A zero keeps its sign.
-/

set_option autoImplicit false

namespace PropertyToolkit

/-- The quotient rounded to the nearest whole number, a tie to the even one. -/
def roundDiv (n d : Nat) : Nat :=
  let q := n / d
  let twice := 2 * (n % d)
  if twice < d then q else if d < twice then q + 1 else q + q % 2

inductive Double where
  | nan
  | infinite (negative : Bool)
  | finite (negative : Bool) (units : Nat)
deriving DecidableEq

namespace Double

/-- How many units make one. -/
def one : Nat := Nat.pow 2 1074

/-- The number of units from which on a number is infinite. -/
def limit : Nat := Nat.pow 2 2098

/-- The nearest number to `n / d`. -/
def ofRatio (negative : Bool) (n d : Nat) : Double :=
  let scaled := n * one
  let drop := (scaled / d).log2 + 1 - 53
  let units := roundDiv scaled (d * Nat.pow 2 drop) * Nat.pow 2 drop
  if units < limit then finite negative units else infinite negative

/-- The nearest number to a signed number of units over `one ^ power`. -/
def ofUnits (units : Int) (power : Nat) : Double :=
  ofRatio (units < 0) units.natAbs (one.pow power)

/-- The nearest number to an integer; `none` if it is out of range. -/
def ofInt? (n : Int) : Option Double :=
  match ofRatio (n < 0) n.natAbs 1 with
  | infinite _ => none
  | d => some d

def neg : Double → Double
  | nan => nan
  | infinite negative => infinite !negative
  | finite negative units => finite (!negative) units

def add : Double → Double → Double
  | nan, _ => nan
  | _, nan => nan
  | infinite a, infinite b => if a = b then infinite a else nan
  | infinite a, finite _ _ => infinite a
  | finite _ _, infinite b => infinite b
  | finite a m, finite b n =>
    if m = 0 ∧ n = 0 then finite (a && b) 0
    else
      let sum : Int := (if a then -(m : Int) else m) + (if b then -(n : Int) else n)
      ofUnits sum 1

def mul : Double → Double → Double
  | nan, _ => nan
  | _, nan => nan
  | finite a m, finite b n => ofRatio (a ^^ b) (m * n) (one.pow 2)
  | finite a m, infinite b => if m = 0 then nan else infinite (a ^^ b)
  | infinite a, finite b n => if n = 0 then nan else infinite (a ^^ b)
  | infinite a, infinite b => infinite (a ^^ b)

/-- Numeric equality: a zero equals the other zero, and nothing equals a NaN. -/
def same : Double → Double → Bool
  | nan, _ => false
  | _, nan => false
  | infinite a, infinite b => a = b
  | finite a m, finite b n => m = n && (m = 0 || a = b)
  | _, _ => false

/-- Equality with an integer, which is exact. -/
def sameInt : Double → Int → Bool
  | finite negative units, n =>
    units = n.natAbs * one && (units = 0 || negative = decide (n < 0))
  | _, _ => false

end Double

end PropertyToolkit
