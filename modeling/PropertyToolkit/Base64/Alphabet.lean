import PropertyToolkit.Text.CodePoint

/-!
The alphabet of Base64: capital letters, small letters, the ten digits, plus and slash stand for the
numbers from 0 to 63 in this order.
-/

set_option autoImplicit false

namespace PropertyToolkit.Base64

/-- Six bits. -/
abbrev Sextet := Fin 64

/-- The last six bits of a number. -/
def lowSextet (n : Nat) : Sextet := ⟨n % 64, Nat.mod_lt n (by decide)⟩

def digit (n : Sextet) : CodePoint :=
  if n.val < 26 then Char.ofNat ('A'.toNat + n.val)
  else if n.val < 52 then Char.ofNat ('a'.toNat + (n.val - 26))
  else if n.val < 62 then Char.ofNat ('0'.toNat + (n.val - 52))
  else if n.val = 62 then '+' else '/'

/-- The number that a code point stands for. -/
def sextet? (c : CodePoint) : Option Sextet :=
  if c.within 'A' 'Z' then some (lowSextet (c.value - 'A'.toNat))
  else if c.within 'a' 'z' then some (lowSextet (c.value - 'a'.toNat + 26))
  else if c.within '0' '9' then some (lowSextet (c.value - '0'.toNat + 52))
  else if c = '+' then some 62
  else if c = '/' then some 63
  else none

def pad : CodePoint := '='

theorem sextet?_digit : ∀ n : Sextet, sextet? (digit n) = some n := by decide

end PropertyToolkit.Base64
