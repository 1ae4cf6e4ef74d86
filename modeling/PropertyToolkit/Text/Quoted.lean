import PropertyToolkit.Text.Printable

/-!
Quoted text. A text is written between single quotes, or between double quotes if it holds a single
quote and no double one. A backslash escapes the backslash, the quote in use, line feed, carriage
return and tab; code points that are not printable are written in hexadecimal, with the shortest of
the widths two, four and eight that holds them.
-/

set_option autoImplicit false

namespace PropertyToolkit.Text

/-- The last `width` digits of a number in hexadecimal, in lower case. -/
def hexDigits : (width n : Nat) → Text
  | 0, _ => []
  | width + 1, n => hexDigits width (n / 16) ++ [CodePoint.ofDigit (n % 16)]

/-- The hexadecimal escape of a code point. -/
def hexEscape (c : CodePoint) : Text :=
  if c.value < 0x100 then "\\x" ++ hexDigits 2 c.value
  else if c.value < 0x10000 then "\\u" ++ hexDigits 4 c.value
  else "\\U" ++ hexDigits 8 c.value

/-- The quote that a text is written in. -/
def quoteFor (t : Text) : CodePoint :=
  if t.contains '\'' && !t.contains '"' then '"' else '\''

def quotedCodePoint (quote c : CodePoint) : Text :=
  if c = quote then ['\\', c]
  else if c = '\\' then "\\\\"
  else if c = '\n' then "\\n"
  else if c = '\r' then "\\r"
  else if c = '\t' then "\\t"
  else if c.isPrintable then [c]
  else hexEscape c

def quoted (t : Text) : Text :=
  let quote := quoteFor t
  [quote] ++ t.flatMap (quotedCodePoint quote) ++ [quote]

/-- Bytes as the ASCII text that they spell, with hexadecimal escapes for the others. -/
def quotedBytes (bytes : List UInt8) : Text :=
  let t : Text := bytes.map fun b => CodePoint.ofNat? b.toNat |>.getD default
  let quote := quoteFor t
  let escaped (c : CodePoint) : Text :=
    if c.value < 0x7F then quotedCodePoint quote c else "\\x" ++ hexDigits 2 c.value
  "b" ++ ([quote] ++ t.flatMap escaped ++ [quote])

/-- The items of a list between brackets, parted by commas. -/
def bracketed (items : List Text) : Text :=
  "[" ++ List.intercalate ", " items ++ "]"

end PropertyToolkit.Text
