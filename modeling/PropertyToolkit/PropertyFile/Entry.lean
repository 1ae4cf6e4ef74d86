import PropertyToolkit.PropertyFile.Line

/-!
The entry of a logical line. The key ends at the first separator or blank that no backslash stands
before. A separator, blanks around it, or blanks alone part it from the value. In both of them a
backslash takes the next code point with it.
-/

set_option autoImplicit false

namespace PropertyToolkit.PropertyFile

def isSeparator (c : CodePoint) : Bool := c = '=' || c = ':'

/-- The key at the start of a line, still escaped, and the rest of the line. -/
def cutKey : Text → Text × Text
  | [] => ([], [])
  | [c] => if isSeparator c || isBlank c then ([], [c]) else ([c], [])
  | c :: d :: rest =>
    if c = '\\' then
      let cut := cutKey rest
      (c :: d :: cut.1, cut.2)
    else if isSeparator c || isBlank c then ([], c :: d :: rest)
    else
      let cut := cutKey (d :: rest)
      (c :: cut.1, cut.2)

/-- What is left of a line after the separator and the blanks around it. -/
def dropSeparator (rest : Text) : Text :=
  match trimBlanks rest with
  | [] => []
  | c :: after => if isSeparator c then trimBlanks after else c :: after

/-- The key and the value of a logical line, both still escaped. -/
def splitEntry (line : Text) : Text × Text :=
  let cut := cutKey line
  (cut.1, dropSeparator cut.2)

/-- An escape by number without four hexadecimal digits; `digits` is what stands in their place. -/
structure MalformedEscape where
  digits : Text
deriving DecidableEq

/-- What a code point means after a backslash. -/
def escaped (c : CodePoint) : CodePoint :=
  if c = 't' then '\t' else if c = 'n' then '\n' else if c = 'r' then '\r'
  else if c = 'f' then '\x0c' else c

/-- The code point of four hexadecimal digits. -/
def ofHexDigits (a b c d : Fin 16) : CodePoint :=
  CodePoint.ofUnit ⟨a.val * 4096 + b.val * 256 + c.val * 16 + d.val, by omega⟩

/-- Resolves the escapes of a key or a value. A backslash at the very end stands for itself. -/
def unescape : Text → Except MalformedEscape Text
  | [] => .ok []
  | [c] => .ok [c]
  | c :: d :: rest =>
    if c = '\\' then
      if d = 'u' then
        match rest with
        | h₁ :: h₂ :: h₃ :: h₄ :: rest =>
          match h₁.hexDigit?, h₂.hexDigit?, h₃.hexDigit?, h₄.hexDigit? with
          | some n₁, some n₂, some n₃, some n₄ =>
            (unescape rest).map (ofHexDigits n₁ n₂ n₃ n₄ :: ·)
          | _, _, _, _ => .error ⟨[h₁, h₂, h₃, h₄]⟩
        | short => .error ⟨short⟩
      else (unescape rest).map (escaped d :: ·)
    else (unescape (d :: rest)).map (c :: ·)

end PropertyToolkit.PropertyFile
