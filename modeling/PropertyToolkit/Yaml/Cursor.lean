import PropertyToolkit.Text.CodePoint

/-!
A place in a YAML text: what is still unread, how much was read, and the line and column. A carriage
return, a line feed, both together, a next-line, a line separator or a paragraph separator ends a
line. A byte order mark takes no column.
-/

set_option autoImplicit false

namespace PropertyToolkit.Yaml

def isBreak (c : CodePoint) : Bool :=
  c = '\n' || c = '\r' || c = '\u0085' || c = '\u2028' || c = '\u2029'

def isSpaceOrTab (c : CodePoint) : Bool := c = ' ' || c = '\t'

/-- The end of the text, a space, a tab or a line break. -/
def isBoundary : Option CodePoint → Bool
  | none => true
  | some c => isSpaceOrTab c || isBreak c

/-- The end of the text, a space or a line break. -/
def isGap : Option CodePoint → Bool
  | none => true
  | some c => c = ' ' || isBreak c

/-- The end of the text or a line break. -/
def isLineEnd : Option CodePoint → Bool
  | none => true
  | some c => isBreak c

/-- The code points that a YAML text may hold. -/
def isAllowed (c : CodePoint) : Bool :=
  c = '\t' || c = '\n' || c = '\r' || c.within ' ' '~' || c = '\u0085' ||
    (0xA0 ≤ c.value && c.value ≤ 0xD7FF) || (0xE000 ≤ c.value && c.value ≤ 0xFFFD) ||
    0x10000 ≤ c.value

/-- The code points of the names of anchors, directives and tag handles. -/
def isWord (c : CodePoint) : Bool := c.isAsciiDigit || c.isAsciiLetter || c = '-' || c = '_'

structure Cursor where
  rest : Text
  index : Nat
  line : Nat
  column : Nat

namespace Cursor

def start (t : Text) : Cursor := ⟨t, 0, 0, 0⟩

def peek? (cursor : Cursor) (n : Nat) : Option CodePoint := cursor.rest[n]?

def head? (cursor : Cursor) : Option CodePoint := cursor.rest.head?

/-- The next code point satisfies a condition. -/
def sees (cursor : Cursor) (p : CodePoint → Bool) : Bool := cursor.head?.any p

/-- The next code point is a given one. -/
def looksAt (cursor : Cursor) (c : CodePoint) : Bool := cursor.head? = some c

/-- Reads one code point. -/
def next (cursor : Cursor) : Cursor :=
  match cursor.rest with
  | [] => cursor
  | c :: rest =>
    if isBreak c && !(c = '\r' && rest.head? = some (CodePoint.ofChar '\n')) then
      ⟨rest, cursor.index + 1, cursor.line + 1, 0⟩
    else if c = '\uFEFF' then ⟨rest, cursor.index + 1, cursor.line, cursor.column⟩
    else ⟨rest, cursor.index + 1, cursor.line, cursor.column + 1⟩

/-- Reads some code points. -/
def forward (cursor : Cursor) : Nat → Cursor
  | 0 => cursor
  | n + 1 => cursor.next.forward n

/-- Reads the code points of a class. -/
def takeWhile (cursor : Cursor) (p : CodePoint → Bool) : Text × Cursor :=
  let taken := cursor.rest.takeWhile p
  (taken, cursor.forward taken.length)

def skipWhile (cursor : Cursor) (p : CodePoint → Bool) : Cursor := (cursor.takeWhile p).2

def skipSpaces (cursor : Cursor) : Cursor := cursor.skipWhile fun c => c = ' '

/-- Reads the rest of a line if it is a comment. -/
def skipComment (cursor : Cursor) : Cursor :=
  if cursor.looksAt '#' then cursor.skipWhile fun c => !isBreak c else cursor

/-- Reads a line break, if there is one. All but the two separators become a line feed. -/
def takeBreak (cursor : Cursor) : Text × Cursor :=
  match cursor.rest with
  | c :: rest =>
    if c = '\r' ∧ rest.head? = some (CodePoint.ofChar '\n') then ("\n", cursor.forward 2)
    else if c = '\u2028' ∨ c = '\u2029' then ([c], cursor.next)
    else if isBreak c then ("\n", cursor.next)
    else ([], cursor)
  | [] => ([], cursor)

/-- A marker stands here, and a boundary after it. -/
def atMarker (cursor : Cursor) (marker : Text) : Bool :=
  cursor.rest.take marker.length = marker && isBoundary (cursor.peek? marker.length)

/-- A document starts or ends here. -/
def atDocumentMarker (cursor : Cursor) : Bool := cursor.atMarker "---" || cursor.atMarker "..."

end Cursor

end PropertyToolkit.Yaml
