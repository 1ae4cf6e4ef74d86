import PropertyToolkit.Text.Utf8
import PropertyToolkit.Yaml.ScalarText

/-!
The tokens of a YAML text, and those that a cursor can read on its own: directives, anchors, aliases
and tags.
-/

set_option autoImplicit false

namespace PropertyToolkit.Yaml

inductive Token where
  | streamEnd
  | version (major minor : Int)
  | tagDirective (handle start : Text)
  | reservedDirective
  | documentStart
  | documentEnd
  | blockSequenceStart
  | blockMappingStart
  | blockEnd
  | flowSequenceStart
  | flowSequenceEnd
  | flowMappingStart
  | flowMappingEnd
  | blockEntry
  | flowEntry
  | key
  | value
  | alias (name : Text)
  | anchor (name : Text)
  | tag (handle : Option Text) (suffix : Text)
  | scalar (plain : Bool) (t : Text)
deriving DecidableEq

namespace Cursor

/-- Reads a word of at least one code point. -/
def word (cursor : Cursor) : Except Fault (Text × Cursor) :=
  match cursor.takeWhile isWord with
  | ([], _) => .error .malformed
  | (name, cursor) => .ok (name, cursor)

/-- The cursor, if its next code point satisfies a condition; the end may satisfy it too. -/
def expect (cursor : Cursor) (p : Option CodePoint → Bool) : Except Fault Cursor :=
  if p cursor.head? then .ok cursor else .error .malformed

/-- Reads the name of an anchor or an alias, after its indicator. -/
def anchorName (cursor : Cursor) : Except Fault (Text × Cursor) := do
  let (name, cursor) ← cursor.word
  let cursor ← cursor.expect fun c? =>
    isBoundary c? || c?.any fun c => ("?:,]\x7d%@\x60" : Text).contains c
  return (name, cursor)

/-- The code points of a tag, where a percent sign starts an escaped byte. -/
def isUri (c : CodePoint) : Bool :=
  isWord c || (";/?:@&=+$,.!~*'()[]%" : Text).contains c

/-- Reads bytes written as a percent sign and two hexadecimal digits each. -/
def escapedBytes : (fuel : Nat) → Cursor → List UInt8 → Except Fault (List UInt8 × Cursor)
  | 0, _, _ => .error .malformed
  | fuel + 1, cursor, bytes =>
    if cursor.looksAt '%' then
      match hexNumber? 2 cursor.next.rest with
      | none => .error .malformed
      | some n => escapedBytes fuel (cursor.forward 3) (bytes ++ [UInt8.ofNat n])
    else .ok (bytes, cursor)

def uriParts : (fuel : Nat) → Cursor → Text → Except Fault (Text × Cursor)
  | 0, _, _ => .error .malformed
  | fuel + 1, cursor, read =>
    let (run, cursor) := cursor.takeWhile fun c => isUri c && !(c = '%')
    let read := read ++ run
    if cursor.looksAt '%' then
      match escapedBytes (cursor.rest.length + 1) cursor [] with
      | .error fault => .error fault
      | .ok (bytes, cursor) =>
        match Utf8.decode bytes with
        | .error _ => .error .malformed
        | .ok t => uriParts fuel cursor (read ++ t)
    else .ok (read, cursor)

/-- Reads the characters of a tag; at least one has to be there. -/
def uri (cursor : Cursor) : Except Fault (Text × Cursor) :=
  if cursor.sees isUri then uriParts (cursor.rest.length + 1) cursor [] else .error .malformed

/-- Reads a tag handle: an exclamation mark, or a word between two of them. -/
def tagHandle (cursor : Cursor) : Except Fault (Text × Cursor) :=
  if !cursor.looksAt '!' then .error .malformed
  else if cursor.next.looksAt ' ' then .ok ("!", cursor.next)
  else
    let (name, after) := cursor.next.takeWhile isWord
    if after.looksAt '!' then .ok ("!" ++ (name ++ "!"), after.next) else .error .malformed

/-- Reads a tag from its exclamation mark on. -/
def tag (cursor : Cursor) : Except Fault (Token × Cursor) := do
  let (token, cursor) ←
    if cursor.next.looksAt '<' then do
      let (suffix, cursor) ← cursor.next.next.uri
      if cursor.looksAt '>' then pure (Token.tag none suffix, cursor.next) else throw .malformed
    else if isBoundary cursor.next.head? then pure (Token.tag none "!", cursor.next)
    else
      let upToGap : Text := cursor.next.rest.takeWhile fun c => !isGap (some c)
      if upToGap.contains '!' then do
        let (handle, cursor) ← cursor.tagHandle
        let (suffix, cursor) ← cursor.uri
        pure (Token.tag (some handle) suffix, cursor)
      else do
        let (suffix, cursor) ← cursor.next.uri
        pure (Token.tag (some "!") suffix, cursor)
  let cursor ← cursor.expect isGap
  return (token, cursor)

/-- Reads a number of a version. -/
def versionNumber (cursor : Cursor) : Except Fault (Int × Cursor) :=
  let (digits, after) := cursor.takeWhile CodePoint.isAsciiDigit
  match Integer.read 10 digits with
  | .ok n => .ok (n, after)
  | .error .malformed => .error .malformed
  | .error (.tooLong digits) => .error (.tooLong digits)

def version (cursor : Cursor) : Except Fault (Token × Cursor) := do
  let (major, cursor) ← cursor.skipSpaces.versionNumber
  if cursor.looksAt '.' then
    let (minor, cursor) ← cursor.next.versionNumber
    let cursor ← cursor.expect isGap
    return (.version major minor, cursor)
  else throw .malformed

def tagDirective (cursor : Cursor) : Except Fault (Token × Cursor) := do
  let (handle, cursor) ← cursor.skipSpaces.tagHandle
  let cursor ← cursor.expect fun c? => c? = some (CodePoint.ofChar ' ')
  let (start, cursor) ← cursor.skipSpaces.uri
  let cursor ← cursor.expect isGap
  return (.tagDirective handle start, cursor)

/-- Reads a directive from its percent sign on, with the rest of its line. -/
def directive (cursor : Cursor) : Except Fault (Token × Cursor) := do
  let (name, cursor) ← cursor.next.word
  let cursor ← cursor.expect isGap
  let (token, cursor) ←
    if name = "YAML" then cursor.version
    else if name = "TAG" then cursor.tagDirective
    else pure (Token.reservedDirective, cursor.skipWhile fun c => !isBreak c)
  let cursor ← cursor.skipSpaces.skipComment.expect isLineEnd
  return (token, cursor.takeBreak.2)

end Cursor

end PropertyToolkit.Yaml
