import PropertyToolkit.Yaml.Cursor
import PropertyToolkit.Yaml.Fault

/-!
The text of scalars as they are written: plain, between quotes, and as blocks of lines. Line breaks
inside a plain or quoted scalar fold into one space, or into the breaks beyond the first. Loops run
on fuel that the length of the unread text covers.
-/

set_option autoImplicit false

namespace PropertyToolkit.Yaml

/-! Plain scalars. -/

def isFlowIndicator (c : CodePoint) : Bool :=
  c = ',' || c = '[' || c = ']' || c = '\x7b' || c = '\x7d'

/-- The code points up to the next blank or the next indicator that ends a plain scalar; `flow`
tells whether it stands inside brackets. -/
def plainRun (flow : Bool) : Text → Text
  | [] => []
  | c :: rest =>
    if isBoundary (some c) then []
    else if c = ':' && (isBoundary rest.head? || (flow && rest.head?.any isFlowIndicator)) then []
    else if flow && (isFlowIndicator c || c = '?') then []
    else c :: plainRun flow rest

/-- The breaks among the blanks before the next word; none where a document starts or ends. -/
def plainBreaks : (fuel : Nat) → Cursor → Text → Option Text × Cursor
  | 0, cursor, breaks => (some breaks, cursor)
  | fuel + 1, cursor, breaks =>
    if cursor.looksAt ' ' then plainBreaks fuel cursor.next breaks
    else if cursor.sees isBreak then
      let (one, cursor) := cursor.takeBreak
      if cursor.atDocumentMarker then (none, cursor) else plainBreaks fuel cursor (breaks ++ one)
    else (some breaks, cursor)

/-- What a line break and the breaks after it fold into. -/
def fold (first others : Text) : Text :=
  (if first ≠ "\n" then first else if others = [] then " " else []) ++ others

/-- What the blanks after a word fold into, and whether they hold a line break. -/
def plainSpaces (cursor : Cursor) : Text × Cursor × Bool :=
  let (blanks, cursor) := cursor.takeWhile fun c => c = ' '
  if cursor.sees isBreak then
    let (first, cursor) := cursor.takeBreak
    if cursor.atDocumentMarker then ([], cursor, true)
    else
      match plainBreaks (cursor.rest.length + 1) cursor [] with
      | (none, cursor) => ([], cursor, true)
      | (some others, cursor) => (fold first others, cursor, true)
  else (blanks, cursor, false)

/-- Reads words for as long as they belong to the scalar. The flag tells whether a line break was
read after the last one. -/
def plainWords (flow : Bool) (indent : Int) :
    (fuel : Nat) → Cursor → (read spaces : Text) → Bool → Text × Cursor × Bool
  | 0, cursor, read, _, broken => (read, cursor, broken)
  | fuel + 1, cursor, read, spaces, broken =>
    if cursor.looksAt '#' then (read, cursor, broken)
    else
      let run := plainRun flow cursor.rest
      if run = [] then (read, cursor, broken)
      else
        let read := read ++ (spaces ++ run)
        let (spaces, cursor, broken) := plainSpaces (cursor.forward run.length)
        if spaces = [] || cursor.looksAt '#' || (!flow && cursor.column < indent) then
          (read, cursor, broken)
        else plainWords flow indent fuel cursor read spaces broken

/-- Reads a plain scalar; `indent` is the least column of its further lines. -/
def plainScalar (flow : Bool) (indent : Int) (cursor : Cursor) : Text × Cursor × Bool :=
  plainWords flow indent (cursor.rest.length + 1) cursor [] [] false

/-! Quoted scalars. -/

/-- The escapes of a single letter. -/
def escapes : List (Char × Char) := [
  ('0', '\x00'), ('a', '\x07'), ('b', '\x08'), ('t', '\t'), ('\t', '\t'), ('n', '\n'),
  ('v', '\x0b'), ('f', '\x0c'), ('r', '\r'), ('e', '\x1b'), (' ', ' '), ('"', '"'), ('\\', '\\'),
  ('/', '/'),
  ('N', '\u0085'), ('_', '\u00a0'), ('L', '\u2028'), ('P', '\u2029')]

/-- The code point that a letter stands for after a backslash. -/
def escape? (c : CodePoint) : Option CodePoint :=
  (escapes.find? fun entry => c = entry.1).map fun entry => CodePoint.ofChar entry.2

/-- How many hexadecimal digits follow the letter of an escape by number. -/
def escapeWidth? (c : CodePoint) : Option Nat :=
  if c = 'x' then some 2 else if c = 'u' then some 4 else if c = 'U' then some 8 else none

/-- The number of exactly `width` hexadecimal digits at the start of a text. -/
def hexNumber? (width : Nat) (t : Text) : Option Nat :=
  if t.length < width then none
  else ((t.take width).mapM CodePoint.hexDigit?).map fun digits =>
    Text.value 16 (digits.map Fin.val)

/-- The code point of a number that an escape spells. -/
def escapedCodePoint (n : Nat) : Except Fault CodePoint :=
  match CodePoint.ofNat? n with
  | some c => .ok c
  | none => .error (if n < 0x80000000 then .codePointRange else .codePointOverflow)

/-- The breaks among the blanks of a quoted scalar. A document may not start or end there. -/
def quotedBreaks : (fuel : Nat) → Cursor → Text → Except Fault (Text × Cursor)
  | 0, _, _ => .error .malformed
  | fuel + 1, cursor, breaks =>
    if cursor.atDocumentMarker then .error .malformed
    else
      let cursor := cursor.skipWhile isSpaceOrTab
      if cursor.sees isBreak then
        let (one, cursor) := cursor.takeBreak
        quotedBreaks fuel cursor (breaks ++ one)
      else .ok (breaks, cursor)

/-- Reads an escape, from the code point after the backslash. -/
def quotedEscape (cursor : Cursor) : Except Fault (Text × Cursor) :=
  match cursor.head? with
  | none => .error .malformed
  | some c =>
    match escape? c, escapeWidth? c with
    | some meant, _ => .ok ([meant], cursor.next)
    | none, some width =>
      match hexNumber? width cursor.next.rest with
      | none => .error .malformed
      | some n => (escapedCodePoint n).map fun meant => ([meant], cursor.next.forward width)
    | none, none =>
      if isBreak c then quotedBreaks (cursor.rest.length + 1) cursor.takeBreak.2 []
      else .error .malformed

/-- Ends a stretch of a quoted scalar that holds no blanks. -/
def endsStretch (c : CodePoint) : Bool := c = '\'' || c = '"' || c = '\\' || isBoundary (some c)

/-- Reads a stretch of a quoted scalar without blanks. -/
def quotedStretch (double : Bool) : (fuel : Nat) → Cursor → Text → Except Fault (Text × Cursor)
  | 0, _, _ => .error .malformed
  | fuel + 1, cursor, read =>
    let (run, cursor) := cursor.takeWhile fun c => !endsStretch c
    let read := read ++ run
    match cursor.head? with
    | none => .ok (read, cursor)
    | some c =>
      if !double && c = '\'' && cursor.peek? 1 = some (CodePoint.ofChar '\'') then
        quotedStretch double fuel (cursor.forward 2) (read ++ [c])
      else if (double && c = '\'') || (!double && (c = '"' || c = '\\')) then
        quotedStretch double fuel cursor.next (read ++ [c])
      else if double && c = '\\' then
        match quotedEscape cursor.next with
        | .error fault => .error fault
        | .ok (meant, cursor) => quotedStretch double fuel cursor (read ++ meant)
      else .ok (read, cursor)

/-- What the blanks of a quoted scalar fold into. -/
def quotedSpaces (cursor : Cursor) : Except Fault (Text × Cursor) :=
  let (blanks, cursor) := cursor.takeWhile isSpaceOrTab
  match cursor.head? with
  | none => .error .malformed
  | some c =>
    if isBreak c then
      let (first, cursor) := cursor.takeBreak
      (quotedBreaks (cursor.rest.length + 1) cursor []).map fun read => (fold first read.1, read.2)
    else .ok (blanks, cursor)

/-- Reads stretches and blanks up to the closing quote. -/
def quotedParts (double : Bool) : (fuel : Nat) → Cursor → Text → Except Fault (Text × Cursor)
  | 0, _, _ => .error .malformed
  | fuel + 1, cursor, read =>
    if cursor.looksAt (if double then '"' else '\'') then .ok (read, cursor.next)
    else
      match quotedSpaces cursor with
      | .error fault => .error fault
      | .ok (spaces, cursor) =>
        match quotedStretch double (cursor.rest.length + 1) cursor [] with
        | .error fault => .error fault
        | .ok (stretch, cursor) => quotedParts double fuel cursor (read ++ (spaces ++ stretch))

/-- Reads a quoted scalar from its opening quote on. -/
def quotedScalar (double : Bool) (cursor : Cursor) : Except Fault (Text × Cursor) :=
  let fuel := cursor.rest.length + 1
  match quotedStretch double fuel cursor.next [] with
  | .error fault => .error fault
  | .ok (stretch, cursor) => quotedParts double fuel cursor stretch

/-! Block scalars. -/

/-- What becomes of the line breaks at the end of a block scalar. -/
inductive Chomping where
  | clip
  | strip
  | keep
deriving DecidableEq

/-- The indicators of a block scalar: how its end is chomped, and its indentation if it is given. -/
structure BlockHeader where
  chomping : Chomping
  increment : Option Nat

def chomping? (cursor : Cursor) : Option Chomping :=
  if cursor.looksAt '+' then some .keep else if cursor.looksAt '-' then some .strip else none

/-- A digit from 1 to 9; a zero is an error. -/
def increment? (cursor : Cursor) : Except Fault (Option Nat) :=
  match cursor.head?.bind fun c => if c.isAsciiDigit then c.asciiDigit? else none with
  | none => .ok none
  | some 0 => .error .malformed
  | some n => .ok (some n)

/-- Reads the indicators in either order, and the rest of their line. -/
def blockHeader (cursor : Cursor) : Except Fault (BlockHeader × Cursor) := do
  let (header, cursor) ←
    match chomping? cursor with
    | some chomping => do
      match ← increment? cursor.next with
      | none => pure (⟨chomping, none⟩, cursor.next)
      | some n => pure (⟨chomping, some n⟩, cursor.next.next)
    | none => do
      match ← increment? cursor with
      | none => pure (⟨.clip, none⟩, cursor)
      | some n =>
        match chomping? cursor.next with
        | none => pure (⟨.clip, some n⟩, cursor.next)
        | some chomping => pure (⟨chomping, some n⟩, cursor.next.next)
  if isGap cursor.head? then
    let cursor := cursor.skipSpaces.skipComment
    if isLineEnd cursor.head? then return (header, cursor.takeBreak.2) else throw .malformed
  else throw .malformed

/-- Reads the empty lines before the first one that is not, with the widest indentation so far. -/
def blockIndentation : (fuel : Nat) → Cursor → Text → Nat → Text × Nat × Cursor
  | 0, cursor, breaks, widest => (breaks, widest, cursor)
  | fuel + 1, cursor, breaks, widest =>
    if cursor.looksAt ' ' then
      blockIndentation fuel cursor.next breaks (max widest cursor.next.column)
    else if cursor.sees isBreak then
      let (one, cursor) := cursor.takeBreak
      blockIndentation fuel cursor (breaks ++ one) widest
    else (breaks, widest, cursor)

/-- Reads the spaces of a line up to the indentation of the block. -/
def blockSpaces (indent : Nat) : (fuel : Nat) → Cursor → Cursor
  | 0, cursor => cursor
  | fuel + 1, cursor =>
    if cursor.column < indent && cursor.looksAt ' ' then blockSpaces indent fuel cursor.next
    else cursor

/-- Reads empty lines, and the indentation of the line after them. -/
def blockBreaks (indent : Nat) : (fuel : Nat) → Cursor → Text → Text × Cursor
  | 0, cursor, breaks => (breaks, cursor)
  | fuel + 1, cursor, breaks =>
    let cursor := blockSpaces indent indent cursor
    if cursor.sees isBreak then
      let (one, cursor) := cursor.takeBreak
      blockBreaks indent fuel cursor (breaks ++ one)
    else (breaks, cursor)

/-- The lines of a block scalar so far, the break after the last one and the empty lines after
that. -/
structure BlockLines where
  read : Text
  lastBreak : Text
  breaks : Text

/-- Reads the lines of a block. In a folded block a break between two lines that start with no blank
becomes a space, or nothing where empty lines follow. -/
def blockLines (folded : Bool) (indent : Nat) :
    (fuel : Nat) → Cursor → BlockLines → BlockLines × Cursor
  | 0, cursor, lines => (lines, cursor)
  | fuel + 1, cursor, lines =>
    if cursor.column = indent ∧ cursor.rest ≠ [] then
      let flush := !cursor.sees isSpaceOrTab
      let (line, cursor) := cursor.takeWhile fun c => !isBreak c
      let read := lines.read ++ (lines.breaks ++ line)
      let (lastBreak, cursor) := cursor.takeBreak
      let (breaks, cursor) := blockBreaks indent (cursor.rest.length + 1) cursor []
      if cursor.column = indent ∧ cursor.rest ≠ [] then
        let joint : Text :=
          if folded && lastBreak = "\n" && flush && !cursor.sees isSpaceOrTab then
            if breaks = [] then " " else []
          else lastBreak
        blockLines folded indent fuel cursor ⟨read ++ joint, lastBreak, breaks⟩
      else (⟨read, lastBreak, breaks⟩, cursor)
    else (lines, cursor)

/-- Reads a block scalar from its indicator on; `indent` is the column of the block around it. -/
def blockScalar (folded : Bool) (indent : Int) (cursor : Cursor) :
    Except Fault (Text × Cursor) := do
  let (header, cursor) ← blockHeader cursor.next
  let least := (max (indent + 1) 1).toNat
  let fuel := cursor.rest.length + 1
  let (breaks, column, cursor) :=
    match header.increment with
    | none =>
      let (breaks, widest, cursor) := blockIndentation fuel cursor [] 0
      (breaks, max least widest, cursor)
    | some n =>
      let column := least + n - 1
      let (breaks, cursor) := blockBreaks column fuel cursor []
      (breaks, column, cursor)
  let (lines, cursor) := blockLines folded column fuel cursor ⟨[], [], breaks⟩
  let tail : Text :=
    match header.chomping with
    | .strip => []
    | .clip => lines.lastBreak
    | .keep => lines.lastBreak ++ lines.breaks
  return (lines.read ++ tail, cursor)

end PropertyToolkit.Yaml
