import PropertyToolkit.Yaml.Token

/-!
From a YAML text to its tokens. Block collections have no brackets of their own: a column further to
the right opens one, and a smaller column closes those that start to the right of it. That a scalar
is a key is seen only at the colon after it, so the places where a key may have started are kept,
and the token for the key is put in there.
-/

set_option autoImplicit false

namespace PropertyToolkit.Yaml

/-- A place where a key may start: how many tokens come before it, whether nothing but a key may
start there, and its position. -/
structure KeyPlace where
  tokens : Nat
  required : Bool
  index : Nat
  line : Nat
  column : Nat

/-- The depth of brackets, the columns of the open block collections, innermost first, whether a key
may start, and per depth the last place where one could. -/
structure Lexer where
  cursor : Cursor
  depth : Nat
  indents : List Int
  keyAllowed : Bool
  places : List (Nat × KeyPlace)
  tokens : Array Token

abbrev Lex := Except Fault Lexer

namespace Lexer

def start (t : Text) : Lexer := ⟨.start t, 0, [-1], true, [], #[]⟩

def indent (lexer : Lexer) : Int := lexer.indents.headD (-1)

def emit (lexer : Lexer) (token : Token) : Lexer :=
  { lexer with tokens := lexer.tokens.push token }

/-- Skips spaces, comments and line breaks. Outside of brackets a key may start on a new line. -/
def skipToToken : (fuel : Nat) → Lexer → Lexer
  | 0, lexer => lexer
  | fuel + 1, lexer =>
    let cursor := lexer.cursor.skipSpaces.skipComment
    if cursor.sees isBreak then
      skipToToken fuel
        { lexer with
          cursor := cursor.takeBreak.2
          keyAllowed := lexer.keyAllowed || lexer.depth = 0 }
    else { lexer with cursor }

/-- A key that starts at some place would have to end on an earlier line, or be longer than 1024
code points. -/
def isStale (lexer : Lexer) (place : KeyPlace) : Bool :=
  place.line ≠ lexer.cursor.line || 1024 < lexer.cursor.index - place.index

/-- The places where a key may still have started, with their depths. -/
def livePlaces (lexer : Lexer) : List (Nat × KeyPlace) :=
  lexer.places.filter fun place => !lexer.isStale place.2

/-- Drops the stale places; one that requires a key is an error then. -/
def dropStale (lexer : Lexer) : Lex :=
  let blocked := lexer.places.any fun place => lexer.isStale place.2 && place.2.required
  if blocked then .error .malformed else .ok { lexer with places := lexer.livePlaces }

/-- Drops the place of the current depth; it may not require a key. -/
def dropPlace (lexer : Lexer) : Lex :=
  if lexer.places.any fun place => place.1 = lexer.depth && place.2.required then .error .malformed
  else .ok { lexer with places := lexer.places.filter fun place => place.1 ≠ lexer.depth }

/-- Keeps the current position as a place where a key may start, if one may. -/
def keepPlace (lexer : Lexer) : Lex :=
  if lexer.keyAllowed then do
    let lexer ← lexer.dropPlace
    let cursor := lexer.cursor
    let place : KeyPlace :=
      ⟨lexer.tokens.size, lexer.depth = 0 && lexer.indent = cursor.column, cursor.index,
        cursor.line, cursor.column⟩
    return { lexer with places := (lexer.depth, place) :: lexer.places }
  else return lexer

/-- Closes the block collections to the right of a column, unless inside of brackets. -/
def closeBlocks (lexer : Lexer) (column : Int) : Lexer :=
  if lexer.depth = 0 then
    let open_ := lexer.indents.takeWhile fun indent => column < indent
    { lexer with
      indents := lexer.indents.drop open_.length
      tokens := lexer.tokens ++ Array.replicate open_.length Token.blockEnd }
  else lexer

/-- Opens a block collection if the column is to the right of the current one. -/
def openBlock (lexer : Lexer) (column : Nat) (position : Nat) (token : Token) : Lexer :=
  if lexer.indent < column then
    { lexer with
      indents := (column : Int) :: lexer.indents
      tokens := lexer.tokens.insertIdxIfInBounds position token }
  else lexer

/-- Reads past some code points and emits a token for them. -/
def take (lexer : Lexer) (count : Nat) (token : Token) : Lexer :=
  { lexer with cursor := lexer.cursor.forward count }.emit token

def streamEnd (lexer : Lexer) : Lex := do
  let lexer ← (lexer.closeBlocks (-1)).dropPlace
  return { lexer with keyAllowed := false, places := [] }.emit .streamEnd

def directive (lexer : Lexer) : Lex := do
  let lexer ← (lexer.closeBlocks (-1)).dropPlace
  let (token, cursor) ← lexer.cursor.directive
  return { lexer with cursor, keyAllowed := false }.emit token

def documentMarker (lexer : Lexer) (token : Token) : Lex := do
  let lexer ← (lexer.closeBlocks (-1)).dropPlace
  return { lexer with keyAllowed := false }.take 3 token

def openBracket (lexer : Lexer) (token : Token) : Lex := do
  let lexer ← lexer.keepPlace
  return { lexer with depth := lexer.depth + 1, keyAllowed := true }.take 1 token

def closeBracket (lexer : Lexer) (token : Token) : Lex := do
  let lexer ← lexer.dropPlace
  return { lexer with depth := lexer.depth - 1, keyAllowed := false }.take 1 token

def flowEntry (lexer : Lexer) : Lex := do
  let lexer ← { lexer with keyAllowed := true }.dropPlace
  return lexer.take 1 .flowEntry

/-- Outside of brackets, opens a block collection where a key may start. -/
def openHere (lexer : Lexer) (token : Token) : Lex :=
  if lexer.depth = 0 then
    if lexer.keyAllowed then .ok (lexer.openBlock lexer.cursor.column lexer.tokens.size token)
    else .error .malformed
  else .ok lexer

def blockEntry (lexer : Lexer) : Lex := do
  let lexer ← lexer.openHere .blockSequenceStart
  let lexer ← { lexer with keyAllowed := true }.dropPlace
  return lexer.take 1 .blockEntry

def key (lexer : Lexer) : Lex := do
  let lexer ← lexer.openHere .blockMappingStart
  let lexer ← { lexer with keyAllowed := lexer.depth = 0 }.dropPlace
  return lexer.take 1 .key

/-- A colon makes a key of what started at the kept place. -/
def value (lexer : Lexer) : Lex := do
  match lexer.places.find? fun place => place.1 = lexer.depth with
  | some (_, place) =>
    let lexer :=
      { lexer with
        places := lexer.places.filter fun place => place.1 ≠ lexer.depth
        tokens := lexer.tokens.insertIdxIfInBounds place.tokens .key
        keyAllowed := false }
    let lexer :=
      if lexer.depth = 0 then lexer.openBlock place.column place.tokens .blockMappingStart
      else lexer
    return lexer.take 1 .value
  | none =>
    let lexer ← lexer.openHere .blockMappingStart
    let lexer ← { lexer with keyAllowed := lexer.depth = 0 }.dropPlace
    return lexer.take 1 .value

/-- Emits a token that may be a key or the start of one. -/
def keyable (lexer : Lexer) (read : Cursor → Except Fault (Token × Cursor)) : Lex := do
  let lexer ← lexer.keepPlace
  let (token, cursor) ← read lexer.cursor
  return { lexer with cursor, keyAllowed := false }.emit token

def plain (lexer : Lexer) : Lex := do
  let lexer ← lexer.keepPlace
  let (t, cursor, broken) := plainScalar (0 < lexer.depth) (lexer.indent + 1) lexer.cursor
  return { lexer with cursor, keyAllowed := broken }.emit (.scalar true t)

def quoted (lexer : Lexer) (double : Bool) : Lex :=
  lexer.keyable fun cursor =>
    (quotedScalar double cursor).map fun read => (.scalar false read.1, read.2)

def block (lexer : Lexer) (folded : Bool) : Lex := do
  let lexer ← { lexer with keyAllowed := true }.dropPlace
  let (t, cursor) ← blockScalar folded lexer.indent lexer.cursor
  return { lexer with cursor }.emit (.scalar false t)

/-- A plain scalar may start here. Some indicators start one if no boundary follows. -/
def startsPlain (lexer : Lexer) (c : CodePoint) : Bool :=
  !(isBoundary (some c) || ("-?:,[]\x7b\x7d#&*!|>'\"%@\x60" : Text).contains c) ||
    (!isBoundary (lexer.cursor.peek? 1) &&
      (c = '-' || (lexer.depth = 0 && (c = '?' || c = ':'))))

/-- Reads the token that starts with a given code point. -/
def readToken (lexer : Lexer) (c : CodePoint) : Lex :=
  let cursor := lexer.cursor
  let followed := isBoundary (cursor.peek? 1)
  let inBrackets : Bool := 0 < lexer.depth
  if c = '%' && cursor.column = 0 then lexer.directive
  else if cursor.column = 0 && cursor.atMarker "---" then lexer.documentMarker .documentStart
  else if cursor.column = 0 && cursor.atMarker "..." then lexer.documentMarker .documentEnd
  else if c = '[' then lexer.openBracket .flowSequenceStart
  else if c = '\x7b' then lexer.openBracket .flowMappingStart
  else if c = ']' then lexer.closeBracket .flowSequenceEnd
  else if c = '\x7d' then lexer.closeBracket .flowMappingEnd
  else if c = ',' then lexer.flowEntry
  else if c = '-' && followed then lexer.blockEntry
  else if c = '?' && (inBrackets || followed) then lexer.key
  else if c = ':' && (inBrackets || followed) then lexer.value
  else if c = '*' then
    lexer.keyable fun cursor => cursor.next.anchorName.map fun read => (.alias read.1, read.2)
  else if c = '&' then
    lexer.keyable fun cursor => cursor.next.anchorName.map fun read => (.anchor read.1, read.2)
  else if c = '!' then lexer.keyable Cursor.tag
  else if c = '|' && !inBrackets then lexer.block false
  else if c = '>' && !inBrackets then lexer.block true
  else if c = '\'' then lexer.quoted false
  else if c = '"' then lexer.quoted true
  else if lexer.startsPlain c then lexer.plain
  else .error .malformed

/-- Reads one token, with those that the layout implies before it. -/
def step (lexer : Lexer) : Lex := do
  let lexer ← (lexer.skipToToken (lexer.cursor.rest.length + 1)).dropStale
  let lexer := lexer.closeBlocks lexer.cursor.column
  match lexer.cursor.head? with
  | none => lexer.streamEnd
  | some c => lexer.readToken c

end Lexer

/-- The tokens of a text up to its end or to its first fault. -/
structure TokenStream where
  tokens : List Token
  fault : Option Fault

namespace Lexer

/-- The tokens that are settled where a fault ends the reading: those before any place where a key
may still have started, since the token for the key would go in there. -/
def settled (lexer : Lexer) : List Token :=
  lexer.tokens.toList.take
    (lexer.livePlaces.foldl (fun least place => min least place.2.tokens) lexer.tokens.size)

/-- Reads tokens to the end of the text. -/
def run : (fuel : Nat) → Lexer → TokenStream
  | 0, lexer => ⟨lexer.settled, some .malformed⟩
  | fuel + 1, lexer =>
    match lexer.step with
    | .error fault => ⟨lexer.settled, some fault⟩
    | .ok next =>
      if next.tokens.back? = some .streamEnd then ⟨next.tokens.toList, none⟩ else run fuel next

end Lexer

/-- A byte order mark at the start of a text is no part of it. -/
def Cursor.skipByteOrderMark (cursor : Cursor) : Cursor :=
  if cursor.looksAt '\uFEFF' then cursor.next else cursor

/-- The tokens of a text. A text with a code point that is not allowed has none. -/
def TokenStream.ofText (t : Text) : TokenStream :=
  if t.all isAllowed then
    let lexer := Lexer.start t
    { lexer with cursor := lexer.cursor.skipByteOrderMark }.run (t.length + 2)
  else ⟨[], some .malformed⟩

end PropertyToolkit.Yaml
