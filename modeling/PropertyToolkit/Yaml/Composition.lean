import PropertyToolkit.Table
import PropertyToolkit.Yaml.Graph
import PropertyToolkit.Yaml.Lexer

/-!
From the tokens of a YAML text to the graph of its document. A text holds at most one document. The
depth of the recursion is bounded by fuel that the number of tokens covers.
-/

set_option autoImplicit false

namespace PropertyToolkit.Yaml

/-- The tokens still to be read, the nodes so far, the anchors with their nodes, and what tag
handles stand for. -/
structure Composer where
  stream : TokenStream
  graph : Graph
  anchors : Table Text NodeId
  handles : Table Text Text

abbrev Compose := StateT Composer (Except Fault)

namespace Compose

/-- The next token. Past the last one there is the fault that ended the reading. -/
def peek : Compose Token := do
  match (← get).stream with
  | ⟨token :: _, _⟩ => return token
  | ⟨[], fault⟩ => throw (fault.getD .malformed)

def skip : Compose Unit :=
  modify fun s => { s with stream := { s.stream with tokens := s.stream.tokens.tail } }

/-- Reads the next token if it is a given one. -/
def accept (token : Token) : Compose Bool := do
  if (← peek) = token then
    skip
    return true
  else return false

def expect (token : Token) : Compose Unit := do
  if !(← accept token) then throw .malformed

def looksAt (tokens : List Token) : Compose Bool := return tokens.contains (← peek)

/-- Adds a node, under its anchor if it has one. An anchor may be set only once. -/
def add (anchor : Option Text) (node : Node) : Compose NodeId := do
  let s ← get
  let id := s.graph.size
  match anchor with
  | none => set { s with graph := s.graph.push node }
  | some name =>
    if s.anchors.contains name then throw .malformed
    else set { s with graph := s.graph.push node, anchors := s.anchors.put name id }
  return id

/-- Gives a node its content. -/
def fill (id : NodeId) (content : Content) : Compose Unit :=
  modify fun s => { s with graph := s.graph.modify id fun node => { node with content } }

/-- A scalar that is not written. -/
def emptyScalar : Compose NodeId := add none ⟨Tag.ofPlain [], .scalar []⟩

/-- The full name of a tag. -/
def tagName (handle : Option Text) (suffix : Text) : Compose Text := do
  match handle with
  | none => return suffix
  | some handle =>
    match (← get).handles.get? handle with
    | none => throw .malformed
    | some start => return start ++ suffix

/-- What may stand before a node: an anchor and a tag, in either order. -/
structure Properties where
  anchor : Option Text
  tag : Option Text

def anchor? : Compose (Option Text) := do
  match ← peek with
  | .anchor name => do
    skip
    return some name
  | _ => return none

def tag? : Compose (Option (Option Text × Text)) := do
  match ← peek with
  | .tag handle suffix => do
    skip
    return some (handle, suffix)
  | _ => return none

def properties : Compose Properties := do
  let first ← anchor?
  let tag ← tag?
  let anchor ← if first = none ∧ tag ≠ none then anchor? else pure first
  match tag with
  | none => return ⟨anchor, none⟩
  | some (handle, suffix) => return ⟨anchor, some (← tagName handle suffix)⟩

/-- The tag is left to the reader. -/
def Properties.isOpen (p : Properties) : Bool := p.tag = none || p.tag = some (Text.ofString "!")

/-- The tag of a scalar: a plain one without a tag, and any with the tag `!`, gets it by its
text. -/
def Properties.scalarTag (p : Properties) (plain : Bool) (t : Text) : Tag :=
  match p.tag with
  | none => if plain then Tag.ofPlain t else .str
  | some name => if name = "!" then Tag.ofPlain t else Tag.ofName name

def Properties.collectionTag (p : Properties) (otherwise : Tag) : Tag :=
  match p.tag with
  | none => otherwise
  | some name => if name = "!" then otherwise else Tag.ofName name

/-- Composes a sequence or a mapping: the node stands before its items, which may refer to it. -/
def collection (p : Properties) (otherwise : Tag) (items : Compose Content) : Compose NodeId := do
  let empty : Content := if otherwise = .map then .mapping [] else .sequence []
  let id ← add p.anchor ⟨p.collectionTag otherwise, empty⟩
  fill id (← items)
  return id

/-- Where a node may stand: as an item of a block, where block collections may start; as part of a
block mapping, where a sequence need not be indented as well; or inside brackets. -/
inductive Place where
  | block
  | entry
  | flow
deriving DecidableEq

mutual

def node : (fuel : Nat) → Place → Compose NodeId
  | 0, _ => throw .malformed
  | fuel + 1, place => do
    match ← peek with
    | .alias name => do
      skip
      match (← get).anchors.get? name with
      | none => throw .malformed
      | some id => return id
    | _ => do
      let p ← properties
      match ← peek, place with
      | .blockEntry, .entry => collection p .seq (.sequence <$> openSequence fuel)
      | .scalar plain t, _ => do
        skip
        add p.anchor ⟨p.scalarTag plain t, .scalar t⟩
      | .flowSequenceStart, _ => do
        skip
        collection p .seq (.sequence <$> flowSequence fuel true)
      | .flowMappingStart, _ => do
        skip
        collection p .map (.mapping <$> flowMapping fuel true)
      | .blockSequenceStart, .block | .blockSequenceStart, .entry => do
        skip
        collection p .seq (.sequence <$> blockSequence fuel)
      | .blockMappingStart, .block | .blockMappingStart, .entry => do
        skip
        collection p .map (.mapping <$> blockMapping fuel)
      | _, _ =>
        if p.anchor = none ∧ p.tag = none then throw .malformed
        else add p.anchor ⟨p.scalarTag p.isOpen [], .scalar []⟩

/-- A node, or an empty scalar where one of the given tokens comes next. -/
def nodeUnless (fuel : Nat) (ends : List Token) (place : Place) : Compose NodeId :=
  match fuel with
  | 0 => throw .malformed
  | fuel + 1 => do
    if ← looksAt ends then emptyScalar else node fuel place

def blockSequence : (fuel : Nat) → Compose (List NodeId)
  | 0 => throw .malformed
  | fuel + 1 => do
    if ← accept .blockEntry then
      let item ← nodeUnless fuel [.blockEntry, .blockEnd] .block
      return item :: (← blockSequence fuel)
    else
      expect .blockEnd
      return []

/-- The items of a sequence that is not indented against the mapping around it. -/
def openSequence : (fuel : Nat) → Compose (List NodeId)
  | 0 => throw .malformed
  | fuel + 1 => do
    if ← accept .blockEntry then
      let item ← nodeUnless fuel [.blockEntry, .key, .value, .blockEnd] .block
      return item :: (← openSequence fuel)
    else return []

def blockMapping : (fuel : Nat) → Compose (List (NodeId × NodeId))
  | 0 => throw .malformed
  | fuel + 1 => do
    match ← peek with
    | .key => do
      skip
      let key ← nodeUnless fuel [.key, .value, .blockEnd] .entry
      let value ←
        if ← accept .value then nodeUnless fuel [.key, .value, .blockEnd] .entry else emptyScalar
      return (key, value) :: (← blockMapping fuel)
    | _ => do
      expect .blockEnd
      return []

def flowSequence : (fuel : Nat) → (first : Bool) → Compose (List NodeId)
  | 0, _ => throw .malformed
  | fuel + 1, first => do
    if ← accept .flowSequenceEnd then return []
    else
      if !first then expect .flowEntry
      match ← peek with
      | .key => do
        skip
        let item ← collection ⟨none, none⟩ .map do
          let key ← nodeUnless fuel [.value, .flowEntry, .flowSequenceEnd] .flow
          let value ←
            if ← accept .value then nodeUnless fuel [.flowEntry, .flowSequenceEnd] .flow
            else emptyScalar
          return .mapping [(key, value)]
        return item :: (← flowSequence fuel false)
      | .flowSequenceEnd => do
        skip
        return []
      | _ => do
        let item ← node fuel .flow
        return item :: (← flowSequence fuel false)

def flowMapping : (fuel : Nat) → (first : Bool) → Compose (List (NodeId × NodeId))
  | 0, _ => throw .malformed
  | fuel + 1, first => do
    if ← accept .flowMappingEnd then return []
    else
      if !first then expect .flowEntry
      match ← peek with
      | .key => do
        skip
        let key ← nodeUnless fuel [.value, .flowEntry, .flowMappingEnd] .flow
        let value ←
          if ← accept .value then nodeUnless fuel [.flowEntry, .flowMappingEnd] .flow
          else emptyScalar
        return (key, value) :: (← flowMapping fuel false)
      | .flowMappingEnd => do
        skip
        return []
      | _ => do
        let key ← node fuel .flow
        let value ← emptyScalar
        return (key, value) :: (← flowMapping fuel false)

end

/-- What tag handles stand for without a directive. -/
def defaultHandles : Table Text Text :=
  Table.ofList [(Text.ofString "!", Text.ofString "!"), (Text.ofString "!!", Tag.space)]

/-- Reads the directives of a document; `versioned` tells whether a version was given already. -/
def directives : (fuel : Nat) → (versioned : Bool) → Table Text Text → Compose (Table Text Text)
  | 0, _, _ => throw .malformed
  | fuel + 1, versioned, handles => do
    match ← peek with
    | .version major _ => do
      skip
      if versioned || major ≠ 1 then throw .malformed
      directives fuel true handles
    | .tagDirective handle start => do
      skip
      if handles.contains handle then throw .malformed
      directives fuel versioned (handles.put handle start)
    | .reservedDirective => do
      skip
      directives fuel versioned handles
    | _ => return handles

def skipDocumentEnds : (fuel : Nat) → Compose Unit
  | 0 => return ()
  | fuel + 1 => do
    if ← accept .documentEnd then skipDocumentEnds fuel

/-- The start of a document that is marked, or its absence at the end of the text. -/
def documentStart? (fuel : Nat) : Compose Bool := do
  skipDocumentEnds fuel
  match ← peek with
  | .streamEnd => return false
  | _ => do
    let handles ← directives fuel false Table.empty
    modify fun s => { s with handles := defaultHandles.update handles }
    expect .documentStart
    return true

def isDirective : Token → Bool
  | .version .. | .tagDirective .. | .reservedDirective => true
  | _ => false

/-- The root of a marked document, which may be empty. -/
def documentContent (fuel : Nat) : Compose NodeId := do
  let token ← peek
  if isDirective token || [Token.documentStart, .documentEnd, .streamEnd].contains token then
    emptyScalar
  else node fuel .block

/-- The root of the only document; none in a text without a document. -/
def single (fuel : Nat) : Compose (Option NodeId) := do
  let token ← peek
  let root ←
    if isDirective token || token = .documentStart || token = .streamEnd then do
      if ← documentStart? fuel then some <$> documentContent fuel else pure none
    else some <$> node fuel .block
  if root = none then return none
  let _ ← accept .documentEnd
  if ← documentStart? fuel then throw .malformed else return root

end Compose

/-- A document: its nodes, and its root if there is one. -/
structure Document where
  graph : Graph
  root : Option NodeId

def Document.ofStream (stream : TokenStream) : Except Fault Document :=
  let fuel := 4 * stream.tokens.length + 8
  match (Compose.single fuel).run ⟨stream, #[], Table.empty, Compose.defaultHandles⟩ with
  | .error fault => .error fault
  | .ok (root, composer) => .ok ⟨composer.graph, root⟩

def Document.ofText (t : Text) : Except Fault Document :=
  Document.ofStream (TokenStream.ofText t)

end PropertyToolkit.Yaml
