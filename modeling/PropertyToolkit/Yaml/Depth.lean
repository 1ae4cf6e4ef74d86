import PropertyToolkit.Yaml.Lexer

/-!
How deeply the collections of a YAML text enclose each other. The tokens of a text are read only up
to the first one that lies too deep.
-/

set_option autoImplicit false

namespace PropertyToolkit.Yaml

/-- The kinds of collections whose parts may be on their way. -/
inductive Enclosure where
  | blockSequence
  | blockMapping
  /-- A sequence that is not indented against the mapping around it. -/
  | openSequence
  | flowSequence
  | flowMapping
  /-- A mapping of one entry that stands in a sequence without brackets of its own. -/
  | flowPair
deriving DecidableEq

namespace Enclosure

/-- Closes a collection, with one inside of it that has no end of its own. -/
def close : List Enclosure → List Enclosure
  | openSequence :: _ :: outer => outer
  | flowPair :: _ :: outer => outer
  | _ :: outer => outer
  | [] => []

/-- The collections around what follows a token, from those around the token. -/
def past (token : Token) (around : List Enclosure) : List Enclosure :=
  match token, around with
  | .blockSequenceStart, around => blockSequence :: around
  | .blockMappingStart, around => blockMapping :: around
  | .flowSequenceStart, around => flowSequence :: around
  | .flowMappingStart, around => flowMapping :: around
  | .blockEnd, around | .flowSequenceEnd, around | .flowMappingEnd, around => close around
  | .blockEntry, blockMapping :: outer => openSequence :: blockMapping :: outer
  | .key, openSequence :: outer | .value, openSequence :: outer => outer
  | .key, flowSequence :: outer => flowPair :: flowSequence :: outer
  | .flowEntry, flowPair :: outer => outer
  | _, around => around

end Enclosure

/-- The most collections that are around any of some tokens, up to the end of the text. -/
def depthFrom : (around : List Enclosure) → List Token → Nat
  | _, [] => 0
  | around, token :: rest =>
    if token = .streamEnd then 0
    else
      let around := Enclosure.past token around
      max around.length (depthFrom around rest)

/-- The tokens before the first one with more than `most` collections around what follows it. -/
def cutFrom (most : Nat) : (around : List Enclosure) → List Token → List Token
  | _, [] => []
  | around, token :: rest =>
    let around := Enclosure.past token around
    if most < around.length then [] else token :: cutFrom most around rest

namespace TokenStream

def depth (stream : TokenStream) : Nat := depthFrom [] stream.tokens

/-- What is read of a stream if no more than `most` collections may enclose each other. -/
def within (most : Nat) (stream : TokenStream) : TokenStream :=
  if most < stream.depth then ⟨cutFrom most [] stream.tokens, some .tooDeep⟩ else stream

end TokenStream

end PropertyToolkit.Yaml
