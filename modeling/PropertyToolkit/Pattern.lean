import PropertyToolkit.Text.Cut

/-!
Wildcard patterns. The stars of a pattern part it into segments; a subject matches if it starts with
the first segment, ends with the last and holds the others between them in order, each sought after
the end of the one before. The last segment is sought at the end alone, so it may overlap the
others. Two stars next to each other are refused.
-/

set_option autoImplicit false

namespace PropertyToolkit

/-- A compiled pattern: its segments, and whether it starts or ends with a star. -/
structure Pattern where
  segments : List Text
  leadingStar : Bool
  trailingStar : Bool
deriving DecidableEq

namespace Pattern

def star : CodePoint := '*'

/-- The pattern has two stars next to each other. -/
structure Fault where
  pattern : Text
deriving DecidableEq

def Fault.message (fault : Fault) : Text := "Invalid filter string: " ++ fault.pattern

def compile (pattern : Text) : Except Fault Pattern :=
  if (pattern.cutFirst? [star, star]).isSome then .error ⟨pattern⟩
  else .ok ⟨pattern.splitOn star, pattern.head? = some star, pattern.getLast? = some star⟩

/-- A pattern without a star. -/
def isLiteral (pattern : Pattern) : Bool :=
  !(pattern.leadingStar || pattern.trailingStar) && pattern.segments.length = 1

/-- Seeks the segments but the last in `rest` one after the other; the last one ends the subject. -/
def matchesRest (subject : Text) : (segments : List Text) → (rest : Text) → Bool
  | [], _ => true
  | [last], _ => last.isSuffixOf subject
  | segment :: segments, rest =>
    match rest.cutFirst? segment with
    | none => false
    | some (_, after) => matchesRest subject segments after

/-- Whether a subject starts with the first segment, ends with the last and holds the others in
between. A single segment is both the first and the last. -/
def matchesSegments (segments : List Text) (subject : Text) : Bool :=
  match segments with
  | [] => true
  | [segment] => segment.isPrefixOf subject && segment.isSuffixOf subject
  | first :: segments =>
    match first.isPrefixOf? subject with
    | none => false
    | some rest => matchesRest subject segments rest

/-- Whether a subject matches a compiled pattern. -/
def accepts (pattern : Pattern) (subject : Text) : Bool :=
  matchesSegments pattern.segments subject

end Pattern

end PropertyToolkit
