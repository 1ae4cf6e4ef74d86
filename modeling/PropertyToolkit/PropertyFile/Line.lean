import PropertyToolkit.Text.CodePoint

/-!
The lines of a property file. A physical line ends at a carriage return, a line feed, or both in
this order. A logical line is a physical one that is neither empty nor a comment, joined with the
next one for as long as what was joined so far ends in an odd number of backslashes. A file is read
with line feeds for all its line breaks.
-/

set_option autoImplicit false

namespace PropertyToolkit

/-- Turns each carriage return into a line feed, together with a line feed right after it. -/
def Text.withLineFeeds : Text → Text
  | [] => []
  | [c] => [if c = '\r' then '\n' else c]
  | c :: d :: rest =>
    if c = '\r' ∧ d = '\n' then '\n' :: withLineFeeds rest
    else (if c = '\r' then '\n' else c) :: withLineFeeds (d :: rest)

namespace PropertyFile

/-- The blanks of a property file: space, tab and form feed. -/
def isBlank (c : CodePoint) : Bool := c = ' ' || c = '\t' || c = '\x0c'

def trimBlanks (line : Text) : Text := line.dropWhile isBlank

def isBreak (c : CodePoint) : Bool := c = '\r' || c = '\n'

/-- Puts a code point in front of the first of some lines. -/
def consFirst (c : CodePoint) : List Text → List Text
  | [] => [[c]]
  | line :: lines => (c :: line) :: lines

def physicalLines : Text → List Text
  | [] => [[]]
  | [c] => if isBreak c then [[], []] else [[c]]
  | c :: d :: rest =>
    if c = '\r' ∧ d = '\n' then [] :: physicalLines rest
    else if isBreak c then [] :: physicalLines (d :: rest)
    else consFirst c (physicalLines (d :: rest))

/-- Ends in an odd number of backslashes. -/
def continues (line : Text) : Bool :=
  (line.reverse.takeWhile fun c : CodePoint => c = '\\').length % 2 = 1

/-- Starts an entry: it is not empty and no comment, once its leading blanks are gone. -/
def startsEntry (trimmed : Text) : Bool :=
  match trimmed with
  | [] => false
  | c :: _ => !(c = '#' || c = '!')

/-- The logical line that starts with `line`, and the physical lines after it. -/
def gather (line : Text) : List Text → Text × List Text
  | [] => (if continues line then line.dropLast else line, [])
  | next :: rest =>
    if continues line then gather (line.dropLast ++ trimBlanks next) rest else (line, next :: rest)

theorem length_gather_le (line : Text) (lines : List Text) :
    (gather line lines).2.length ≤ lines.length := by
  induction lines generalizing line with
  | nil => exact Nat.le_refl _
  | cons next rest ih =>
    unfold gather
    split
    · exact Nat.le_succ_of_le (ih _)
    · exact Nat.le_refl _

/-- The logical lines among some physical ones, each with the number of the physical line that it
starts with; `number` is that of the first one. -/
def logicalLinesFrom (number : Nat) : List Text → List (Nat × Text)
  | [] => []
  | line :: rest =>
    if startsEntry (trimBlanks line) then
      let gathered := gather (trimBlanks line) rest
      (number, gathered.1) ::
        logicalLinesFrom (number + 1 + (rest.length - gathered.2.length)) gathered.2
    else logicalLinesFrom (number + 1) rest
termination_by lines => lines.length
decreasing_by
  · exact Nat.lt_succ_of_le (length_gather_le ..)
  · exact Nat.lt_succ_self _

def logicalLines (t : Text) : List (Nat × Text) := logicalLinesFrom 1 (physicalLines t)

end PropertyFile

end PropertyToolkit
