import PropertyToolkit.CommandLine.Grammar
import PropertyToolkit.Text.Cut

/-!
The words of a command line. A word with a leading dash is an option, unless it is a dash alone, a
negative number or holds a space. A long option may be cut short as long as one option starts so,
and may carry its argument after an equals sign. Two dashes end the options.
-/

set_option autoImplicit false

namespace PropertyToolkit.CommandLine

/-- What stands in the same word as an option. -/
inductive Attached where
  | nothing
  /-- An argument after an equals sign. -/
  | argument (t : Text)
  /-- More letters after that of the option. -/
  | letters (t : Text)
deriving DecidableEq

inductive WordKind where
  | plain
  /-- The two dashes that end the options. -/
  | separator
  | option (name : OptionName) (attached : Attached)
  /-- Looks like an option, but there is none of the kind. -/
  | unknown
deriving DecidableEq

structure Word where
  text : Text
  kind : WordKind

namespace Word

def isSeparator (word : Word) : Bool := word.kind = .separator

/-- No option. -/
def isPlain (word : Word) : Bool := word.kind = .plain || word.kind = .separator

end Word

/-- Decimal digits of any script. -/
def allDigits (t : Text) : Bool := t.all fun c => c.decimalDigit?.isSome

/-- A minus and a number in decimal, with or without a point. One line feed may follow. -/
def isNegativeNumber (word : Text) : Bool :=
  let number : Text :=
    if word.getLast? = some (CodePoint.ofChar '\n') then word.dropLast else word
  match number with
  | [] => false
  | sign :: digits =>
    sign = OptionName.dash &&
      match Text.cutFirst? digits "." with
      | none => digits ≠ [] && allDigits digits
      | some (whole, fraction) => allDigits whole && fraction ≠ [] && allDigits fraction

namespace Grammar

/-- The options that a word with a leading dash may stand for, with what is attached to them. -/
def candidates (grammar : Grammar) (word : Text) : List (OptionName × Attached) :=
  match word with
  | _ :: second :: letters =>
    if second = OptionName.dash then
      let (beginning, attached) : Text × Attached :=
        match word.cutFirst? "=" with
        | some (before, argument) => (before, .argument argument)
        | none => (word, .nothing)
      (grammar.options.filter fun option => beginning.isPrefixOf option.long).map (·, attached)
    else (grammar.lettered? second).toList.map (·, .letters letters)
  | _ => []

/-- The option that is spelled out before the first equals sign of a word. -/
def spelledBefore? (grammar : Grammar) (word : Text) : Option (OptionName × Attached) :=
  match word.cutFirst? "=" with
  | none => none
  | some (before, argument) => (grammar.spelled? before).map (·, .argument argument)

/-- What a word is, before the options have ended. -/
def classify (grammar : Grammar) (word : Text) : Except Misuse WordKind :=
  if word.head? ≠ some OptionName.dash then .ok .plain
  else
    match grammar.spelled? word with
    | some option => .ok (.option option .nothing)
    | none =>
      if word = [OptionName.dash] then .ok .plain
      else
        match grammar.spelledBefore? word with
        | some (option, attached) => .ok (.option option attached)
        | none =>
          match grammar.candidates word with
          | [(option, attached)] => .ok (.option option attached)
          | [] => .ok (if isNegativeNumber word || word.contains ' ' then .plain else .unknown)
          | several => .error (.ambiguous word (several.map Prod.fst))

/-- The words of a command line with their kinds. Nothing after two dashes is an option. -/
def words (grammar : Grammar) : List Text → Except Misuse (List Word)
  | [] => .ok []
  | word :: rest =>
    if word = "--" then .ok (⟨word, .separator⟩ :: rest.map (⟨·, .plain⟩))
    else do
      let kind ← grammar.classify word
      return ⟨word, kind⟩ :: (← grammar.words rest)

end Grammar

end PropertyToolkit.CommandLine
