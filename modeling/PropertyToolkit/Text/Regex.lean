import PropertyToolkit.Text.CodePoint

/-!
Regular expressions over code points. A text is accepted if the derivative of the expression by all
of its code points, one after the other, accepts the empty text.
-/

set_option autoImplicit false

namespace PropertyToolkit

inductive Regex where
  | never
  | empty
  /-- One code point of a class. -/
  | one (ofClass : CodePoint → Bool)
  | either (first second : Regex)
  | inTurn (first second : Regex)
  /-- Any number of times. -/
  | many (r : Regex)

namespace Regex

def acceptsEmpty : Regex → Bool
  | never | one _ => false
  | empty | many _ => true
  | either first second => first.acceptsEmpty || second.acceptsEmpty
  | inTurn first second => first.acceptsEmpty && second.acceptsEmpty

/-- What may follow a code point at the start. -/
def after (c : CodePoint) : Regex → Regex
  | never | empty => never
  | one ofClass => if ofClass c then empty else never
  | either first second => either (after c first) (after c second)
  | inTurn first second =>
    let rest := inTurn (after c first) second
    if first.acceptsEmpty then either rest (after c second) else rest
  | many r => inTurn (after c r) (many r)

def accepts : Regex → Text → Bool
  | r, [] => r.acceptsEmpty
  | r, c :: rest => (r.after c).accepts rest

/-! ## Common expressions -/

def only (c : CodePoint) : Regex := one fun d => d = c

/-- A given text. -/
def word : Text → Regex
  | [] => empty
  | c :: rest => inTurn (only c) (word rest)

/-- One of the code points of a text. -/
def oneOf (choices : Text) : Regex := one fun c => choices.contains c

def firstOf (choices : List Regex) : Regex := choices.foldr either never

/-- Some expressions one after the other. -/
def sequence (parts : List Regex) : Regex := parts.foldr inTurn empty

def optional (r : Regex) : Regex := either r empty

def atLeastOne (r : Regex) : Regex := inTurn r (many r)

def digit : Regex := one CodePoint.isAsciiDigit

end Regex

end PropertyToolkit
