import PropertyToolkit.Yaml.Lexer

/-!
The faults that may end the reading of tokens. A text of tokens is malformed, or it spells a number
that there is no code point for, or a number with too many digits; whether a value fits its tag is
not looked at yet.
-/

set_option autoImplicit false

namespace PropertyToolkit.Yaml

/-! ## Readings that may fail -/

/-- A reading fails with some faults only, and what it gives meets a condition. -/
def Meets {α : Type} (faults : Fault → Prop) (holds : α → Prop) : Except Fault α → Prop
  | .error fault => faults fault
  | .ok a => holds a

namespace Meets

variable {α β : Type} {faults : Fault → Prop}

theorem bind {holds : α → Prop} {next : β → Prop} {x : Except Fault α} {f : α → Except Fault β}
    (first : Meets faults holds x) (after : ∀ a, holds a → Meets faults next (f a)) :
    Meets faults next (x >>= f) := by
  cases x with
  | error fault => exact first
  | ok a => exact after a first

theorem mono {other : Fault → Prop} {holds next : α → Prop} {x : Except Fault α}
    (meets : Meets faults holds x) (faulty : ∀ fault, faults fault → other fault)
    (weaker : ∀ a, holds a → next a) : Meets other next x := by
  cases x with
  | error fault => exact faulty fault meets
  | ok a => exact weaker a meets

theorem imp {holds next : α → Prop} {x : Except Fault α} (meets : Meets faults holds x)
    (weaker : ∀ a, holds a → next a) : Meets faults next x := meets.mono (fun _ same => same) weaker

theorem widen {other : Fault → Prop} {holds : α → Prop} {x : Except Fault α}
    (meets : Meets faults holds x) (faulty : ∀ fault, faults fault → other fault) :
    Meets other holds x := meets.mono faulty fun _ same => same

end Meets

/-! ## Lexical faults -/

/-- The faults that a text may have before its values are looked at. -/
def Fault.IsLexical : Fault → Prop
  | malformed | codePointRange | codePointOverflow | tooLong _ => True
  | _ => False

abbrev Lexes {α : Type} (x : Except Fault α) : Prop := Meets Fault.IsLexical (fun _ => True) x

section

variable {α β : Type}

theorem Lexes.map {x : Except Fault α} (lexes : Lexes x) (f : α → β) : Lexes (x.map f) := by
  cases x with
  | error fault => exact lexes
  | ok a => trivial

theorem Lexes.step {x : Except Fault α} (lexes : Lexes x) {f : α → Except Fault β}
    (rest : ∀ a, Lexes (f a)) : Lexes (x >>= f) := Meets.bind lexes fun a _ => rest a

end

/-! ## Directives, anchors and tags -/

namespace Cursor

variable (cursor : Cursor)

end Cursor

/-! ## Scalars -/

namespace Lexer

variable (lexer : Lexer)

end Lexer

end PropertyToolkit.Yaml
