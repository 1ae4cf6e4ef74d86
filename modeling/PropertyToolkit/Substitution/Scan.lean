import PropertyToolkit.Text.Cut

/-!
Finding the next placeholder of a text. The first `}` closes the innermost placeholder, and its
`${` is the last one before that brace.
-/

set_option autoImplicit false

namespace PropertyToolkit.Substitution

def opening : Text := "$\x7b"

def closing : Text := "\x7d"

/-- What the first closing brace of a text makes of it. -/
inductive Scan where
  /-- There is no closing brace. A dangling opening is literal text. -/
  | settled
  /-- Nothing before the first closing brace opens a placeholder. -/
  | unopened
  /-- The text is `before`, an opening, `name`, a closing brace, `after`. -/
  | placeholder (before name after : Text)
deriving DecidableEq

def scan (t : Text) : Scan :=
  match t.cutFirst? closing with
  | none => .settled
  | some (head, after) =>
    match head.cutLast? opening with
    | none => .unopened
    | some (before, name) => .placeholder before name after

/-- A placeholder is read off the text without loss. -/
theorem eq_of_scan {t before name after : Text} (h : scan t = .placeholder before name after) :
    t = before ++ (opening ++ (name ++ (closing ++ after))) := by
  unfold scan at h
  split at h
  · cases h
  · next head rest outer =>
    split at h
    · cases h
    · next start inner found =>
      cases h
      rw [Text.eq_of_cutFirst? outer, Text.eq_of_cutLast? found]
      simp only [List.append_assoc]

end PropertyToolkit.Substitution
