import PropertyToolkit.Value.Basic

/-!
What no input decides but the interpreter that runs the program: how far its stack reaches, and in
which order it walks through a set.
-/

set_option autoImplicit false

namespace PropertyToolkit

structure Runtime where
  /-- How many collections may enclose each other while a document is read. -/
  nesting : Nat
  /-- How many merges may wait for each other. -/
  merging : Nat
  /-- How many mappings in turn may stand for their default values. -/
  defaults : Nat
  /-- The items of a set in the order in which it gives them, from the order in which they came. -/
  order : List Value → List Value
  /-- The stack has room for one collection at least. -/
  nests : 0 < nesting
  perm : ∀ items, (order items).Perm items

/-- A stack of a thousand frames: a level of collections takes two of them, a merge or a default
value one. -/
def Runtime.usual : Runtime where
  nesting := 490
  merging := 980
  defaults := 980
  order := id
  nests := by decide
  perm _ := .refl _

instance : Inhabited Runtime := ⟨.usual⟩

end PropertyToolkit
