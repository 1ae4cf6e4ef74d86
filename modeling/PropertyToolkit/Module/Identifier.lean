import PropertyToolkit.Number.Integer

/-!
Names in a modular system. A module id is a bundle id and a revision with a dot between them; class
names are parted by dots and resource paths by slashes, and their packages are what stands before
the last one.
-/

set_option autoImplicit false

namespace PropertyToolkit.Module

/-- The number written by a text of an optional sign and ASCII digits; any other text stands for
minus one. A number of too many digits is not read. -/
def readNumber (t : Text) : Except Integer.ReadFault Int :=
  let digits := (Integer.cutSign t).2
  if digits ≠ [] ∧ digits.all CodePoint.isAsciiDigit then Integer.read 10 t else .ok (-1)

/-- The number before the first dot of a module id, or of the whole id. -/
def bundleId (id : Text) : Except Integer.ReadFault Int :=
  match id.cutFirst? "." with
  | none => readNumber id
  | some (bundle, _) => readNumber bundle

/-- The number after the first dot of a module id. -/
def revision (id : Text) : Except Integer.ReadFault Int :=
  match id.cutFirst? "." with
  | none => .ok (-1)
  | some (_, revision) => readNumber revision

/-- The part of a class name after its last dot; a name without a dot has none. -/
def className (name : Text) : Text :=
  match name.cutLast? "." with
  | none => []
  | some (_, simple) => simple

/-- The part of a class name before its last dot. -/
def classPackage (name : Text) : Text :=
  match name.cutLast? "." with
  | none => []
  | some (package, _) => package

/-- The package of a resource path: what stands before the last slash, with dots for slashes, where
one leading slash does not count. -/
def resourcePackage (resource : Text) : Text :=
  let path : Text := (List.isPrefixOf? "/" resource).getD resource
  match path.cutLast? "/" with
  | none => []
  | some (package, _) => package.map fun c : CodePoint => if c = '/' then '.' else c

end PropertyToolkit.Module
