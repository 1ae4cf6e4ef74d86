import PropertyToolkit.Text.Cut
import PropertyToolkit.Text.Lowercase
import PropertyToolkit.Text.Utf8

/-!
Paths of files. A path is the list of its names, with the slashes that it starts from: empty names
and dots say nothing and are dropped, double dots are kept. Not every path can name a file.
-/

set_option autoImplicit false

namespace PropertyToolkit

structure Path where
  /-- The leading slashes: none, one, or exactly two. -/
  root : Text
  names : List Text
deriving DecidableEq

namespace Path

def slash : CodePoint := '/'

/-- The leading slashes that count: more than two of them are one. -/
def rootOf (t : Text) : Text :=
  let slashes := t.takeWhile fun c => c = slash
  if slashes.length ≤ 2 then slashes else [slash]

def isName (name : Text) : Bool := name ≠ [] && name ≠ "."

def ofText (t : Text) : Path := ⟨rootOf t, (t.splitOn slash).filter isName⟩

/-- A path as text; the path of nothing is a dot. -/
def text (path : Path) : Text :=
  if path.root = [] ∧ path.names = [] then "."
  else path.root ++ List.intercalate [slash] path.names

/-- The end of the last name, from its last dot on. A dot at either end of the name does not
count. -/
def suffix (path : Path) : Text :=
  match path.names.getLast? with
  | none => []
  | some name =>
    match name.cutLast? "." with
    | none => []
    | some (before, after) => if before = [] ∨ after = [] then [] else "." ++ after

/-- The suffix in lower case, by which the type of a file is told. -/
def fileType (path : Path) : Text := path.suffix.lower

/-- Why a path names no file: it cannot be written in bytes, or it holds the code point zero. -/
inductive NameFault where
  | unencodable (fault : Utf8.EncodeFault)
  | nullByte
deriving DecidableEq

def NameFault.message : NameFault → Text
  | unencodable fault => fault.message
  | nullByte => "embedded null byte"

def nameFault? (path : Path) : Option NameFault :=
  match Utf8.encodeName path.text with
  | .error fault => some (.unencodable fault)
  | .ok _ => if path.text.contains '\x00' then some .nullByte else none

def isNameable (path : Path) : Bool := path.nameFault? = none

theorem nameFault?_of_isNameable {path : Path} (nameable : path.isNameable = true) :
    path.nameFault? = none := of_decide_eq_true nameable

end Path

end PropertyToolkit
