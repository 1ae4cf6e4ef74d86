import PropertyToolkit.Files.Access
import PropertyToolkit.Table
import PropertyToolkit.Text.Utf8

/-!
The files below a working directory. A path is walked name by name; a double dot leads to the
directory above. Of what lies outside of the working directory only this is known: the directories
above it exist, and nothing else is found there. Names and paths must not be too long.
-/

set_option autoImplicit false

namespace PropertyToolkit

inductive FileNode where
  | directory
  | file (bytes : List UInt8)

/-- Files and directories by the names that lead to them. -/
abbrev FileTree := Table (List Text) FileNode

namespace FileTree

/-- The node at some names. A directory is there as soon as anything is put below it. -/
def node? (tree : FileTree) (names : List Text) : Option FileNode :=
  match tree.get? names with
  | some node => some node
  | none => if tree.keys.any names.isPrefixOf then some .directory else none

/-- The directory above; none is outside. -/
def above : Option (List Text) → Option (List Text)
  | none | some [] => none
  | some names => some names.dropLast

/-- The most bytes that the name of a file may have. -/
def maxName : Nat := 255

/-- The most bytes that a path may have. -/
def maxPath : Nat := 4095

/-- What a path leads to from a directory. -/
def walk (tree : FileTree) : (directory : Option (List Text)) → (names : List Text) →
    Except AccessFault FileNode
  | _, [] => .ok .directory
  | directory, name :: rest =>
    if name = ".." then tree.walk (above directory) rest
    else if maxName < Utf8.nameSize name then .error .nameTooLong
    else
      match directory.bind fun names => tree.node? (names ++ [name]) with
      | none => .error .noSuchFile
      | some .directory => tree.walk (directory.map (· ++ [name])) rest
      | some (.file bytes) => if rest = [] then .ok (.file bytes) else .error .notADirectory

/-- What a path leads to. -/
def find (tree : FileTree) (path : Path) : Except AccessFault FileNode :=
  if maxPath < Utf8.nameSize path.text then .error .nameTooLong
  else tree.walk (if path.root = [] then some [] else none) path.names

def files (tree : FileTree) (runtime : Runtime) : Files where
  status path := (tree.find path).map fun _ => ()
  contents path :=
    match tree.find path with
    | .error fault => .error fault
    | .ok .directory => .error .isADirectory
    | .ok (.file bytes) => .ok bytes
  runtime := runtime

end FileTree

end PropertyToolkit
