import PropertyToolkit.Files.Path
import PropertyToolkit.Number.Integer
import PropertyToolkit.Runtime

/-!
Access to files. A program sees a file system by the paths that it asks about: whether they lead to
anything, and what is written there.
-/

set_option autoImplicit false

namespace PropertyToolkit

/-- An error of the operating system, with its number. -/
structure AccessFault where
  number : Nat
  reason : Text
deriving DecidableEq

namespace AccessFault

def noSuchFile : AccessFault := ⟨2, "No such file or directory"⟩

def notADirectory : AccessFault := ⟨20, "Not a directory"⟩

def isADirectory : AccessFault := ⟨21, "Is a directory"⟩

def nameTooLong : AccessFault := ⟨36, "File name too long"⟩

def message (fault : AccessFault) : Text :=
  "[Errno " ++ (Text.ofNat fault.number ++ ("] " ++ fault.reason))

/-- The errors that say that a path leads to nothing: there is no such file, what should be a
directory is none, a descriptor is bad, or links go in circles. -/
def isAbsence (fault : AccessFault) : Bool := [2, 20, 9, 40].contains fault.number

end AccessFault

/-- What a program sees of the machine that it runs on, as far as files are concerned. -/
structure Files where
  /-- What comes of asking for whatever is at a path. -/
  status : Path → Except AccessFault Unit
  /-- What comes of reading the file at a path. -/
  contents : Path → Except AccessFault (List UInt8)
  runtime : Runtime

namespace Files

instance : CoeFun Files fun _ => Path → Except AccessFault (List UInt8) := ⟨contents⟩

/-- Files that are there if they can be read; a directory is there, though it cannot be read. -/
def ofContents (contents : Path → Except AccessFault (List UInt8)) : Files where
  status path :=
    match contents path with
    | .ok _ => .ok ()
    | .error fault => if fault = .isADirectory then .ok () else .error fault
  contents := contents
  runtime := .usual

/-- Whether anything is at a path, a file or a directory. Some errors leave that open. -/
def has (files : Files) (path : Path) : Except AccessFault Bool :=
  if path.isNameable then
    match files.status path with
    | .ok _ => .ok true
    | .error fault => if fault.isAbsence then .ok false else .error fault
  else .ok false

end Files

end PropertyToolkit
