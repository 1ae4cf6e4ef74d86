import PropertyToolkit.CommandLine.Run

/-!
The program. It gathers what a run may look at, runs, and writes what came of it.
-/

set_option autoImplicit false

namespace PropertyToolkit

/-- The variables of this process. One that is not written in UTF-8 is left out. -/
def currentEnvironment : IO Environment := do
  let bytes ← IO.FS.readBinFile "/proc/self/environ"
  let written := (bytes.toList.splitOn 0).filterMap fun entry => (Utf8.decode entry).toOption
  return Table.ofList (written.filterMap fun entry => Text.cutFirst? entry "=")

/-- The number and the text of an error of the operating system. -/
def AccessFault.ofIO? : IO.Error → Option AccessFault
  | .noFileOrDirectory _ number reason | .interrupted _ number reason =>
    some ⟨number.toNat, reason⟩
  | .alreadyExists _ number reason | .invalidArgument _ number reason
  | .permissionDenied _ number reason | .resourceExhausted _ number reason
  | .inappropriateType _ number reason | .noSuchThing _ number reason =>
    some ⟨number.toNat, reason⟩
  | .otherError number reason | .resourceBusy number reason | .resourceVanished number reason
  | .unsupportedOperation number reason | .hardwareFault number reason
  | .unsatisfiedConstraints number reason | .illegalOperation number reason
  | .protocolError number reason | .timeExpired number reason =>
    some ⟨number.toNat, reason⟩
  | .unexpectedEof | .userError _ => none

/-- What comes of a system call. -/
def attempt {α : Type} (call : IO α) : IO (Except AccessFault α) := do
  match ← call.toBaseIO with
  | .ok result => return .ok result
  | .error fault =>
    match AccessFault.ofIO? fault with
    | some fault => return .error fault
    | none => throw fault

/-- What is found at a path, and what is read there. -/
structure Visit where
  status : Except AccessFault Unit
  contents : Except AccessFault (List UInt8)

def Visit.absent : Visit := ⟨.error .noSuchFile, .error .noSuchFile⟩

def visit (path : Path) : IO Visit := do
  match path.text.toString? with
  | none => return .absent
  | some name => do
    let place := (← IO.currentDir) / name
    let status ← attempt (do let _ ← place.metadata)
    let contents ← attempt (do return (← IO.FS.readBinFile place).toList)
    return ⟨status, contents⟩

/-- The files at some paths; no other file is there. -/
def readFiles (paths : List Path) : IO Files := do
  let visited ← (paths.filter Path.isNameable).mapM fun path => do return (path, ← visit path)
  let found (path : Path) : Visit := ((Table.ofList visited).get? path).getD .absent
  return ⟨fun path => (found path).status, fun path => (found path).contents, .usual⟩

end PropertyToolkit

open PropertyToolkit in
def main (arguments : List String) : IO UInt32 := do
  let words := arguments.map Text.ofString
  let input ←
    if CommandLine.readsInput words then (← IO.getStdin).readBinToEnd else pure ByteArray.empty
  let files ← readFiles (CommandLine.filesOf words)
  let outcome := CommandLine.run ⟨files, ← currentEnvironment, input.toList⟩ words
  IO.eprint (outcome.errors.toString?.getD "")
  IO.print (outcome.output.toString?.getD "")
  match outcome.ending with
  | .ok code => return UInt32.ofNat code
  | .error escape =>
    IO.eprintln (escape.message.toString?.getD "")
    return 1
