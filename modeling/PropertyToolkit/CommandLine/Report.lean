import PropertyToolkit.CommandLine.Log
import PropertyToolkit.PropertyFile.Load

/-!
What a command comes to: the log, the pieces of its output, and an exit code. Some faults are not
caught, and a run that meets one has no exit code.
-/

set_option autoImplicit false

namespace PropertyToolkit.CommandLine

/-- A fault that ends the run without an exit code. -/
inductive Escape where
  /-- It cannot be told whether there is a file at a path. -/
  | access (fault : AccessFault) (path : Path)
  | load (fault : PropertyFile.LoadFault)
  /-- The output holds a surrogate. -/
  | unwritable (fault : Utf8.EncodeFault)

def Escape.message : Escape → Text
  | access fault path => fault.message ++ (": " ++ path.text.quoted)
  | load fault => fault.message?.getD "A property file cannot be given a value"
  | unwritable fault => fault.message

structure Report where
  log : Log
  pieces : List Text
  ending : Except Escape Nat

/-- What an observer sees of a run. -/
structure Outcome where
  output : Text
  errors : Text
  ending : Except Escape Nat

/-- Writes pieces up to the first that cannot be written. -/
def write : List Text → Text × Option Utf8.EncodeFault
  | [] => ([], none)
  | piece :: rest =>
    match Utf8.encode piece with
    | .error fault => ([], some fault)
    | .ok _ =>
      let (written, fault?) := write rest
      (piece ++ written, fault?)

/-- What is seen of a run with a log of some level. -/
def Report.outcome (level : Severity) (report : Report) : Outcome :=
  let (output, fault?) := write report.pieces
  { output
    errors := escapeSurrogates (report.log.text level)
    ending :=
      match fault? with
      | some fault => .error (.unwritable fault)
      | none => report.ending }

end PropertyToolkit.CommandLine
