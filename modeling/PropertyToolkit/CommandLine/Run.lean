import PropertyToolkit.Base64.Encode
import PropertyToolkit.CommandLine.Manual
import PropertyToolkit.CommandLine.Match
import PropertyToolkit.CommandLine.Subst

/-!
A run of the program, from its command line to what an observer sees of it.
-/

set_option autoImplicit false

namespace PropertyToolkit.CommandLine

/-- Encodes the standard input. Text without lines is closed by a line feed. -/
def EncodeRequest.run (input : List UInt8) (request : EncodeRequest) : Report :=
  match Base64.encodeLines input request.lineLength with
  | .error fault => ⟨[⟨.encode, .error, fault.message⟩], [], .ok 2⟩
  | .ok encoded => ⟨[], encoded :: if request.lineLength = 0 then ["\n"] else [], .ok 0⟩

/-- What a run may look at, besides its command line. -/
structure World where
  files : Files
  environment : Environment
  input : List UInt8

namespace Command

def run (world : World) : Command → Report
  | subst request => request.run world.files world.environment
  | matching request => request.run
  | encode request => request.run world.input

end Command

def Stop.outcome : Stop → Outcome
  | help page => ⟨page.help, [], .ok 0⟩
  | misuse page fault => ⟨[], escapeSurrogates (fault.report page), .ok 2⟩

/-- Runs the program. Without a command it prints its help and fails. -/
def run (world : World) (words : List Text) : Outcome :=
  match Request.read words with
  | .error stop => stop.outcome
  | .ok request =>
    match request.command with
    | none => ⟨Page.program.help, [], .ok 1⟩
    | some command => (command.run world).outcome request.settings.level

/-- The files that a command line may read. -/
def filesOf (words : List Text) : List Path :=
  match Request.read words with
  | .ok ⟨_, some (.subst request)⟩ => request.files.map Path.ofText
  | _ => []

/-- Whether a command line asks for the standard input. -/
def readsInput (words : List Text) : Bool :=
  match Request.read words with
  | .ok ⟨_, some (.encode _)⟩ => true
  | _ => false

end PropertyToolkit.CommandLine
