import PropertyToolkit.CommandLine.Report
import PropertyToolkit.CommandLine.Request
import PropertyToolkit.Pattern

/-!
The command that tests subjects against a pattern. It prints a line for each subject and succeeds if
all of them match.
-/

set_option autoImplicit false

namespace PropertyToolkit.CommandLine.MatchRequest

def compiled (request : MatchRequest) (pattern : Pattern) : Record :=
  ⟨.pattern, .debug, "Compiled pattern " ++ (request.pattern.quoted ++ (" into " ++
    Text.bracketed (pattern.segments.map Text.quoted)))⟩

/-- The warning for a pattern without a star. -/
def literal (request : MatchRequest) : Record :=
  ⟨.matching, .warning, "Pattern " ++ (request.pattern.quoted ++
    " has no wildcard; it matches subjects that start and end with it")⟩

def line (pattern : Pattern) (subject : Text) : Text :=
  (if pattern.accepts subject then ("match\t" : Text) else "no match\t") ++ (subject ++ "\n")

def run (request : MatchRequest) : Report :=
  match Pattern.compile request.pattern with
  | .error fault => ⟨[⟨.matching, .error, fault.message⟩], [], .ok 2⟩
  | .ok pattern =>
    { log := request.compiled pattern :: if pattern.isLiteral then [request.literal] else []
      pieces := request.subjects.map (line pattern)
      ending := .ok (if request.subjects.all pattern.accepts then 0 else 1) }

end PropertyToolkit.CommandLine.MatchRequest
