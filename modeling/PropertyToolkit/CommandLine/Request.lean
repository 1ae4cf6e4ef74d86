import PropertyToolkit.CommandLine.Finding
import PropertyToolkit.CommandLine.Log
import PropertyToolkit.Number.Integer

/-!
What a command line asks for: a level for the log and a command with its options. The first finding
that asks for help, or that makes no sense, ends the reading.
-/

set_option autoImplicit false

namespace PropertyToolkit.CommandLine

/-- Expand the properties of some files and overrides, or only those of some keys. -/
structure SubstRequest where
  keys : List Text
  files : List Text
  overrides : List Text
  useEnvironment : Bool
deriving DecidableEq

/-- Test subjects against a pattern. -/
structure MatchRequest where
  pattern : Text
  subjects : List Text
deriving DecidableEq

/-- Encode the standard input; a line length of zero is for no lines. -/
structure EncodeRequest where
  lineLength : Int
deriving DecidableEq

inductive Command where
  | subst (request : SubstRequest)
  | matching (request : MatchRequest)
  | encode (request : EncodeRequest)
deriving DecidableEq

structure Settings where
  chosen : Severity
  debug : Bool
  quiet : Bool
deriving DecidableEq

/-- The level of the log. Debugging wins over silence, and both over a chosen level. -/
def Settings.level (settings : Settings) : Severity :=
  if settings.debug then .debug else if settings.quiet then .error else settings.chosen

structure Request where
  settings : Settings
  command : Option Command
deriving DecidableEq

/-- Why a command line asks for nothing that can be run. -/
inductive Stop where
  | help (page : Page)
  | misuse (page : Page) (fault : Misuse)
deriving DecidableEq

/-- Reads the words of a page into a value, finding by finding. The words that are left over are
returned with it. -/
def Page.read {σ : Type} (page : Page) (step : σ → Finding → Except Stop σ) (start : σ)
    (words : List Text) : Except Stop (σ × List Text) :=
  let findings := page.grammar.read words
  let take (s : σ) (finding : Finding) : Except Stop σ :=
    match finding with
    | .option .help _ => .error (.help page)
    | finding => step s finding
  match findings.found.foldlM take start with
  | .error stop => .error stop
  | .ok s =>
    match findings.ending with
    | .error misuse => .error (.misuse page misuse)
    | .ok unrecognized => .ok (s, unrecognized)

namespace SubstRequest

def step (request : SubstRequest) : Finding → Except Stop SubstRequest
  | .option .props (some file) => .ok { request with files := request.files ++ [file] }
  | .option .set (some item) => .ok { request with overrides := request.overrides ++ [item] }
  | .option .noEnv _ => .ok { request with useEnvironment := false }
  | .words .keys keys => .ok { request with keys }
  | _ => .ok request

def read (words : List Text) : Except Stop (SubstRequest × List Text) :=
  Page.subst.read step ⟨[], [], [], true⟩ words

end SubstRequest

namespace MatchRequest

def step (request : MatchRequest) : Finding → Except Stop MatchRequest
  | .words .pattern (pattern :: _) => .ok { request with pattern }
  | .words .subjects subjects => .ok { request with subjects }
  | _ => .ok request

def read (words : List Text) : Except Stop (MatchRequest × List Text) :=
  Page.matching.read step ⟨[], []⟩ words

end MatchRequest

namespace EncodeRequest

def step (request : EncodeRequest) : Finding → Except Stop EncodeRequest
  | .option .lineLength (some word) =>
    match Integer.read 10 word with
    | .ok lineLength => .ok ⟨lineLength⟩
    | .error _ => .error (.misuse .encode (.invalidInteger .lineLength word))
  | _ => .ok request

def read (words : List Text) : Except Stop (EncodeRequest × List Text) :=
  Page.encode.read step ⟨0⟩ words

end EncodeRequest

/-- The levels by the words that choose them. -/
def levels : List (Text × Severity) :=
  [("debug", .debug), ("info", .info), ("warn", .warning), ("error", .error)]

namespace Command

/-- Reads the command of a word from the words after it. -/
def read (word : Text) (words : List Text) : Except Stop (Command × List Text) :=
  match Page.commands.find? fun page => page.word = word with
  | some .subst => (SubstRequest.read words).map fun read => (.subst read.1, read.2)
  | some .matching => (MatchRequest.read words).map fun read => (.matching read.1, read.2)
  | some .encode => (EncodeRequest.read words).map fun read => (.encode read.1, read.2)
  | some .program | none =>
    .error (.misuse .program
      (.invalidChoice Positional.command.label word (Page.commands.map Page.word)))

end Command

namespace Request

/-- A request under way, with the words that its command left over. -/
structure Draft where
  request : Request
  unrecognized : List Text

def Draft.set (draft : Draft) (settings : Settings) : Draft :=
  { draft with request := { draft.request with settings } }

def step (draft : Draft) : Finding → Except Stop Draft
  | .option .debug _ => .ok (draft.set { draft.request.settings with debug := true })
  | .option .quiet _ => .ok (draft.set { draft.request.settings with quiet := true })
  | .option .logLevel (some word) =>
    match levels.find? fun level => level.1 = word with
    | some (_, chosen) => .ok (draft.set { draft.request.settings with chosen })
    | none =>
      .error (.misuse .program
        (.invalidChoice OptionName.logLevel.label word (levels.map Prod.fst)))
  | .words .command (word :: words) =>
    match Command.read word words with
    | .error stop => .error stop
    | .ok (command, unrecognized) =>
      .ok ⟨{ draft.request with command := some command }, unrecognized⟩
  | _ => .ok draft

/-- The request of a command line. A word that neither the program nor its command takes is
refused, those of the program first. -/
def read (words : List Text) : Except Stop Request :=
  match Page.program.read step ⟨⟨⟨.warning, false, false⟩, none⟩, []⟩ words with
  | .error stop => .error stop
  | .ok (draft, unrecognized) =>
    let all := unrecognized ++ draft.unrecognized
    if all = [] then .ok draft.request else .error (.misuse .program (.unrecognized all))

end Request

end PropertyToolkit.CommandLine
