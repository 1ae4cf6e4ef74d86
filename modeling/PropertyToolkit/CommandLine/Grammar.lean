import PropertyToolkit.Text.Quoted

/-!
The grammar of the command line. The program takes options and then a command; each command takes
options and words of its own.
-/

set_option autoImplicit false

namespace PropertyToolkit.CommandLine

inductive OptionName where
  | help
  | logLevel
  | debug
  | quiet
  | props
  | set
  | noEnv
  | lineLength
deriving DecidableEq

namespace OptionName

def dash : CodePoint := '-'

/-- The spelling with two dashes. -/
def long : OptionName → Text
  | help => "--help"
  | logLevel => "--log-level"
  | debug => "--debug"
  | quiet => "--quiet"
  | props => "--props"
  | set => "--set"
  | noEnv => "--no-env"
  | lineLength => "--line-length"

/-- The letter of the spelling with one dash. Only options without an argument have one. -/
def letter? : OptionName → Option CodePoint
  | help => some (CodePoint.ofChar 'h')
  | _ => none

def spellings (option : OptionName) : List Text :=
  match option.letter? with
  | some letter => [[dash, letter], option.long]
  | none => [option.long]

def takesArgument : OptionName → Bool
  | logLevel | props | set | lineLength => true
  | help | debug | quiet | noEnv => false

/-- How messages call an option. -/
def label (option : OptionName) : Text := List.intercalate "/" option.spellings

end OptionName

/-- How many words belong together. -/
inductive Count where
  | one
  | any
  /-- One or more. -/
  | several
  /-- One, and all that follows, be it options or not. -/
  | everything
deriving DecidableEq

/-- Words that count by their place. -/
inductive Positional where
  | command
  | keys
  | pattern
  | subjects
deriving DecidableEq

namespace Positional

def count : Positional → Count
  | command => .everything
  | keys => .any
  | pattern => .one
  | subjects => .several

def label : Positional → Text
  | command => "command"
  | keys => "KEY"
  | pattern => "pattern"
  | subjects => "subjects"

/-- Whether a command line without such words is refused. -/
def isRequired : Positional → Bool
  | command | keys => false
  | pattern | subjects => true

end Positional

structure Grammar where
  options : List OptionName
  positionals : List Positional

namespace Grammar

/-- The option that is spelled exactly so. -/
def spelled? (grammar : Grammar) (word : Text) : Option OptionName :=
  grammar.options.find? fun option => option.spellings.contains word

def lettered? (grammar : Grammar) (letter : CodePoint) : Option OptionName :=
  grammar.options.find? fun option => option.letter? = some letter

end Grammar

/-- A command line is written for the program as a whole or for one of its commands. -/
inductive Page where
  | program
  | subst
  | matching
  | encode
deriving DecidableEq

namespace Page

def grammar : Page → Grammar
  | program => ⟨[.help, .logLevel, .debug, .quiet], [.command]⟩
  | subst => ⟨[.help, .props, .set, .noEnv], [.keys]⟩
  | matching => ⟨[.help], [.pattern, .subjects]⟩
  | encode => ⟨[.help, .lineLength], []⟩

def commands : List Page := [subst, matching, encode]

/-- The word that a command is chosen by. -/
def word : Page → Text
  | program => []
  | subst => "subst"
  | matching => "match"
  | encode => "encode"

/-- The name of the program, with that of the command. -/
def title (page : Page) : Text :=
  if page = program then "propkit" else "propkit " ++ page.word

end Page

/-- What is wrong with a command line. -/
inductive Misuse where
  /-- A word is the beginning of several options. -/
  | ambiguous (word : Text) (options : List OptionName)
  | missingArgument (option : OptionName)
  /-- An option that takes no argument has one. -/
  | ignoredArgument (option : OptionName) (argument : Text)
  | invalidInteger (option : OptionName) (argument : Text)
  | invalidChoice (label : Text) (word : Text) (choices : List Text)
  | missing (positionals : List Positional)
  | unrecognized (words : List Text)
deriving DecidableEq

namespace Misuse

def commaSeparated (items : List Text) : Text := List.intercalate ", " items

def ofArgument (label message : Text) : Text := "argument " ++ (label ++ (": " ++ message))

def message : Misuse → Text
  | ambiguous word options =>
    "ambiguous option: " ++ (word ++ (" could match " ++
      commaSeparated (options.map OptionName.long)))
  | missingArgument option => ofArgument option.label "expected one argument"
  | ignoredArgument option argument =>
    ofArgument option.label ("ignored explicit argument " ++ argument.quoted)
  | invalidInteger option argument =>
    ofArgument option.label ("invalid int value: " ++ argument.quoted)
  | invalidChoice label word choices =>
    ofArgument label ("invalid choice: " ++ (word.quoted ++ (" (choose from " ++
      (commaSeparated (choices.map Text.quoted) ++ ")"))))
  | missing positionals =>
    "the following arguments are required: " ++
      commaSeparated (positionals.map Positional.label)
  | unrecognized words => "unrecognized arguments: " ++ List.intercalate " " words

end Misuse

end PropertyToolkit.CommandLine
