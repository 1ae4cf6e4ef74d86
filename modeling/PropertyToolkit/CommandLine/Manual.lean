import PropertyToolkit.CommandLine.Grammar

/-!
The manual: how the program and its commands are used.
-/

set_option autoImplicit false

namespace PropertyToolkit.CommandLine

/-- Lines of text, each with a line feed. -/
def asLines (lines : List String) : Text := lines.flatMap fun line => Text.ofString line ++ "\n"

namespace Page

/-- The lines that tell the usage. -/
def usageLines : Page → List String
  | program => [
      "usage: propkit [-h] [--log-level \x7bdebug,info,warn,error\x7d] [--debug] [--quiet]",
      "               \x7bsubst,match,encode\x7d ..."]
  | subst => [
      "usage: propkit subst [-h] [--props FILE] [--set KEY=VALUE] [--no-env]",
      "                     [KEY ...]"]
  | matching => ["usage: propkit match [-h] pattern subjects [subjects ...]"]
  | encode => ["usage: propkit encode [-h] [--line-length LINE_LENGTH]"]

/-- The lines that follow the usage in the help. -/
def detailLines : Page → List String
  | program => [
      "",
      "Property substitution and wildcard filter toolkit",
      "",
      "positional arguments:",
      "  \x7bsubst,match,encode\x7d  Commands",
      "    subst               Resolve $\x7bname\x7d placeholders in property files",
      "    match               Test subjects against a wildcard pattern",
      "    encode              Base64-encode standard input",
      "",
      "options:",
      "  -h, --help            show this help message and exit",
      "  --log-level \x7bdebug,info,warn,error\x7d",
      "                        Set log level",
      "  --debug               Enable debug logging",
      "  --quiet               Suppress non-error output"]
  | subst => [
      "",
      "positional arguments:",
      "  KEY              Only print these properties (default: all)",
      "",
      "options:",
      "  -h, --help       show this help message and exit",
      "  --props FILE     YAML or .properties file (can be specified multiple times;",
      "                   later files win)",
      "  --set KEY=VALUE  Property override (can be specified multiple times)",
      "  --no-env         Do not fall back to environment variables"]
  | matching => [
      "",
      "positional arguments:",
      "  pattern     Pattern with '*' wildcards",
      "  subjects    Strings to test",
      "",
      "options:",
      "  -h, --help  show this help message and exit"]
  | encode => [
      "",
      "options:",
      "  -h, --help            show this help message and exit",
      "  --line-length LINE_LENGTH",
      "                        Wrap output lines at this width (multiple of 4, 0 for",
      "                        no wrapping)"]

def usage (page : Page) : Text := asLines page.usageLines

def help (page : Page) : Text := asLines (page.usageLines ++ page.detailLines)

end Page

/-- What a misused page answers: its usage, and what is wrong. -/
def Misuse.report (page : Page) (misuse : Misuse) : Text :=
  page.usage ++ (page.title ++ (": error: " ++ (misuse.message ++ "\n")))

end PropertyToolkit.CommandLine
