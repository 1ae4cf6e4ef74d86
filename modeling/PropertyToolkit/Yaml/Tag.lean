import PropertyToolkit.Text.Regex

/-!
The tags of YAML nodes. A plain scalar without a tag gets one by its text, if a resolver knows it.
The resolvers of tags whose values would not be texts are left out, so that plain scalars keep their
spelling.
-/

set_option autoImplicit false

namespace PropertyToolkit.Yaml

/-- The tags that have a meaning of their own. -/
inductive Tag where
  | str
  | int
  | float
  | bool
  | null
  | timestamp
  | binary
  | seq
  | map
  | set
  /-- A mapping in order: a sequence of mappings with one entry each. -/
  | omap
  | pairs
  /-- The key of entries to be merged in. -/
  | merge
  /-- The key of the entry that stands for its mapping. -/
  | defaultValue
  /-- A tag without a meaning here. -/
  | unknown
deriving DecidableEq

namespace Tag

def space : Text := "tag:yaml.org,2002:"

/-- The short names of the tags. -/
def names : List (Text × Tag) := [
    ("str", str), ("int", int), ("float", float), ("bool", bool), ("null", null),
    ("timestamp", timestamp), ("binary", binary), ("seq", seq), ("map", map), ("set", set),
    ("omap", omap), ("pairs", pairs), ("merge", merge), ("value", defaultValue)]

/-- The tag that a full name stands for. -/
def ofName (name : Text) : Tag :=
  match space.isPrefixOf? name with
  | none => unknown
  | some short => ((names.find? fun entry => entry.1 = short).map Prod.snd).getD unknown

end Tag

/-- Gives a tag to the plain scalars of a form. It is asked about those that start with one of some
code points; none stands for the empty text. -/
structure Resolver where
  tag : Tag
  starts : List (Option CodePoint)
  form : Regex

namespace Resolver

/-- A line feed may follow what has the form. -/
def applies (resolver : Resolver) (t : Text) : Bool :=
  resolver.starts.contains t.head? &&
    (resolver.form.accepts t ||
      (t.getLast? = some (CodePoint.ofChar '\n') && resolver.form.accepts t.dropLast))

def startsOf (t : Text) : List (Option CodePoint) := t.map some

open Regex

def words (choices : List Text) : Regex := firstOf (choices.map word)

def sign : Regex := optional (oneOf "-+")

/-- Digits of a class and underscores. -/
def digits (choices : Text) : Regex := many (oneOf choices)

def decimals : Regex := digits "0123456789_"

/-- Further parts of a number in base 60. -/
def sixtieths : Regex :=
  atLeastOne (sequence [word ":", optional (oneOf "012345"), digit])

def bool : Resolver where
  tag := .bool
  starts := startsOf "yYnNtTfFoO"
  form := words ["yes", "Yes", "YES", "no", "No", "NO", "true", "True", "TRUE", "false", "False",
    "FALSE", "on", "On", "ON", "off", "Off", "OFF"]

def exponent : Regex :=
  optional (sequence [oneOf "eE", oneOf "-+", atLeastOne digit])

def float : Resolver where
  tag := .float
  starts := startsOf "-+0123456789."
  form := firstOf [
    sequence [sign, digit, decimals, word ".", decimals, exponent],
    sequence [word ".", digit, decimals, exponent],
    sequence [sign, digit, decimals, sixtieths, word ".", decimals],
    sequence [sign, word ".", words ["inf", "Inf", "INF"]],
    sequence [word ".", words ["nan", "NaN", "NAN"]]]

def int : Resolver where
  tag := .int
  starts := startsOf "-+0123456789"
  form := firstOf [
    sequence [sign, word "0b", atLeastOne (oneOf "01_")],
    sequence [sign, word "0", atLeastOne (oneOf "01234567_")],
    sequence [sign, either (word "0") (inTurn (oneOf "123456789") decimals)],
    sequence [sign, word "0x", atLeastOne (oneOf "0123456789abcdefABCDEF_")],
    sequence [sign, oneOf "123456789", decimals, sixtieths]]

def merge : Resolver where
  tag := .merge
  starts := startsOf "<"
  form := word "<<"

def null : Resolver where
  tag := .null
  starts := startsOf "~nN" ++ [none]
  form := words ["~", "null", "Null", "NULL", ""]

/-- The offset of a time, after blanks. -/
def zone : Regex :=
  inTurn (many (oneOf " \t"))
    (either (word "Z")
      (sequence [oneOf "-+", digit, optional digit, optional (sequence [word ":", digit, digit])]))

def timestamp : Resolver where
  tag := .timestamp
  starts := startsOf "0123456789"
  form := firstOf [
    sequence [digit, digit, digit, digit, word "-", digit, digit, word "-", digit, digit],
    sequence [digit, digit, digit, digit, word "-", digit, optional digit, word "-", digit,
      optional digit, either (oneOf "Tt") (atLeastOne (oneOf " \t")), digit, optional digit,
      word ":", digit, digit, word ":", digit, digit, optional (inTurn (word ".") (many digit)),
      optional zone]]

def defaultValue : Resolver where
  tag := .defaultValue
  starts := startsOf "="
  form := word "="

/-- The signs that no plain scalar can start with. -/
def nodeSign : Resolver where
  tag := .unknown
  starts := startsOf "!&*"
  form := words ["!", "&", "*"]

/-- All resolvers, in the order in which they are asked. -/
def all : List Resolver :=
  [bool, float, int, merge, null, timestamp, defaultValue, nodeSign]

end Resolver

namespace Tag

/-- The tags that would turn a plain scalar into something else than its text. -/
def converted : List Tag := [bool, int, float, null, timestamp, defaultValue]

/-- The resolvers that are left. -/
def resolvers : List Resolver := Resolver.all.filter fun resolver => resolver.tag ∉ converted

/-- The tag of an untagged plain scalar: that of the first resolver that applies. -/
def ofPlain (t : Text) : Tag :=
  match resolvers.find? fun resolver => resolver.applies t with
  | some resolver => resolver.tag
  | none => str

end Tag

end PropertyToolkit.Yaml
