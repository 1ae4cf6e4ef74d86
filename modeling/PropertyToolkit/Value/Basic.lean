import PropertyToolkit.Calendar
import PropertyToolkit.Number.Shortest
import PropertyToolkit.Text.Quoted

/-!
Dynamic values: the values of attributes, of maps that are expanded and of data files. Equality is
numeric, so `true`, `1` and `1.0` are one value, and maps are equal in any order of their entries.
-/

set_option autoImplicit false

namespace PropertyToolkit

inductive Value where
  | null
  | bool (b : Bool)
  | int (n : Int)
  | float (d : Double)
  | text (t : Text)
  | bytes (content : List UInt8)
  | date (day : Date)
  | dateTime (moment : DateTime)
  | list (items : List Value)
  | map (entries : List (Value × Value))

namespace Value

instance : Inhabited Value := ⟨null⟩

/-- The integer that a truth value counts as. -/
def bit (b : Bool) : Int := if b then 1 else 0

mutual

/-- Equality of values. A NaN equals nothing. -/
def same : Value → Value → Bool
  | null, null => true
  | bool a, bool b => a = b
  | bool a, int n => bit a = n
  | bool a, float d => d.sameInt (bit a)
  | int n, bool b => n = bit b
  | int m, int n => m = n
  | int n, float d => d.sameInt n
  | float d, bool b => d.sameInt (bit b)
  | float d, int n => d.sameInt n
  | float c, float d => c.same d
  | text s, text t => s = t
  | bytes a, bytes b => a = b
  | date a, date b => a = b
  | dateTime a, dateTime b => a.same b
  | list xs, list ys => sameItems xs ys
  | map xs, map ys => xs.length = ys.length && sameEntries xs ys
  | _, _ => false

def sameItems : List Value → List Value → Bool
  | [], [] => true
  | x :: xs, y :: ys => same x y && sameItems xs ys
  | _, _ => false

/-- Every entry of the first list has an equal one in the second. -/
def sameEntries : List (Value × Value) → List (Value × Value) → Bool
  | [], _ => true
  | (key, value) :: rest, entries =>
    entries.any (fun entry => same key entry.1 && same value entry.2) && sameEntries rest entries

end

mutual

/-- The text of a value inside another one, where texts are quoted. -/
def quoted : Value → Text
  | null => "None"
  | bool b => if b then "True" else "False"
  | int n => Text.ofInt n
  | float d => d.text
  | text t => t.quoted
  | bytes content => Text.quotedBytes content
  | date day => day.quoted
  | dateTime moment => moment.quoted
  | list items => "[" ++ quotedItems items ++ "]"
  | map entries => "\x7b" ++ quotedEntries entries ++ "\x7d"

def quotedItems : List Value → Text
  | [] => []
  | [item] => quoted item
  | item :: rest => quoted item ++ ", " ++ quotedItems rest

def quotedEntries : List (Value × Value) → Text
  | [] => []
  | [(key, value)] => quoted key ++ ": " ++ quoted value
  | (key, value) :: rest => quoted key ++ ": " ++ quoted value ++ ", " ++ quotedEntries rest

end

/-- Puts a value in the place of an equal key, which stays as it is, or at the end. -/
def putEntry (key value : Value) : List (Value × Value) → List (Value × Value)
  | [] => [(key, value)]
  | entry :: rest =>
    if entry.1.same key then (entry.1, value) :: rest else entry :: putEntry key value rest

/-- The entries of a map that is filled pair by pair. -/
def entriesOf (pairs : List (Value × Value)) : List (Value × Value) :=
  pairs.foldl (fun entries pair => putEntry pair.1 pair.2 entries) []

/-- The name that a value is, if it is a text. -/
def name? : Value → Option Text
  | text t => some t
  | _ => none

/-- The text of a value on its own: a text is written as it is, and a date or a time in digits. -/
def display : Value → Text
  | text t => t
  | date day => day.text
  | dateTime moment => moment.text
  | value => value.quoted

/-- The text of a set of values, which come in some order. -/
def setText (items : List Value) : Text :=
  if items = [] then "set()" else "\x7b" ++ quotedItems items ++ "\x7d"

/-- The text of a value as a property, where truth values are written small. -/
def property : Value → Text
  | bool b => if b then "true" else "false"
  | value => value.display

end Value

end PropertyToolkit
