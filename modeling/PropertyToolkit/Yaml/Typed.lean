import PropertyToolkit.Base64.Decode
import PropertyToolkit.Text.Lowercase
import PropertyToolkit.Yaml.Fault
import PropertyToolkit.Yaml.Tag
import PropertyToolkit.Yaml.Timestamp

/-!
The values of tagged scalars. Numbers may hold underscores, which are dropped, and may be written in
base 60 with colons between their digits; integers may have the prefix of a base. Timestamps are
dates and times, and binary data are written in Base64.
-/

set_option autoImplicit false

namespace PropertyToolkit.Yaml

def dropUnderscores (t : Text) : Text := t.filter fun c => !(c = '_')

/-- Reads an integer of a base. -/
def integerOf (base : Nat) (t : Text) : Except Fault Int :=
  match Integer.read base t with
  | .ok n => .ok n
  | .error .malformed => .error (.notInteger base t)
  | .error (.tooLong digits) => .error (.tooLong digits)

def floatOf (t : Text) : Except Fault Double :=
  match Double.read? t with
  | some d => .ok d
  | none => .error (.notFloat t)

/-- The number of some digits of base 60, most significant first. -/
def sexagesimal (digits : List Int) : Int := digits.foldl (fun n digit => n * 60 + digit) 0

/-- Adds up digits of base 60, least significant first, from a given weight on. -/
def sexagesimalFloat (weight : Int) (sum : Double) : List Double → Except Fault Double
  | [] => .ok sum
  | digit :: rest =>
    match Double.ofInt? weight with
    | none => .error .floatOverflow
    | some factor => sexagesimalFloat (weight * 60) (sum.add (digit.mul factor)) rest

/-- The value of an integer without its sign. -/
def unsignedInteger (body : Text) : Except Fault Int :=
  if body = "0" then .ok 0
  else
    match List.isPrefixOf? "0b" body, List.isPrefixOf? "0x" body with
    | some digits, _ => integerOf 2 digits
    | none, some digits => integerOf 16 digits
    | none, none =>
      match body.head? with
      | none => .error .emptyNumber
      | some c =>
        if c = '0' then integerOf 8 body
        else if body.contains ':' then ((body.splitOn ':').mapM (integerOf 10)).map sexagesimal
        else integerOf 10 body

/-- The value of a scalar tagged as an integer. -/
def integerValue (t : Text) : Except Fault Int :=
  match dropUnderscores t with
  | [] => .error .emptyNumber
  | c :: rest =>
    let (negative, body) := Integer.cutSign (c :: rest)
    (unsignedInteger body).map fun n => if negative then -n else n

/-- The value of a floating-point number without its sign. -/
def unsignedFloat (body : Text) : Except Fault Double :=
  if body = ".inf" then .ok (.infinite false)
  else if body = ".nan" then .ok .nan
  else if body.contains ':' then do
    let digits ← (body.splitOn ':').mapM floatOf
    sexagesimalFloat 1 (.finite false 0) digits.reverse
  else floatOf body

/-- The value of a scalar tagged as a floating-point number. -/
def floatValue (t : Text) : Except Fault Double :=
  match (dropUnderscores t).lower with
  | [] => .error .emptyNumber
  | c :: rest =>
    let (negative, body) := Integer.cutSign (c :: rest)
    (unsignedFloat body).map fun d => if negative then d.neg else d

/-- The value of a scalar tagged as a truth value. -/
def boolValue (t : Text) : Except Fault Bool :=
  let word := t.lower
  if word = "yes" ∨ word = "true" ∨ word = "on" then .ok true
  else if word = "no" ∨ word = "false" ∨ word = "off" then .ok false
  else .error .notBoolean

/-- The value of a scalar tagged as a timestamp. -/
def timestampValue (t : Text) : Except Fault Value :=
  match Timestamp.ofText? t with
  | none => .error .notTimestamp
  | some timestamp => timestamp.value.mapError .calendar

/-- The value of a scalar tagged as binary data. -/
def binaryValue (t : Text) : Except Fault Value :=
  match Base64.decodeAmong t with
  | none => .error .malformed
  | some bytes => .ok (.bytes bytes)

/-- The value of a scalar under a tag; the other tags give a scalar no value. The text may be that
of the node itself, or `own` is false and it is that of its default value. -/
def scalarValue (tag : Tag) (own : Bool) (t : Text) : Except Fault Value :=
  match tag with
  | .str => .ok (.text t)
  | .null => .ok .null
  | .int => (integerValue t).map .int
  | .float => (floatValue t).map .float
  | .bool => (boolValue t).map .bool
  | .timestamp => if own then timestampValue t else .error .displacedTimestamp
  | .binary => binaryValue t
  | .seq | .map | .set | .omap | .pairs | .merge | .defaultValue | .unknown => .error .malformed

end PropertyToolkit.Yaml
