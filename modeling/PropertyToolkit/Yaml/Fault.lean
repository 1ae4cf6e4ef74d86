import PropertyToolkit.Calendar
import PropertyToolkit.Text.Quoted

/-!
Why a YAML text has no value. Most texts that have none are malformed; a few are well-formed but
spell a value that does not exist, or are nested too deeply, and these keep their own reasons.
-/

set_option autoImplicit false

namespace PropertyToolkit.Yaml

inductive Fault where
  | malformed
  /-- An escape spells a number that is no code point. -/
  | codePointRange
  /-- An escape spells a number beyond 32 bits with a sign. -/
  | codePointOverflow
  /-- A scalar tagged as an integer, or a part of it, is none in the base that it is read in. -/
  | notInteger (base : Nat) (t : Text)
  /-- A number has too many digits to be read. -/
  | tooLong (digits : Nat)
  /-- A scalar tagged as a floating-point number, or a part of it, is none. -/
  | notFloat (t : Text)
  /-- A part of a floating-point number in base 60 has a weight out of range. -/
  | floatOverflow
  /-- A scalar tagged as a truth value is none. -/
  | notBoolean
  /-- A scalar tagged as a number is empty. -/
  | emptyNumber
  /-- A scalar tagged as a timestamp is none. -/
  | notTimestamp
  /-- A timestamp is not spelled at its own node. -/
  | displacedTimestamp
  /-- A timestamp is spelled well, but there is no such day, time or offset. -/
  | calendar (fault : CalendarFault)
  /-- The stack does not reach. -/
  | tooDeep
deriving DecidableEq

/-- The message of a fault that concerns a value; the others have none. -/
def Fault.message? : Fault → Option Text
  | codePointRange => some "chr() arg not in range(0x110000)"
  | notInteger base t =>
    some ("invalid literal for int() with base " ++
      (Text.ofNat base ++ (": " ++ t.quoted.take 200)))
  | tooLong digits => some (Integer.tooLongMessage digits)
  | notFloat t => some ("could not convert string to float: " ++ t.quoted)
  | calendar fault => some fault.message
  | malformed | codePointOverflow | floatOverflow | notBoolean | emptyNumber | notTimestamp
  | displacedTimestamp | tooDeep => none

end PropertyToolkit.Yaml
