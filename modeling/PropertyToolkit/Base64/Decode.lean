import PropertyToolkit.Base64.Alphabet
import PropertyToolkit.Number.Integer

/-!
Reading Base64. Blanks are dropped first. The rest is read digit by digit, four to a group, until
the pads of a group complete it. Pads where no group is open change nothing, as long as no digit
follows; the low bits that a last group leaves over are dropped.
-/

set_option autoImplicit false

namespace PropertyToolkit.Base64

inductive DecodeFault where
  | notAscii
  | leadingPad
  | excessData
  | foreignCodePoint
  | digitAfterPad
  /-- The last group has a single digit; `digits` of them were read in all. -/
  | loneDigit (digits : Nat)
  | incompletePad
deriving DecidableEq

def DecodeFault.message : DecodeFault → Text
  | notAscii => "string argument should contain only ASCII characters"
  | leadingPad => "Invalid Base64 input: Leading padding not allowed"
  | excessData => "Invalid Base64 input: Excess data after padding"
  | foreignCodePoint => "Invalid Base64 input: Only base64 data is allowed"
  | digitAfterPad => "Invalid Base64 input: Discontinuous padding not allowed"
  | loneDigit digits =>
    "Invalid Base64 input: Invalid base64-encoded string: number of data characters (" ++
      (Text.ofNat digits ++ ") cannot be 1 more than a multiple of 4")
  | incompletePad => "Invalid Base64 input: Incorrect padding"

/-- The byte that ends with the given digit, where `before` holds the digits of its group so far,
the last first. The first digit of a group ends none. -/
def byteOf (before : List Sextet) (n : Sextet) : List UInt8 :=
  match before with
  | [a] => [UInt8.ofNat (a.val * 4 + n.val / 16)]
  | [b, _] => [UInt8.ofNat (b.val % 16 * 16 + n.val / 4)]
  | [c, _, _] => [UInt8.ofNat (c.val % 4 * 64 + n.val)]
  | _ => []

/-- The state of a reader: the digits of the open group, the last first; how many digits came in
all; the pads since the last digit that count for the group; and whether there was a pad at all. -/
structure Reader where
  group : List Sextet
  digits : Nat
  pads : Nat
  padded : Bool

namespace Reader

def start : Reader := ⟨[], 0, 0, false⟩

/-- Takes one digit. The fourth one closes the group. -/
def push (reader : Reader) (n : Sextet) : Reader where
  group := if reader.group.length = 3 then [] else n :: reader.group
  digits := reader.digits + 1
  pads := 0
  padded := reader.padded

/-- What the end of the text makes of the open group. -/
def finish (reader : Reader) : Except DecodeFault (List UInt8) :=
  match reader.group.length with
  | 0 => .ok []
  | 1 => .error (.loneDigit reader.digits)
  | _ => .error .incompletePad

/-- The bytes of the rest of a text. The pads that complete a group end it. -/
def read (reader : Reader) : Text → Except DecodeFault (List UInt8)
  | [] => reader.finish
  | c :: rest =>
    if c = pad then
      if 2 ≤ reader.group.length then
        if 4 ≤ reader.group.length + (reader.pads + 1) then
          if rest = [] then .ok [] else .error .excessData
        else read { reader with pads := reader.pads + 1, padded := true } rest
      else read { reader with padded := true } rest
    else
      match sextet? c with
      | none => .error .foreignCodePoint
      | some n =>
        if reader.padded then .error .digitAfterPad
        else (read (reader.push n) rest).map (byteOf reader.group n ++ ·)

/-- The bytes of the rest of a text in which all is skipped that is neither a digit nor a pad. Only
pads that complete a group end it, and what follows them is not read. -/
def readAmong (reader : Reader) : Text → Option (List UInt8)
  | [] => if reader.group = [] then some [] else none
  | c :: rest =>
    if c = pad then
      if 2 ≤ reader.group.length then
        if 4 ≤ reader.group.length + (reader.pads + 1) then some []
        else readAmong { reader with pads := reader.pads + 1 } rest
      else readAmong reader rest
    else
      match sextet? c with
      | none => readAmong reader rest
      | some n => (readAmong (reader.push n) rest).map (byteOf reader.group n ++ ·)

end Reader

/-- Reads a text that holds no blanks. -/
def decodeCompact (t : Text) : Except DecodeFault (List UInt8) :=
  if t.any fun c => 0x80 ≤ c.value then .error .notAscii
  else if t.head? = some pad then .error .leadingPad
  else Reader.start.read t

def decode (t : Text) : Except DecodeFault (List UInt8) :=
  decodeCompact (t.filter fun c => !c.isBlank)

/-- Reads what is Base64 in an ASCII text, whatever else it holds. -/
def decodeAmong (t : Text) : Option (List UInt8) :=
  if t.any fun c => 0x80 ≤ c.value then none else Reader.start.readAmong t

end PropertyToolkit.Base64
