import PropertyToolkit.Number.Integer
import PropertyToolkit.Text.Quoted

/-!
UTF-8. Decoding is strict: it names the first byte that begins no code point, with the reason and
the range of bytes that it spoils. Encoding refuses surrogates and names the run of them; a
surrogate of the range `0xDC80` to `0xDCFF` may stand for a single byte where the writer allows it.
-/

set_option autoImplicit false

namespace PropertyToolkit.Utf8

inductive Reason where
  | invalidStart
  | invalidContinuation
  | unexpectedEnd
deriving DecidableEq

/-- The bytes at positions `first` up to `last` begin no code point; `byte` is the first of them. -/
structure DecodeFault where
  byte : UInt8
  first : Nat
  last : Nat
  reason : Reason
deriving DecidableEq

/-- The surrogates at positions `first` up to `last` cannot be written; `lead` is the first. -/
structure EncodeFault where
  lead : CodePoint
  first : Nat
  last : Nat
deriving DecidableEq

def Reason.message : Reason → Text
  | invalidStart => "invalid start byte"
  | invalidContinuation => "invalid continuation byte"
  | unexpectedEnd => "unexpected end of data"

def DecodeFault.message (fault : DecodeFault) : Text :=
  "'utf-8' codec can't decode " ++
    (if fault.first = fault.last then
      "byte 0x" ++ Text.hexDigits 2 fault.byte.toNat ++ " in position " ++ Text.ofNat fault.first
    else
      "bytes in position " ++ Text.ofNat fault.first ++ "-" ++ Text.ofNat fault.last) ++
    ": " ++ fault.reason.message

def EncodeFault.message (fault : EncodeFault) : Text :=
  "'utf-8' codec can't encode " ++
    (if fault.first = fault.last then
      "character '" ++ Text.hexEscape fault.lead ++ "' in position " ++ Text.ofNat fault.first
    else
      "characters in position " ++ Text.ofNat fault.first ++ "-" ++ Text.ofNat fault.last) ++
    ": surrogates not allowed"

/-- The code point of a number that is known to be small enough. -/
def codePoint (n : Nat) : CodePoint := (CodePoint.ofNat? n).getD default

/-- How many continuation bytes follow a lead byte, and the range of the first of them. -/
def shape? (lead : Nat) : Option (Nat × Nat × Nat) :=
  if lead < 0xC2 then none
  else if lead < 0xE0 then some (1, 0x80, 0xBF)
  else if lead = 0xE0 then some (2, 0xA0, 0xBF)
  else if lead = 0xED then some (2, 0x80, 0x9F)
  else if lead < 0xF0 then some (2, 0x80, 0xBF)
  else if lead = 0xF0 then some (3, 0x90, 0xBF)
  else if lead < 0xF4 then some (3, 0x80, 0xBF)
  else if lead = 0xF4 then some (3, 0x80, 0x8F)
  else none

/-- Reads `missing` further continuation bytes. An error tells how many bytes were right and why the
next one is not. -/
def continuation : (missing low high value seen : Nat) → List UInt8 →
    Except (Nat × Reason) (Nat × List UInt8)
  | 0, _, _, value, _, rest => .ok (value, rest)
  | _ + 1, _, _, _, seen, [] => .error (seen, .unexpectedEnd)
  | missing + 1, low, high, value, seen, b :: rest =>
    if low ≤ b.toNat ∧ b.toNat ≤ high then
      continuation missing 0x80 0xBF (value * 64 + b.toNat % 64) (seen + 1) rest
    else .error (seen, .invalidContinuation)

/-- Reads one code point from a list of bytes that is not empty. With the code point come the number
of its bytes and the bytes after them. -/
def decodeOne (lead : UInt8) (rest : List UInt8) :
    Except (Nat × Reason) (CodePoint × Nat × List UInt8) :=
  if lead.toNat < 0x80 then .ok (codePoint lead.toNat, 1, rest)
  else
    match shape? lead.toNat with
    | none => .error (1, .invalidStart)
    | some (missing, low, high) =>
      match continuation missing low high (lead.toNat % Nat.pow 2 (6 - missing)) 1 rest with
      | .error fault => .error fault
      | .ok (value, rest) => .ok (codePoint value, missing + 1, rest)

theorem length_of_continuation {missing low high value seen result : Nat} {bytes left : List UInt8}
    (h : continuation missing low high value seen bytes = .ok (result, left)) :
    left.length ≤ bytes.length := by
  induction missing generalizing low high value seen bytes with
  | zero =>
    rw [continuation] at h
    cases h
    exact Nat.le_refl _
  | succ missing ih =>
    cases bytes with
    | nil => cases h
    | cons b rest =>
      rw [continuation] at h
      split at h
      · exact Nat.le_succ_of_le (ih h)
      · cases h

theorem length_of_decodeOne {lead : UInt8} {rest : List UInt8}
    {read : CodePoint × Nat × List UInt8} (h : decodeOne lead rest = .ok read) :
    read.2.2.length ≤ rest.length := by
  unfold decodeOne at h
  split at h
  · cases h
    exact Nat.le_refl _
  · split at h
    · cases h
    · split at h
      · cases h
      · next found =>
        cases h
        exact length_of_continuation found

/-- The text of the bytes from `position` on. -/
def decodeFrom (position : Nat) (bytes : List UInt8) : Except DecodeFault Text :=
  match bytes with
  | [] => .ok []
  | lead :: rest =>
    match _h : decodeOne lead rest with
    | .error (count, reason) => .error ⟨lead, position, position + count - 1, reason⟩
    | .ok (c, count, tail) =>
      match decodeFrom (position + count) tail with
      | .error fault => .error fault
      | .ok t => .ok (c :: t)
termination_by bytes.length
decreasing_by exact Nat.lt_succ_of_le (length_of_decodeOne _h)

def decode (bytes : List UInt8) : Except DecodeFault Text := decodeFrom 0 bytes

/-- The bytes of a code point that is not a surrogate. -/
def encodeCodePoint (c : CodePoint) : List UInt8 :=
  let n := c.value
  let tail (shift : Nat) : UInt8 := UInt8.ofNat (0x80 + n / Nat.pow 2 shift % 64)
  if n < 0x80 then [UInt8.ofNat n]
  else if n < 0x800 then [UInt8.ofNat (0xC0 + n / Nat.pow 2 6), tail 0]
  else if n < 0x10000 then [UInt8.ofNat (0xE0 + n / Nat.pow 2 12), tail 6, tail 0]
  else [UInt8.ofNat (0xF0 + n / Nat.pow 2 18), tail 12, tail 6, tail 0]

/-- The byte that a surrogate stands for, if it stands for one. -/
def escapedByte? (c : CodePoint) : Option UInt8 :=
  if 0xDC80 ≤ c.value ∧ c.value ≤ 0xDCFF then some (UInt8.ofNat (c.value - 0xDC00)) else none

/-- The bytes of a code point. With `escapes`, a surrogate that stands for a byte is written as that
byte; any other surrogate has no bytes. -/
def bytesOf? (escapes : Bool) (c : CodePoint) : Option (List UInt8) :=
  if c.isSurrogate then
    if escapes then (escapedByte? c).map fun b => [b] else none
  else some (encodeCodePoint c)

/-- The bytes of the text from `position` on. -/
def encodeFrom (escapes : Bool) (position : Nat) : Text → Except EncodeFault (List UInt8)
  | [] => .ok []
  | c :: rest =>
    match bytesOf? escapes c with
    | none =>
      .error ⟨c, position, position + (rest.takeWhile CodePoint.isSurrogate).length⟩
    | some bytes =>
      match encodeFrom escapes (position + 1) rest with
      | .error fault => .error fault
      | .ok more => .ok (bytes ++ more)

def encode (t : Text) : Except EncodeFault (List UInt8) := encodeFrom false 0 t

/-- Encoding for names outside of the program, where a surrogate may stand for a byte. -/
def encodeName (t : Text) : Except EncodeFault (List UInt8) := encodeFrom true 0 t

/-- The number of bytes of a name. -/
def nameSize (t : Text) : Nat := (t.flatMap fun c => (bytesOf? true c).getD []).length

end PropertyToolkit.Utf8
