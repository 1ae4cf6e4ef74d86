import PropertyToolkit.Calendar
import PropertyToolkit.Value.Basic
import PropertyToolkit.Yaml.Cursor

/-!
Timestamps: a date in digits, which a time may follow, which an offset may follow. The digits are
read first; whether they are a date and a time is seen from the numbers that they stand for.
-/

set_option autoImplicit false

namespace PropertyToolkit.Yaml

/-- The numbers of a time of day, with its offset in minutes if it has one. -/
structure WrittenTime where
  hour : Nat
  minute : Nat
  second : Nat
  micro : Fin 1000000
  offset : Option Int

/-- The numbers of a timestamp. -/
structure Timestamp where
  year : Nat
  month : Nat
  day : Nat
  time : Option WrittenTime

namespace Timestamp

/-- Reads a number of some ASCII digits, with the text after it. -/
def number? (least most : Nat) (t : Text) : Option (Nat × Text) :=
  let digits := (t.take most).takeWhile CodePoint.isAsciiDigit
  if digits.length < least then none
  else some (Text.value 10 (digits.map fun c => c.value - '0'.toNat), t.drop digits.length)

/-- The text after a given code point. -/
def skip? (c : CodePoint) : Text → Option Text
  | [] => none
  | d :: rest => if d = c then some rest else none

/-- A number after a given code point. -/
def numberAfter? (c : CodePoint) (least most : Nat) (t : Text) : Option (Nat × Text) :=
  (skip? c t).bind (number? least most)

/-- A timestamp ends with its text, or with the line feed that ends it. -/
def isEnd (t : Text) : Bool := t = [] || t = "\n"

/-- The microseconds of a fraction; digits beyond the sixth are dropped. -/
def microOf (digits : Text) : Fin 1000000 :=
  let padded := (digits ++ List.replicate 6 (CodePoint.ofChar '0')).take 6
  let n := Text.value 10 (padded.map fun c => c.value - '0'.toNat)
  ⟨n % 1000000, Nat.mod_lt n (by decide)⟩

/-- The fraction of a second, which may be left out, and the text after it. -/
def fraction (t : Text) : Fin 1000000 × Text :=
  match skip? '.' t with
  | none => (0, t)
  | some rest =>
    (microOf (rest.takeWhile CodePoint.isAsciiDigit), rest.dropWhile CodePoint.isAsciiDigit)

/-- An offset in minutes and the text after it. -/
def offset? (t : Text) : Option (Int × Text) :=
  match t.dropWhile isSpaceOrTab with
  | [] => none
  | c :: rest =>
    if c = 'Z' then some (0, rest)
    else if c = '+' ∨ c = '-' then do
      let (hours, rest) ← number? 1 2 rest
      let (minutes, rest) := (numberAfter? ':' 2 2 rest).getD (0, rest)
      let ahead : Int := hours * 60 + minutes
      return (if c = '-' then -ahead else ahead, rest)
    else none

/-- Reads a time up to the end of the text. -/
def time? (t : Text) : Option WrittenTime := do
  let (hour, t) ← number? 1 2 t
  let (minute, t) ← numberAfter? ':' 2 2 t
  let (second, t) ← numberAfter? ':' 2 2 t
  let (micro, t) := fraction t
  if isEnd t then return ⟨hour, minute, second, micro, none⟩
  else
    let (offset, t) ← offset? t
    if isEnd t then return ⟨hour, minute, second, micro, some offset⟩ else none

/-- The text of the time after a date: a letter or blanks part the two. -/
def timeText? : Text → Option Text
  | [] => none
  | c :: rest =>
    if c = 'T' ∨ c = 't' then some rest
    else if isSpaceOrTab c then some (rest.dropWhile isSpaceOrTab)
    else none

def ofText? (t : Text) : Option Timestamp := do
  let (year, t) ← number? 4 4 t
  let (month, t) ← numberAfter? '-' 1 2 t
  let (day, t) ← numberAfter? '-' 1 2 t
  if isEnd t then return ⟨year, month, day, none⟩
  else
    let time ← time? (← timeText? t)
    return ⟨year, month, day, some time⟩

/-- The date or the time that the numbers stand for. The offset is looked at first. -/
def value (timestamp : Timestamp) : Except CalendarFault Value :=
  match timestamp.time with
  | none => (Date.make timestamp.year timestamp.month timestamp.day).map .date
  | some time => do
    let offset ← time.offset.mapM Offset.make
    let date ← Date.make timestamp.year timestamp.month timestamp.day
    let clock ← Clock.make time.hour time.minute time.second time.micro
    return .dateTime ⟨date, clock, offset⟩

end Timestamp

end PropertyToolkit.Yaml
