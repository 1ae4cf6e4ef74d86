import PropertyToolkit.Number.Integer

/-!
Dates and times. The calendar is the Gregorian one, also for the time before it was introduced. A
time of day may come with its offset from Greenwich, and then it stands for an instant.
-/

set_option autoImplicit false

namespace PropertyToolkit

namespace Text

/-- A number with zeros in front of it up to some width. -/
def zeroPadded (width n : Nat) : Text :=
  List.replicate (width - (ofNat n).length) (CodePoint.ofChar '0') ++ ofNat n

end Text

/-- Why some numbers are no date, no time or no offset. -/
inductive CalendarFault where
  | year (n : Nat)
  | month
  | day
  | hour
  | minute
  | second
  /-- The offset is a day long or longer. -/
  | offset (minutes : Int)
deriving DecidableEq

/-- A span of minutes, in whole days and the seconds after them. -/
def spanText (minutes : Int) : Text :=
  let days := minutes / 1440
  let seconds := minutes % 1440 * 60
  let parts : List Text :=
    (if days = 0 then [] else ["days=" ++ Text.ofInt days]) ++
      if seconds = 0 then [] else ["seconds=" ++ Text.ofInt seconds]
  let inside : Text := if parts = [] then "0" else List.intercalate ", " parts
  "datetime.timedelta(" ++ (inside ++ ")")

def CalendarFault.message : CalendarFault → Text
  | year n => "year " ++ (Text.ofNat n ++ " is out of range")
  | month => "month must be in 1..12"
  | day => "day is out of range for month"
  | hour => "hour must be in 0..23"
  | minute => "minute must be in 0..59"
  | second => "second must be in 0..59"
  | offset minutes =>
    "offset must be a timedelta strictly between -timedelta(hours=24) and timedelta(hours=24), " ++
      ("not " ++ (spanText minutes ++ "."))

def isLeap (year : Nat) : Bool := year % 4 = 0 && (year % 100 ≠ 0 || year % 400 = 0)

def daysIn (year month : Nat) : Nat :=
  if month = 2 then if isLeap year then 29 else 28
  else if month = 4 ∨ month = 6 ∨ month = 9 ∨ month = 11 then 30 else 31

structure Date where
  year : Nat
  month : Nat
  day : Nat
  yearRange : 1 ≤ year ∧ year ≤ 9999
  monthRange : 1 ≤ month ∧ month ≤ 12
  dayRange : 1 ≤ day ∧ day ≤ daysIn year month
deriving DecidableEq

namespace Date

def make (year month day : Nat) : Except CalendarFault Date :=
  if yearRange : 1 ≤ year ∧ year ≤ 9999 then
    if monthRange : 1 ≤ month ∧ month ≤ 12 then
      if dayRange : 1 ≤ day ∧ day ≤ daysIn year month then
        .ok ⟨year, month, day, yearRange, monthRange, dayRange⟩
      else .error .day
    else .error .month
  else .error (.year year)

/-- The days of some year up to the end of its month `month`. -/
def daysUpTo (year : Nat) : (month : Nat) → Nat
  | 0 => 0
  | month + 1 => daysUpTo year month + daysIn year (month + 1)

/-- The number of a day, counted from the first day of the year 1. -/
def ordinal (date : Date) : Nat :=
  let past := date.year - 1
  past * 365 + past / 4 - past / 100 + past / 400 + daysUpTo date.year (date.month - 1) + date.day

def text (date : Date) : Text :=
  Text.zeroPadded 4 date.year ++ ("-" ++ (Text.zeroPadded 2 date.month ++ ("-" ++
    Text.zeroPadded 2 date.day)))

end Date

/-- A time of day, down to microseconds. -/
structure Clock where
  hour : Fin 24
  minute : Fin 60
  second : Fin 60
  micro : Fin 1000000
deriving DecidableEq

namespace Clock

def make (hour minute second : Nat) (micro : Fin 1000000) : Except CalendarFault Clock :=
  if hourRange : hour < 24 then
    if minuteRange : minute < 60 then
      if secondRange : second < 60 then
        .ok ⟨⟨hour, hourRange⟩, ⟨minute, minuteRange⟩, ⟨second, secondRange⟩, micro⟩
      else .error .second
    else .error .minute
  else .error .hour

def text (clock : Clock) : Text :=
  Text.zeroPadded 2 clock.hour.val ++ (":" ++ (Text.zeroPadded 2 clock.minute.val ++ (":" ++
    (Text.zeroPadded 2 clock.second.val ++
      (if clock.micro.val = 0 then ([] : Text) else "." ++ Text.zeroPadded 6 clock.micro.val)))))

end Clock

/-- How far a time of day is ahead of Greenwich, in minutes. It is less than a day. -/
structure Offset where
  minutes : Int
  range : -1440 < minutes ∧ minutes < 1440
deriving DecidableEq

namespace Offset

def make (minutes : Int) : Except CalendarFault Offset :=
  if range : -1440 < minutes ∧ minutes < 1440 then .ok ⟨minutes, range⟩
  else .error (.offset minutes)

def text (offset : Offset) : Text :=
  (if offset.minutes < 0 then ("-" : Text) else "+") ++
    (Text.zeroPadded 2 (offset.minutes.natAbs / 60) ++ (":" ++
      Text.zeroPadded 2 (offset.minutes.natAbs % 60)))

end Offset

structure DateTime where
  date : Date
  clock : Clock
  offset : Option Offset
deriving DecidableEq

namespace DateTime

/-- The microseconds from the start of the calendar up to a time with some offset. -/
def instant (moment : DateTime) (offset : Offset) : Int :=
  let minutes : Int :=
    (moment.date.ordinal * 24 + moment.clock.hour.val) * 60 + moment.clock.minute.val -
      offset.minutes
  (minutes * 60 + moment.clock.second.val) * 1000000 + moment.clock.micro.val

/-- Two times with offsets are the same if they stand for one instant. A time without an offset is
the same as no time with one. -/
def same (a b : DateTime) : Bool :=
  match a.offset, b.offset with
  | some ahead, some further => a.instant ahead = b.instant further
  | none, none => a.date = b.date && a.clock = b.clock
  | _, _ => false

def text (moment : DateTime) : Text :=
  moment.date.text ++ (" " ++ (moment.clock.text ++ (moment.offset.map Offset.text).getD []))

end DateTime

/-! ## Dates and times inside of other values -/

def Date.fields (date : Date) : List Nat := [date.year, date.month, date.day]

/-- The fields of a time. Seconds and microseconds are left out at the end if they are zero. -/
def Clock.fields (clock : Clock) : List Nat :=
  [clock.hour.val, clock.minute.val] ++
    if clock.micro.val = 0 then
      if clock.second.val = 0 then [] else [clock.second.val]
    else [clock.second.val, clock.micro.val]

def Offset.quoted (offset : Offset) : Text :=
  if offset.minutes = 0 then "datetime.timezone.utc"
  else "datetime.timezone(" ++ (spanText offset.minutes ++ ")")

def Date.quoted (date : Date) : Text :=
  "datetime.date(" ++ (List.intercalate ", " (date.fields.map Text.ofNat) ++ ")")

def DateTime.quoted (moment : DateTime) : Text :=
  let fields := (moment.date.fields ++ moment.clock.fields).map Text.ofNat
  let zone (offset : Offset) : Text := "tzinfo=" ++ offset.quoted
  "datetime.datetime(" ++ (List.intercalate ", " (fields ++ (moment.offset.map zone).toList) ++ ")")

end PropertyToolkit
