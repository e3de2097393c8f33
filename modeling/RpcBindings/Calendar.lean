/-!
# RpcBindings.Calendar

Days of the Gregorian calendar and instants with an optional offset from universal time: which
fields make a date, how dates are written, and when two instants are the same.
-/

namespace RpcBindings

/-- A day of the Gregorian calendar, years 1 to 9999. -/
structure Date where
  year : Nat
  month : Nat
  day : Nat
deriving DecidableEq

/-- A date with a time of day, and the offset of its clock from universal time if it states one. -/
structure Instant where
  date : Date
  hour : Nat
  minute : Nat
  second : Nat
  microsecond : Nat
  /-- Microseconds east of universal time. -/
  offset : Option Int
deriving DecidableEq

/-- Why a group of fields is no date or time of day. -/
inductive CalendarError where
  | year (n : Nat)
  | month
  | day
  | hour
  | minute
  | second
  /-- The offset reaches a whole day; it is given in minutes. -/
  | offset (minutes : Int)

namespace Calendar

def isLeapYear (year : Nat) : Bool :=
  year % 4 == 0 && (year % 100 != 0 || year % 400 == 0)

def daysInMonth (year month : Nat) : Nat :=
  if month == 2 then (if isLeapYear year then 29 else 28)
  else if month == 4 || month == 6 || month == 9 || month == 11 then 30
  else 31

/-- Days from 1 January of year 1 to the first day of a year. -/
def daysBeforeYear (year : Nat) : Nat :=
  let y := year - 1
  y * 365 + y / 4 - y / 100 + y / 400

/-- Days from the first day of a year to the first day of a month. -/
def daysBeforeMonth (year month : Nat) : Nat :=
  ((List.range (month - 1)).map fun m => daysInMonth year (m + 1)).foldl Nat.add 0

/-- A number in at least `width` decimal digits. -/
def padded (width n : Nat) : String :=
  let digits := Nat.toDigits 10 n
  String.ofList (List.replicate (width - digits.length) '0' ++ digits)

end Calendar

open Calendar

namespace Date

/-- The date with these fields; the year is checked first, then the month, then the day. -/
def ofFields (year month day : Nat) : Except CalendarError Date :=
  if year < 1 || 9999 < year then .error (.year year)
  else if month < 1 || 12 < month then .error .month
  else if day < 1 || daysInMonth year month < day then .error .day
  else .ok ⟨year, month, day⟩

/-- Days from 1 January of year 1. -/
def dayNumber (d : Date) : Nat :=
  daysBeforeYear d.year + daysBeforeMonth d.year d.month + (d.day - 1)

/-- The standard form `2020-01-31`. -/
def iso (d : Date) : String :=
  padded 4 d.year ++ "-" ++ padded 2 d.month ++ "-" ++ padded 2 d.day

/-- The form of a date in messages. -/
def display (d : Date) : String :=
  s!"datetime.date({d.year}, {d.month}, {d.day})"

end Date

namespace Instant

/-- The instant with these fields; the date is checked before the time of day. -/
def ofFields (year month day hour minute second microsecond : Nat) (offset : Option Int) :
    Except CalendarError Instant := do
  let date ← Date.ofFields year month day
  if 24 ≤ hour then throw .hour
  if 60 ≤ minute then throw .minute
  if 60 ≤ second then throw .second
  return ⟨date, hour, minute, second, microsecond, offset⟩

/-- The earliest time of day on the earliest day, whatever the offset. -/
def isOrigin (t : Instant) : Bool :=
  t.date == ⟨1, 1, 1⟩ && t.hour == 0 && t.minute == 0 && t.second == 0 && t.microsecond == 0

/-- Microseconds on the clock since the origin. -/
def clock (t : Instant) : Int :=
  (((t.date.dayNumber * 24 + t.hour) * 60 + t.minute) * 60 + t.second) * 1000000 + t.microsecond

/-- Two instants are the same when both state an offset and name one point of time, or neither
states one and their clocks agree. -/
def same (s t : Instant) : Bool :=
  match s.offset, t.offset with
  | none, none => s.clock == t.clock
  | some a, some b => s.clock - a == t.clock - b
  | _, _ => false

/-- An offset as `+05:30`, with its seconds and microseconds where there are any. -/
def isoOffset (offset : Int) : String :=
  let micros := offset.natAbs % 1000000
  let seconds := offset.natAbs / 1000000
  let sign := if offset < 0 then "-" else "+"
  let fraction := if micros == 0 then "" else "." ++ padded 6 micros
  let rest := if seconds % 60 == 0 && micros == 0 then "" else ":" ++ padded 2 (seconds % 60)
  sign ++ padded 2 (seconds / 3600) ++ ":" ++ padded 2 (seconds / 60 % 60) ++ rest ++ fraction

/-- The standard form `2020-01-31T10:20:30.000500+05:30`. -/
def iso (t : Instant) : String :=
  let time := padded 2 t.hour ++ ":" ++ padded 2 t.minute ++ ":" ++ padded 2 t.second
  let fraction := if t.microsecond == 0 then "" else "." ++ padded 6 t.microsecond
  t.date.iso ++ "T" ++ time ++ fraction ++ (t.offset.map isoOffset).getD ""

/-- A length of time, in microseconds, as messages show it: whole days, rounded down, then the whole
seconds and the microseconds that remain. -/
def displaySpan (span : Int) : String :=
  let seconds := Int.fdiv span 1000000
  let days := Int.fdiv seconds 86400
  let fields := [("days", days), ("seconds", seconds - days * 86400),
    ("microseconds", span - seconds * 1000000)]
  let parts := (fields.filter (·.2 != 0)).map fun (name, n) => s!"{name}={n}"
  "datetime.timedelta(" ++ (if parts.isEmpty then "0" else ", ".intercalate parts) ++ ")"

def displayOffset (offset : Int) : String :=
  if offset == 0 then "datetime.timezone.utc"
  else "datetime.timezone(" ++ displaySpan offset ++ ")"

/-- The form of an instant in messages; seconds and microseconds are left out where all that
follows them is zero. -/
def display (t : Instant) : String :=
  let fields := [t.date.year, t.date.month, t.date.day, t.hour, t.minute] ++
    (if t.second == 0 && t.microsecond == 0 then [] else [t.second]) ++
    (if t.microsecond == 0 then [] else [t.microsecond])
  let zone := match t.offset with
    | none => []
    | some offset => ["tzinfo=" ++ displayOffset offset]
  "datetime.datetime(" ++ ", ".intercalate (fields.map toString ++ zone) ++ ")"

end Instant

def CalendarError.message : CalendarError → String
  | .year n => s!"year {n} is out of range"
  | .month => "month must be in 1..12"
  | .day => "day is out of range for month"
  | .hour => "hour must be in 0..23"
  | .minute => "minute must be in 0..59"
  | .second => "second must be in 0..59"
  | .offset minutes =>
    "offset must be a timedelta strictly between -timedelta(hours=24) and timedelta(hours=24), " ++
      s!"not {Instant.displaySpan (minutes * 60000000)}."

end RpcBindings
