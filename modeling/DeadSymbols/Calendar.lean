import DeadSymbols.Text.Digit

/-!
# Dates and times

Calendar dates, times of day and moments, checked when they are built, with their two written
forms: the plain one (`2001-12-14 21:59:43-05:00`) and the constructor form used inside a quoted
collection.
-/

namespace DeadSymbols

/-- Why numbers are not a date or a time. -/
inductive CalendarFault
  | year (n : Nat)
  | month
  | day
  | hour
  | minute
  | second
  /-- An offset of a whole day or more, in minutes. -/
  | offset (minutes : Int)
  deriving DecidableEq, Repr

/-- A day of the calendar. -/
structure Date where
  year : Nat
  month : Nat
  day : Nat
  deriving DecidableEq, Repr

/-- A time of day. -/
structure Clock where
  hour : Nat
  minute : Nat
  second : Nat
  micro : Nat
  deriving DecidableEq, Repr

/-- A date with a time, and the minutes that its place is ahead of universal time, if known. -/
structure Moment where
  date : Date
  clock : Clock
  offset : Option Int
  deriving DecidableEq, Repr

namespace Calendar

/-- Whether the year has a leap day. -/
def isLeap (year : Nat) : Bool :=
  year % 4 == 0 && (year % 100 != 0 || year % 400 == 0)

/-- The number of days of a month. -/
def monthLength (year month : Nat) : Nat :=
  if month = 2 then (if isLeap year then 29 else 28)
  else if month = 4 ∨ month = 6 ∨ month = 9 ∨ month = 11 then 30
  else 31

/-- The date with these numbers, the year being checked first. -/
def date (year month day : Nat) : Except CalendarFault Date :=
  if year < 1 ∨ 9999 < year then .error (.year year)
  else if month < 1 ∨ 12 < month then .error .month
  else if day < 1 ∨ monthLength year month < day then .error .day
  else .ok ⟨year, month, day⟩

/-- The time of day with these numbers. -/
def clock (hour minute second micro : Nat) : Except CalendarFault Clock :=
  if 23 < hour then .error .hour
  else if 59 < minute then .error .minute
  else if 59 < second then .error .second
  else .ok ⟨hour, minute, second, micro⟩

/-- An offset of less than a day. -/
def offset (minutes : Int) : Except CalendarFault Int :=
  if minutes.natAbs < 1440 then .ok minutes else .error (.offset minutes)

/-- A span of minutes in constructor form: whole days and the seconds left over. -/
def minutesLiteral (minutes : Int) : String :=
  let days := minutes.fdiv 1440
  let seconds := (minutes.fmod 1440) * 60
  let parts := (if days = 0 then [] else ["days=" ++ toString days]) ++
    (if seconds = 0 then [] else ["seconds=" ++ toString seconds])
  "datetime.timedelta(" ++ (if parts.isEmpty then "0" else String.intercalate ", " parts) ++ ")"

end Calendar

/-- The wording of a fault. -/
def CalendarFault.message : CalendarFault → String
  | .year n => "year " ++ toString n ++ " is out of range"
  | .month => "month must be in 1..12"
  | .day => "day is out of range for month"
  | .hour => "hour must be in 0..23"
  | .minute => "minute must be in 0..59"
  | .second => "second must be in 0..59"
  | .offset minutes =>
    "offset must be a timedelta strictly between -timedelta(hours=24) and timedelta(hours=24), not "
      ++ Calendar.minutesLiteral minutes ++ "."

/-- The plain form of a date. -/
def Date.display (d : Date) : String :=
  Text.decimalPadded 4 d.year ++ "-" ++ Text.decimalPadded 2 d.month ++ "-" ++
    Text.decimalPadded 2 d.day

/-- The constructor form of a date. -/
def Date.literal (d : Date) : String :=
  "datetime.date(" ++ toString d.year ++ ", " ++ toString d.month ++ ", " ++ toString d.day ++ ")"

/-- The plain form of a time of day; millionths are written only if there are any. -/
def Clock.display (t : Clock) : String :=
  Text.decimalPadded 2 t.hour ++ ":" ++ Text.decimalPadded 2 t.minute ++ ":" ++
    Text.decimalPadded 2 t.second ++
    (if t.micro = 0 then "" else "." ++ Text.decimalPadded 6 t.micro)

/-- Hour and minute, then the smaller units down to the last one that is not zero. -/
def Clock.fields (t : Clock) : List Nat :=
  if t.micro ≠ 0 then [t.hour, t.minute, t.second, t.micro]
  else if t.second ≠ 0 then [t.hour, t.minute, t.second]
  else [t.hour, t.minute]

/-- The constructor form of a time of day. -/
def Clock.literal (t : Clock) : String :=
  "datetime.time(" ++ String.intercalate ", " (t.fields.map toString) ++ ")"

/-- The plain form of an offset. -/
def Calendar.offsetDisplay (minutes : Int) : String :=
  (if minutes < 0 then "-" else "+") ++ Text.decimalPadded 2 (minutes.natAbs / 60) ++ ":" ++
    Text.decimalPadded 2 (minutes.natAbs % 60)

/-- The constructor form of an offset. -/
def Calendar.offsetLiteral (minutes : Int) : String :=
  if minutes = 0 then "datetime.timezone.utc"
  else "datetime.timezone(" ++ minutesLiteral minutes ++ ")"

/-- The plain form of a moment. -/
def Moment.display (m : Moment) : String :=
  m.date.display ++ " " ++ m.clock.display ++ (m.offset.map Calendar.offsetDisplay).getD ""

/-- The constructor form of a moment. -/
def Moment.literal (m : Moment) : String :=
  let fields := [m.date.year, m.date.month, m.date.day] ++ m.clock.fields
  "datetime.datetime(" ++ String.intercalate ", " (fields.map toString) ++
    (match m.offset with
    | none => ""
    | some minutes => ", tzinfo=" ++ Calendar.offsetLiteral minutes) ++ ")"

end DeadSymbols
