/-!
# Dates and times

Calendar dates and date-times as metadata holds them. A date-time may carry its distance from universal
time in seconds; two that do are the same key when they name the same instant. Which component is out
of range is decided in a fixed order, the greatest unit first, and is the cause that a reader reports.
-/

namespace NoteQuery

/-- A calendar date. -/
structure Date where
  /-- The year, from 1 to 9999. -/
  year : Nat
  /-- The month, from 1 to 12. -/
  month : Nat
  /-- The day of the month. -/
  day : Nat
deriving Repr, DecidableEq, Inhabited

/-- A date with a time of day. -/
structure DateTime where
  /-- The date. -/
  date : Date
  /-- The hour, from 0 to 23. -/
  hour : Nat
  /-- The minute. -/
  minute : Nat
  /-- The second. -/
  second : Nat
  /-- The microsecond. -/
  micro : Nat
  /-- The distance from universal time in seconds, if it is known. -/
  offset : Option Int
deriving Repr, DecidableEq, Inhabited

/-- Why a date or a date-time does not exist. -/
inductive CalendarFault
  /-- The year is not from 1 to 9999. -/
  | year (year : Nat)
  /-- The month is not from 1 to 12. -/
  | month
  /-- The month has no such day. -/
  | day
  /-- The hour is not from 0 to 23. -/
  | hour
  /-- The minute is not from 0 to 59. -/
  | minute
  /-- The second is not from 0 to 59. -/
  | second
  /-- The distance from universal time is a day or more. -/
  | offset (seconds : Int)
deriving Repr, DecidableEq

namespace Calendar

/-! ## Existence -/

/-- Whether a year has a leap day. -/
def isLeap (year : Nat) : Bool := year % 4 == 0 && (year % 100 != 0 || year % 400 == 0)

/-- The number of days of a month. -/
def daysInMonth (year month : Nat) : Nat :=
  if month = 2 then (if isLeap year then 29 else 28)
  else if month = 4 || month = 6 || month = 9 || month = 11 then 30 else 31

/-- The date with these components, or the first that is out of range. -/
def date (year month day : Nat) : Except CalendarFault Date :=
  if year = 0 || 9999 < year then .error (.year year)
  else if month = 0 || 12 < month then .error .month
  else if day = 0 || daysInMonth year month < day then .error .day
  else .ok ⟨year, month, day⟩

/-- The date-time with these components, or the first that is out of range. The distance from universal
time is looked at first. -/
def dateTime (year month day hour minute second micro : Nat) (offset : Option Int) :
    Except CalendarFault DateTime :=
  match offset.filter fun s ↦ 86400 ≤ s.natAbs with
  | some seconds => .error (.offset seconds)
  | none =>
    (date year month day).bind fun d ↦
      if 23 < hour then .error .hour
      else if 59 < minute then .error .minute
      else if 59 < second then .error .second
      else .ok ⟨d, hour, minute, second, micro, offset⟩

/-! ## Instants -/

/-- The days before the first of a year, counted from the first of year 1. -/
def daysBeforeYear (year : Nat) : Nat :=
  let past := year - 1
  past * 365 + past / 4 - past / 100 + past / 400

/-- The days of the first months of a year. -/
def daysOfMonths (year : Nat) : (months : Nat) → Nat
  | 0 => 0
  | months + 1 => daysOfMonths year months + daysInMonth year (months + 1)

/-- The day number of a date. -/
def dayNumber (d : Date) : Nat := daysBeforeYear d.year + daysOfMonths d.year (d.month - 1) + d.day

/-- The microseconds of universal time at an instant, given its distance from universal time. -/
def instant (t : DateTime) (offset : Int) : Int :=
  let seconds : Int := (((dayNumber t.date * 24 + t.hour) * 60 + t.minute) * 60 + t.second : Nat)
  (seconds - offset) * 1000000 + t.micro

/-- Whether two date-times are one key: the same instant where both know their distance from universal
time, the same reading where neither does. -/
def sameMoment (s t : DateTime) : Bool :=
  match s.offset, t.offset with
  | none, none => s == t
  | some a, some b => instant s a == instant t b
  | _, _ => false

/-! ## Text -/

/-- A number in at least `width` decimal digits. -/
def padded (width n : Nat) : String :=
  let digits := Nat.toDigits 10 n
  String.ofList (List.replicate (width - digits.length) '0' ++ digits)

/-- The text of a date. -/
def dateText (d : Date) : String := s!"{padded 4 d.year}-{padded 2 d.month}-{padded 2 d.day}"

/-- The text of a distance from universal time: hours and minutes, and seconds if there are any. -/
def offsetText (seconds : Int) : String :=
  let n := seconds.natAbs
  let sign := if seconds < 0 then "-" else "+"
  let rest := if n % 60 = 0 then "" else ":" ++ padded 2 (n % 60)
  sign ++ padded 2 (n / 3600) ++ ":" ++ padded 2 (n / 60 % 60) ++ rest

/-- The text of a date-time: a space between date and time, microseconds only if there are any. -/
def dateTimeText (t : DateTime) : String :=
  let micro := if t.micro = 0 then "" else "." ++ padded 6 t.micro
  let offset := match t.offset with
    | none => ""
    | some seconds => offsetText seconds
  dateText t.date ++ " " ++ padded 2 t.hour ++ ":" ++ padded 2 t.minute ++ ":" ++ padded 2 t.second ++
    micro ++ offset

/-! ## Text inside containers -/

/-- A span of time as days and seconds, the seconds never negative. -/
def spanText (seconds : Int) : String :=
  let days := seconds / 86400
  let rest := seconds % 86400
  let parts := (if days = 0 then [] else [s!"days={days}"]) ++ (if rest = 0 then [] else [s!"seconds={rest}"])
  "datetime.timedelta(" ++ (if parts.isEmpty then "0" else ", ".intercalate parts) ++ ")"

/-- A date as it is shown inside a container. -/
def dateShown (d : Date) : String := s!"datetime.date({d.year}, {d.month}, {d.day})"

/-- A date-time as it is shown inside a container. -/
def dateTimeShown (t : DateTime) : String :=
  let seconds := if t.second = 0 && t.micro = 0 then "" else s!", {t.second}"
  let micro := if t.micro = 0 then "" else s!", {t.micro}"
  let zone := match t.offset with
    | none => ""
    | some 0 => ", tzinfo=datetime.timezone.utc"
    | some s => ", tzinfo=datetime.timezone(" ++ spanText s ++ ")"
  s!"datetime.datetime({t.date.year}, {t.date.month}, {t.date.day}, {t.hour}, {t.minute}" ++ seconds ++
    micro ++ zone ++ ")"

end Calendar

/-- What a fault says. -/
def CalendarFault.message : CalendarFault → String
  | .year n => s!"year {n} is out of range"
  | .month => "month must be in 1..12"
  | .day => "day is out of range for month"
  | .hour => "hour must be in 0..23"
  | .minute => "minute must be in 0..59"
  | .second => "second must be in 0..59"
  | .offset seconds =>
    "offset must be a timedelta strictly between -timedelta(hours=24) and timedelta(hours=24), not " ++
      Calendar.spanText seconds ++ "."

end NoteQuery
