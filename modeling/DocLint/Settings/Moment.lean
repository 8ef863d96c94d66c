import DocLint.Text.Basic

/-!
# Dates and times

A moment is a day of the calendar, a time of the day, or both, and then perhaps with the distance of the
time from the universal one. As a text of its own it is written with hyphens and colons. Within a list it is
written as a call that makes it, without seconds and their fractions if they are zero.
-/

namespace DocLint

/-- Has the year a day more? -/
def isLeapYear (year : Nat) : Bool := year % 4 == 0 && (year % 100 != 0 || year % 400 == 0)

/-- The number of days of a month. -/
def daysIn (year month : Nat) : Nat :=
  if month == 2 then if isLeapYear year then 29 else 28
  else if [4, 6, 9, 11].contains month then 30
  else 31

/-- Is there such a day? Years count from one. -/
def isDay (year month day : Nat) : Bool :=
  decide (1 ≤ year ∧ 1 ≤ month ∧ month ≤ 12 ∧ 1 ≤ day ∧ day ≤ daysIn year month)

/-- A day of the calendar. -/
structure Day where
  /-- The year. -/
  year : Nat
  /-- The month, from one on. -/
  month : Nat
  /-- The day in the month, from one on. -/
  day : Nat
  /-- There is such a day. -/
  isDay : isDay year month day = true

/-- A time of the day. -/
structure Clock where
  /-- The hour. -/
  hour : Fin 24
  /-- The minute. -/
  minute : Fin 60
  /-- The second. -/
  second : Fin 60
  /-- Millionths of a second. -/
  micros : Fin 1000000

/-- A date, a time, or both. -/
inductive Moment where
  /-- A day. -/
  | day (date : Day)
  /-- A time of some day. -/
  | clock (time : Clock)
  /-- A time of a day, with the minutes that it is ahead of the universal time if that is known. -/
  | both (date : Day) (time : Clock) (offset : Option Int)

/-- The digits of a number, with zeros in front up to a width. -/
def Text.padded (width number : Nat) : Text :=
  let digits := Nat.toDigits 10 number
  List.replicate (width - digits.length) '0' ++ digits

namespace Moment

/-! ## Texts -/

/-- A day as a text. -/
def dayText (day : Day) : Text :=
  Text.join "-".toList [Text.padded 4 day.year, Text.padded 2 day.month, Text.padded 2 day.day]

/-- A time as a text. -/
def clockText (clock : Clock) : Text :=
  let whole := Text.join ":".toList
    [Text.padded 2 clock.hour, Text.padded 2 clock.minute, Text.padded 2 clock.second]
  if clock.micros.val = 0 then whole else whole ++ ".".toList ++ Text.padded 6 clock.micros

/-- The distance from the universal time as a text. -/
def offsetText (minutes : Int) : Text :=
  (if minutes < 0 then "-" else "+").toList ++ Text.padded 2 (minutes.natAbs / 60) ++ ":".toList ++
    Text.padded 2 (minutes.natAbs % 60)

/-- A moment as a text. -/
def toText : Moment → Text
  | day date => dayText date
  | clock time => clockText time
  | both date time offset =>
    dayText date ++ " ".toList ++ clockText time ++ (offset.map offsetText).getD []

/-! ## Calls -/

/-- A call that makes something. -/
def callText (name : String) (arguments : List Text) : Text :=
  "datetime.".toList ++ name.toList ++ "(".toList ++ Text.join ", ".toList arguments ++ ")".toList

/-- The numbers that a day is made of. -/
def dayArguments (day : Day) : List Text := [day.year, day.month, day.day].map (Nat.toDigits 10)

/-- The numbers that a time is made of. -/
def clockArguments (clock : Clock) : List Text :=
  let finer : List Nat :=
    if clock.micros.val ≠ 0 then [clock.second, clock.micros]
    else if clock.second.val ≠ 0 then [clock.second]
    else []
  ([clock.hour.val, clock.minute.val] ++ finer).map (Nat.toDigits 10)

/-- The distance from the universal time as a call. -/
def zoneText (minutes : Int) : Text :=
  if minutes = 0 then "datetime.timezone.utc".toList
  else
    let seconds := 60 * minutes
    let parts :=
      if seconds < 0 then ["days=-1".toList, "seconds=".toList ++ Text.ofInt (86400 + seconds)]
      else ["seconds=".toList ++ Text.ofInt seconds]
    callText "timezone" [callText "timedelta" parts]

/-- A moment as it is written within a list. -/
def shown : Moment → Text
  | day date => callText "date" (dayArguments date)
  | clock time => callText "time" (clockArguments time)
  | both date time offset =>
    callText "datetime" (dayArguments date ++ clockArguments time ++
      (offset.map fun minutes => "tzinfo=".toList ++ zoneText minutes).toList)

end Moment

end DocLint
