import Replay.Text

namespace Replay

/-- A date of the Gregorian calendar and a time of day in universal time. -/
structure Moment where
  year : Nat
  month : Nat
  day : Nat
  hour : Nat
  minute : Nat
  second : Nat
  microsecond : Nat
deriving DecidableEq

instance : Inhabited Moment := ⟨⟨1970, 1, 1, 0, 0, 0, 0⟩⟩

namespace Calendar

def firstYear : Nat := 1

def lastYear : Nat := 9999

def isLeap (year : Nat) : Bool := year % 4 = 0 && (year % 100 != 0 || year % 400 = 0)

def daysInMonth (year month : Nat) : Nat :=
  if month = 2 then (if isLeap year then 29 else 28)
  else if month = 4 || month = 6 || month = 9 || month = 11 then 30
  else 31

def daysInYear (year : Nat) : Nat := if isLeap year then 366 else 365

/-- The days of all years before this one, counted from year one. -/
def daysBeforeYear (year : Nat) : Nat :=
  let past := year - 1
  past * 365 + past / 4 - past / 100 + past / 400

/-- The days of the months before this one. -/
def daysBeforeMonth (year month : Nat) : Nat :=
  (List.range' 1 (month - 1)).foldr (fun month days => daysInMonth year month + days) 0

/-- The number of a day, counted from the first day of year one, which is zero. -/
def dayNumber (year month day : Nat) : Nat :=
  daysBeforeYear year + daysBeforeMonth year month + (day - 1)

/-- The days after the last day of the calendar. -/
def endNumber : Nat := dayNumber (lastYear + 1) 1 1

/-- The month and the day of a day of the year, which is counted from zero. -/
def monthAndDay (year : Nat) : (months first rest : Nat) → Nat × Nat
  | 0, month, rest => (month, rest + 1)
  | months + 1, month, rest =>
    if rest < daysInMonth year month then (month, rest + 1)
    else monthAndDay year months (month + 1) (rest - daysInMonth year month)

/-- The year of a day number: of two neighbouring guesses, the one that has begun. -/
def yearOf (number : Nat) : Nat :=
  let guess := number * 400 / 146097 + 1
  if daysBeforeYear (guess + 1) ≤ number then guess + 1
  else if daysBeforeYear guess ≤ number then guess
  else guess - 1

def dateOf (number : Nat) : Nat × Nat × Nat :=
  let year := yearOf number
  let (month, day) := monthAndDay year 11 1 (number - daysBeforeYear year)
  (year, month, day)

def isDate (year month day : Nat) : Bool :=
  firstYear ≤ year && year ≤ lastYear && 1 ≤ month && month ≤ 12 && 1 ≤ day
    && day ≤ daysInMonth year month

end Calendar

namespace Moment

def secondsOfDay (m : Moment) : Nat := (m.hour * 60 + m.minute) * 60 + m.second

/-- The microseconds since the start of year one. -/
def toMicroseconds (m : Moment) : Nat :=
  (Calendar.dayNumber m.year m.month m.day * 86400 + m.secondsOfDay) * 1000000 + m.microsecond

/-- The moment so many microseconds after the start of year one, within the calendar. -/
def ofMicroseconds? (n : Int) : Option Moment :=
  match n with
  | .negSucc _ => none
  | .ofNat n =>
    let seconds := n / 1000000
    let number := seconds / 86400
    if number < Calendar.endNumber then
      let (year, month, day) := Calendar.dateOf number
      let rest := seconds % 86400
      some ⟨year, month, day, rest / 3600, rest / 60 % 60, rest % 60, n % 1000000⟩
    else none

def dateText (m : Moment) : Text :=
  Text.padded 4 m.year ++ "-" ++ Text.padded 2 m.month ++ "-" ++ Text.padded 2 m.day

/-- The time of day with the given separator. -/
def timeText (separator : Text) (m : Moment) : Text :=
  Text.padded 2 m.hour ++ separator ++ Text.padded 2 m.minute ++ separator
    ++ Text.padded 2 m.second

/-- The standard text; a whole second has no fraction. -/
def text (m : Moment) : Text :=
  m.dateText ++ "T" ++ m.timeText ":"
    ++ (if m.microsecond = 0 then ([] : Text) else "." ++ Text.padded 6 m.microsecond) ++ "+00:00"

/-- The text that titles show; the year is not filled up. -/
def title (m : Moment) : Text :=
  Text.ofNat m.year ++ "-" ++ Text.padded 2 m.month ++ "-" ++ Text.padded 2 m.day ++ " "
    ++ m.timeText ":" ++ " UTC"

/-- A name for a directory, exact to the millisecond. -/
def directoryName (m : Moment) : Text :=
  m.dateText ++ "T" ++ m.timeText "-" ++ "-" ++ Text.padded 3 (m.microsecond / 1000) ++ "Z"

end Moment

end Replay
