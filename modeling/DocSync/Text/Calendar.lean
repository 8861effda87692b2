/-!
Dates of the Gregorian calendar, counted in days, and points in time, counted in microseconds, both from
the start of the year 2000; and how they are written.
-/

namespace DocSync.Calendar

/-- A day by year, month and day of the month. -/
structure Date where
  year : Int
  month : Nat
  day : Nat
deriving DecidableEq, Repr, Inhabited

def isLeap (year : Int) : Bool := year % 4 == 0 && (year % 100 != 0 || year % 400 == 0)

def daysOfMonth (year : Int) (month : Nat) : Nat :=
  match month with
  | 2 => if isLeap year then 29 else 28
  | 4 | 6 | 9 | 11 => 30
  | _ => 31

/-- The days of the 400 years after which the calendar repeats. -/
def daysOfCycle : Nat := 146097

/-- The days from the first of March of the year 0 to the first of January 2000. -/
def daysBeforeEpoch : Nat := 730425

/-- The year of a day of the cycle, where years begin in March: the leap days before it do not count. -/
def yearOfCycle (day : Nat) : Nat := (day - day / 1460 + day / 36524 - day / 146096) / 365

/-- The days of the cycle before a year of it. -/
def daysBeforeYear (year : Nat) : Nat := 365 * year + year / 4 - year / 100

/-- The date of a day. -/
def Date.ofDays (days : Int) : Date :=
  let shifted := days + daysBeforeEpoch
  let cycle := shifted.fdiv daysOfCycle
  let day := (shifted.fmod daysOfCycle).toNat
  let year := yearOfCycle day
  let dayOfYear := day - daysBeforeYear year
  -- months count from March; five of them have 153 days
  let month := (5 * dayOfYear + 2) / 153
  let dayOfMonth := dayOfYear - (153 * month + 2) / 5 + 1
  let early := month ≥ 10
  ⟨cycle * 400 + year + (if early then 1 else 0), if early then month - 9 else month + 3, dayOfMonth⟩

/-- A number with zeros in front up to a width. -/
def padded (width n : Nat) : String :=
  let digits := toString n
  "".pushn '0' (width - digits.length) ++ digits

/-- The least and the greatest year that dates may have. -/
def leastYear : Int := -262143
def greatestYear : Int := 262142

def Date.isInRange (d : Date) : Bool := leastYear ≤ d.year && d.year ≤ greatestYear

/-- A year has four digits, and a sign where it has more or is before the year 0. -/
def yearText (year : Int) : String :=
  let digits := padded 4 year.natAbs
  if year < 0 then "-" ++ digits else if year > 9999 then "+" ++ digits else digits

def Date.text (d : Date) : String :=
  yearText d.year ++ "-" ++ padded 2 d.month ++ "-" ++ padded 2 d.day

def microsecondsOfDay : Nat := 86400000000

/-- The fraction of a second in no, three or six digits, the fewest that are exact. -/
def fractionText (microseconds : Nat) : String :=
  if microseconds = 0 then ""
  else if microseconds % 1000 = 0 then "." ++ padded 3 (microseconds / 1000)
  else "." ++ padded 6 microseconds

def timeText (microseconds : Nat) : String :=
  let seconds := microseconds / 1000000
  padded 2 (seconds / 3600) ++ ":" ++ padded 2 (seconds / 60 % 60) ++ ":" ++ padded 2 (seconds % 60)
    ++ fractionText (microseconds % 1000000)

/-- The text of a day, nothing where it is out of range. -/
def dateText? (days : Int) : Option String :=
  let date := Date.ofDays days
  if date.isInRange then some date.text else none

/-- The text of a point in time: the date, a `T` and the time of day. -/
def momentText? (microseconds : Int) : Option String :=
  (dateText? (microseconds.fdiv microsecondsOfDay)).map fun date =>
    date ++ "T" ++ timeText (microseconds.fmod microsecondsOfDay).toNat

end DocSync.Calendar
