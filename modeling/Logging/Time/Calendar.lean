/-!
# The civil calendar

Dates of the proleptic Gregorian calendar, counted in days from 1970-01-01. Years are grouped into
eras of 400, and within an era years are taken to begin in March, so that the leap day comes last.

* `Date.ofDays`, `Date.toDays`: a date and its day number.
* `Date.weekday`, `Date.ordinal`, `Date.weekFrom`, `Date.isoWeek`: a date's place in its week and
  its year.
-/

namespace Logging.Time

/-- A date: month and day count from one. -/
structure Date where
  year : Int
  month : Nat
  day : Nat
  deriving DecidableEq, Repr, Inhabited

/-- How many days an era of 400 years has. -/
def daysPerEra : Int := 146097

namespace Date

/-- The date of a day number. -/
def ofDays (n : Int) : Date :=
  let z := n + 719468
  let era := z.fdiv daysPerEra
  let dayOfEra := (z.fmod daysPerEra).toNat
  let yearOfEra := (dayOfEra - dayOfEra / 1460 + dayOfEra / 36524 - dayOfEra / 146096) / 365
  let dayOfYear := dayOfEra - (365 * yearOfEra + yearOfEra / 4 - yearOfEra / 100)
  let shifted := (5 * dayOfYear + 2) / 153
  let day := dayOfYear - (153 * shifted + 2) / 5 + 1
  let month := if shifted < 10 then shifted + 3 else shifted - 9
  let year := era * 400 + yearOfEra + if month ≤ 2 then 1 else 0
  ⟨year, month, day⟩

/-- The day number of a date. -/
def toDays (d : Date) : Int :=
  let y := if d.month ≤ 2 then d.year - 1 else d.year
  let era := y.fdiv 400
  let yearOfEra := (y.fmod 400).toNat
  let shifted := if d.month ≤ 2 then d.month + 9 else d.month - 3
  let dayOfYear := (153 * shifted + 2) / 5 + d.day - 1
  let dayOfEra := 365 * yearOfEra + yearOfEra / 4 - yearOfEra / 100 + dayOfYear
  era * daysPerEra + dayOfEra - 719468

/-- Days since the last Sunday. -/
def weekday (d : Date) : Nat := ((d.toDays + 4).fmod 7).toNat

/-- Days since the last Monday. -/
def weekdayFromMonday (d : Date) : Nat := (d.weekday + 6) % 7

/-- The place of the day in its year, from one. -/
def ordinal (d : Date) : Nat := (d.toDays - (⟨d.year, 1, 1⟩ : Date).toDays).toNat + 1

/-- Full weeks since the first day of the year that begins one, with days counted from the week's
first day. -/
def weekFrom (daysSinceStart : Nat) (d : Date) : Nat := (d.ordinal + 6 - daysSinceStart) / 7

/-- The ISO year and week: the year that the Thursday of the week lies in, and which of its weeks it
is. -/
def isoWeek (d : Date) : Int × Nat :=
  let thursday := ofDays (d.toDays - d.weekdayFromMonday + 3)
  (thursday.year, (thursday.ordinal - 1) / 7 + 1)

/-- The quarter of the year, from one. -/
def quarter (d : Date) : Nat := (d.month + 2) / 3

end Date

/-- The names of the months. -/
def monthNames : List String :=
  ["January", "February", "March", "April", "May", "June", "July", "August", "September",
   "October", "November", "December"]

/-- The names of the days of the week, Sunday first. -/
def weekdayNames : List String :=
  ["Sunday", "Monday", "Tuesday", "Wednesday", "Thursday", "Friday", "Saturday"]

/-- The first three letters of a name. -/
def shortName (s : String) : String := String.ofList (s.toList.take 3)

end Logging.Time
