import Logging.Time.Calendar
import Logging.Text.Padding

/-!
# Instants

A moment in universal time: whole seconds since 1970 and nanoseconds within the second. A leap
second is the second before it with a billion more nanoseconds.

* `Instant.date`, `Instant.hour`, …: the parts of an instant.
* `Instant.rfc3339`: the text with as many groups of three decimals as are needed.
-/

namespace Logging.Time

open Text

/-- A moment in universal time. -/
structure Instant where
  seconds : Int
  nanos : Nat
  deriving DecidableEq, Repr, Inhabited

namespace Instant

/-- The calendar date. -/
def date (t : Instant) : Date := .ofDays (t.seconds.fdiv 86400)

/-- Seconds since midnight. -/
def secondOfDay (t : Instant) : Nat := (t.seconds.fmod 86400).toNat

def hour (t : Instant) : Nat := t.secondOfDay / 3600

def minute (t : Instant) : Nat := t.secondOfDay / 60 % 60

/-- The second of the minute; a leap second is the sixtieth. -/
def second (t : Instant) : Nat := t.secondOfDay % 60 + t.nanos / 1000000000

/-- Nanoseconds within the second. -/
def nanosecond (t : Instant) : Nat := t.nanos % 1000000000

/-- Milliseconds since 1970. -/
def unixMillis (t : Instant) : Int := t.seconds * 1000 + (t.nanos / 1000000 : Nat)

/-- A year as it stands in dates: four digits, and outside the years 0 to 9999 a sign. -/
def yearText (y : Int) : String :=
  if 0 ≤ y ∧ y ≤ 9999 then zeroPadded 4 y.toNat
  else (if y < 0 then "-" else "+") ++ zeroPadded 4 y.natAbs

/-- The decimals of the second with their point: none, three, six or nine. -/
def decimals (nanos : Nat) : String :=
  if nanos = 0 then ""
  else if nanos % 1000000 = 0 then "." ++ zeroPadded 3 (nanos / 1000000)
  else if nanos % 1000 = 0 then "." ++ zeroPadded 6 (nanos / 1000)
  else "." ++ zeroPadded 9 nanos

/-- Date and time joined by a `T`, with the needed decimals and the given name of the zone. -/
def rfc3339 (t : Instant) (zone : String) : String :=
  let d := t.date
  yearText d.year ++ "-" ++ zeroPadded 2 d.month ++ "-" ++ zeroPadded 2 d.day ++ "T" ++
    zeroPadded 2 t.hour ++ ":" ++ zeroPadded 2 t.minute ++ ":" ++ zeroPadded 2 t.second ++
    decimals t.nanosecond ++ zone

end Instant

end Logging.Time
