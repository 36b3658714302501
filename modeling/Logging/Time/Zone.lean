import Logging.Time.Instant

/-!
# Zones

* `Zone`: universal time, or a local time that is so many seconds ahead of it.
* `Zone.shown`: an instant as the clocks of a zone show it.
* `Zone.name`, `Zone.offset`, `Zone.exactOffset`, `Zone.hours`: how a zone is written.
* `Reading`: what a clock is read at: an instant, and how far local time is ahead then.
-/

namespace Logging.Time

open Text

/-- Universal time, or a local time that is so many seconds ahead of it. -/
inductive Zone where
  | utc
  | ahead (seconds : Int)
  deriving DecidableEq, Repr, Inhabited

namespace Zone

/-- How many seconds the clocks of the zone are ahead of universal time. -/
def seconds : Zone → Int
  | utc => 0
  | ahead s => s

/-- An instant as the clocks of the zone show it. -/
def shown (z : Zone) (t : Instant) : Instant :=
  match z with
  | utc => t
  | ahead s => { t with seconds := t.seconds + s }

def sign (z : Zone) : String := if z.seconds < 0 then "-" else "+"

/-- Hours and minutes with their sign. Seconds are rounded to the nearest minute. -/
def offset (z : Zone) (between : String) : String :=
  let minutes := (z.seconds.natAbs + 30) / 60
  z.sign ++ zeroPadded 2 (minutes / 60) ++ between ++ zeroPadded 2 (minutes % 60)

/-- Hours, minutes and seconds with their sign. -/
def exactOffset (z : Zone) : String :=
  let n := z.seconds.natAbs
  z.sign ++ zeroPadded 2 (n / 3600) ++ ":" ++ zeroPadded 2 (n / 60 % 60) ++ ":" ++
    zeroPadded 2 (n % 60)

/-- Whole hours with their sign. -/
def hours (z : Zone) : String := z.sign ++ zeroPadded 2 (z.seconds.natAbs / 3600)

/-- The name of the zone. A local time is named by how far it is ahead. -/
def name : Zone → String
  | utc => "UTC"
  | ahead s => if s.natAbs % 60 = 0 then (ahead s).offset ":" else (ahead s).exactOffset

end Zone

/-- What a clock is read at. It shows no leap seconds. -/
structure Reading where
  instant : Instant
  /-- How many seconds local time is ahead of universal time then. -/
  ahead : Int := 0
  whole : instant.nanos < 1000000000 := by decide

instance : Inhabited Reading := ⟨{ instant := ⟨0, 0⟩ }⟩

/-- The local zone. -/
def Reading.zone (r : Reading) : Zone := .ahead r.ahead

end Logging.Time
