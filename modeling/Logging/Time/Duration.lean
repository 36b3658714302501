import Logging.Text.Padding

/-!
# Spans of time

* `Duration`: seconds and nanoseconds.
* `Duration.text`: the span in the largest unit that it fills, with as many decimals as it needs.
-/

namespace Logging.Time

open Text

/-- A span of time. -/
structure Duration where
  nanoseconds : Nat
  deriving DecidableEq, Repr, Inhabited

namespace Duration

def ofMillis (n : Nat) : Duration := ⟨n * 1000000⟩

/-- Digits without the zeros at their end. -/
def trimZeros (digits : String) : String :=
  String.ofList ((digits.toList.reverse.dropWhile (· = '0')).reverse)

/-- A number of units, given in the `places`-th decimal of the unit. -/
def inUnit (places : Nat) (n : Nat) (unit : String) : String :=
  let whole := toString (n / Nat.pow 10 places)
  let decimals := trimZeros (zeroPadded places (n % Nat.pow 10 places))
  if decimals.isEmpty then whole ++ unit else whole ++ "." ++ decimals ++ unit

/-- The span in the largest unit that it fills. -/
def text (d : Duration) : String :=
  if 1000000000 ≤ d.nanoseconds then inUnit 9 d.nanoseconds "s"
  else if 1000000 ≤ d.nanoseconds then inUnit 6 d.nanoseconds "ms"
  else if 1000 ≤ d.nanoseconds then inUnit 3 d.nanoseconds "µs"
  else inUnit 0 d.nanoseconds "ns"

end Duration

end Logging.Time
