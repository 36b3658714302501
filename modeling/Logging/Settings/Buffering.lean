import Logging.Fault
import Logging.Settings.Members
import Logging.Time.Duration

/-!
# Settings of buffers

* `Buffering`: how much is gathered, and for how long.
* `Buffering.fault?`: what is wrong with the settings.
* `Buffering.ofTree?`, `Buffering.toJson`: the form in configurations.
-/

namespace Logging.Settings

/-- When a buffer passes on what it gathered. -/
structure Buffering where
  /-- At this many bytes. -/
  threshold : Nat := 65536
  /-- This many milliseconds after the first of them. -/
  intervalMillis : Nat := 1000
  deriving DecidableEq, Repr, Inhabited

namespace Buffering

/-- The settings of a buffer that sets none. -/
def default : Buffering := {}

/-- The longest time that bytes wait. -/
def interval (b : Buffering) : Time.Duration := .ofMillis b.intervalMillis

/-- What is wrong with the settings, if anything is. -/
def fault? (b : Buffering) : Option Fault :=
  if b.threshold = 0 then
    some (.configuration "BufferedSink" "threshold_bytes must be greater than zero")
  else if b.intervalMillis = 0 then
    some (.configuration "BufferedSink" "flush_interval_ms must be greater than zero")
  else none

def names : List String := ["threshold_bytes", "flush_interval_ms"]

/-- The settings that a tree holds. -/
def ofTree? (t : Json.Tree) : Option Buffering := do
  match ← parts? names t with
  | [threshold, interval] =>
    some ⟨← partOr natural? default.threshold threshold,
      ← partOr natural? default.intervalMillis interval⟩
  | _ => none

def toJson (b : Buffering) : Json :=
  .object [("threshold_bytes", .int b.threshold), ("flush_interval_ms", .int b.intervalMillis)]

end Buffering

end Logging.Settings
