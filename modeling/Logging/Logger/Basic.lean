import Logging.Logger.Plan

/-!
# Loggers

Loggers that are derived from one another are a family: they write to the same sink, and who closes
it closes it for all of them.

* `Logger.log`, `Logger.logWith`: a log call. What is below the level of the logger is dropped up
  front.
* `Logger.withFields`, `Logger.withGroup`: deriving.
* `Family`: the sink of a family.
-/

namespace Logging

/-- The sink that a family of loggers writes to. -/
structure Family where
  root : SinkId
  /-- Whether records are delivered in the background. -/
  asynchronous : Bool
  closed : Bool := false
  deriving Repr, Inhabited

/-- A logger. -/
structure Logger where
  chain : Chain
  /-- The number of its family. -/
  family : Nat
  lowest : Level
  deriving Repr

namespace Logger

/-- Whether records of that level are not dropped up front. -/
def isEnabled (l : Logger) (level : Level) : Bool := l.lowest ≤ level

/-- Logs a record. -/
def logWith (draws : Draws) (l : Logger) : Way Network := fun c r st w =>
  if l.isEnabled r.level then l.chain.handle draws c r st w else (.ok (), st, w)

/-- Logs a message without a context. -/
def log (draws : Draws) (l : Logger) (level : Level) (message : String) (st : Stages)
    (w : Network) : Outcome × Stages × Network :=
  if l.isEnabled level then l.chain.handle draws .empty (.new level message) st w
  else (.ok (), st, w)

/-- The logger that gives these fields to every record. -/
def withFields (l : Logger) (f : Fields) : Logger := { l with chain := l.chain.withAttributes f }

/-- The logger whose records' fields are in one more group. -/
def withGroup (l : Logger) (name : String) : Logger := { l with chain := l.chain.withGroup name }

/-- The logger with its level, the name of its sink and its chain. -/
def shown (l : Logger) (sink : String) : String :=
  "Logger \x7b min_level: " ++ l.lowest.title ++ ", sink: " ++ Text.quoted sink ++ ", chain: " ++
    l.chain.shown ++ " \x7d"

/-- Closes the sink of a family whose last logger is gone. -/
def abandonRoot (root : SinkId) (w : Network) : Outcome × Network :=
  let (o, w) := w.close root
  w.reportFault (fun f => "[LOGGER ERROR] Failed to close sinks on drop: " ++ f.message) o

end Logger

end Logging
