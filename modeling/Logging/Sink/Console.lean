import Logging.Sink.Destination

/-!
# Console sinks

* `Console`: a sink that prints to one of the program's output streams.
-/

namespace Logging.Sink

/-- A stream, and whether the sink was closed. -/
structure Console where
  stream : Stream := .stdout
  closed : Bool := false
  deriving DecidableEq, Repr, Inhabited

namespace Console

def name (c : Console) : String := c.stream.name

/-- Prints a payload, unless the sink was closed. -/
def write {σ : Type} [Terminal σ] (p : ByteArray) (c : Console) (s : σ) : Outcome × σ :=
  if c.closed then (closedOutcome c.name, s) else (.ok (), Terminal.print c.stream p s)

def close (c : Console) : Console := { c with closed := true }

end Console

end Logging.Sink
