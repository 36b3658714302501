import Logging.Sink.Destination
import Logging.Text.Lossy

/-!
# Memory sinks

A memory sink keeps every payload that is written to it.

* `Memory.write`, `Memory.close`: the operations.
* `Memory.contents`: the payloads joined.
-/

namespace Logging.Sink

/-- What was written, and whether and how often the sink was closed. -/
structure Memory where
  writes : Array ByteArray := #[]
  closed : Bool := false
  closeCalls : Nat := 0
  deriving Inhabited

namespace Memory

def name : String := "memory"

/-- Keeps a payload, unless the sink was closed. -/
def write (p : ByteArray) (m : Memory) : Outcome × Memory :=
  if m.closed then (closedOutcome name, m)
  else (.ok (), { m with writes := m.writes.push p })

/-- Closes the sink and counts the call. -/
def close (m : Memory) : Memory :=
  { m with closed := true, closeCalls := m.closeCalls + 1 }

/-- Everything written, joined. -/
def contents (m : Memory) : ByteArray :=
  m.writes.foldl (· ++ ·) .empty

/-- Everything written as text; what is not UTF-8 is replaced. -/
def text (m : Memory) : String := Text.lossy m.contents

end Memory

end Logging.Sink
