import Logging.Sink.Destination

/-!
# Sinks for trying out others

* `Failing`: a sink whose operations fail as they are told to.
* `Breaking`: a sink whose operations break off.
* `Scripted`: a sink each of whose calls ends as it is told to, and which keeps the calls.
* `Gate`: a sink that lets writes of the background wait.
-/

namespace Logging.Sink

/-- A sink that fails. What does not fail goes to the sink behind, if there is one. -/
structure Failing where
  name : String
  message : String
  /-- How many of the next writes fail; all of them, if there is no number. -/
  failingWrites : Option Nat
  flushFails : Bool
  closeFails : Bool
  deriving DecidableEq, Repr, Inhabited

namespace Failing

def fault (f : Failing) : Outcome := Outcome.fault (.other f.message)

/-- Whether the next write fails, and the sink after it. -/
def nextWrite (f : Failing) : Bool × Failing :=
  match f.failingWrites with
  | none => (true, f)
  | some 0 => (false, f)
  | some (n + 1) => (true, { f with failingWrites := some n })

end Failing

/-- The operations of a sink. -/
inductive Operation where
  | write | flush | close
  deriving DecidableEq, Repr, Inhabited

/-- A sink whose chosen operations break off; the others do nothing. -/
structure Breaking where
  operations : List Operation
  payload : PanicPayload
  deriving DecidableEq, Repr, Inhabited

namespace Breaking

def name : String := "panicking"

/-- The outcome of an operation. -/
def outcome (b : Breaking) (op : Operation) : Outcome :=
  if op ∈ b.operations then Outcome.panic b.payload else .ok ()

end Breaking

/-- A call of a sink. -/
inductive Call where
  | write (p : ByteArray)
  | flush
  | close
  deriving Inhabited

/-- A sink that keeps its calls with their outcomes, the oldest first. -/
structure Scripted where
  name : String
  /-- How each call ends. The first one has the number zero. -/
  script : Nat → Outcome
  calls : List (Call × Outcome) := []
  deriving Inhabited

namespace Scripted

/-- The outcome of the next call, and the sink after it. -/
def answer (c : Call) (s : Scripted) : Outcome × Scripted :=
  let o := s.script s.calls.length
  (o, { s with calls := s.calls ++ [(c, o)] })

end Scripted

/-- A gate, which is open or held. -/
structure Gate where
  held : Bool := false
  deriving DecidableEq, Repr, Inhabited

namespace Gate

def name : String := "gate"

end Gate

end Logging.Sink
