import Logging.Sink.Destination

/-!
# Fan-out

A fan-out passes every operation on to each of its members, in order. A member that fails or breaks
off does not keep the others from it; the first failure is the outcome, and a member that broke off
counts as failed.

* `FanOut.visit`: an operation on every member.
* `FanOut.write`, `FanOut.flush`, `FanOut.close`: the operations.
* `FanOut.add`, `FanOut.remove`: the list of members.
-/

namespace Logging.Sink

/-- The members of a fan-out, in order, and whether it was closed. -/
structure FanOut (ι : Type) where
  members : List ι
  closed : Bool := false
  deriving Repr, Inhabited

namespace FanOut

def name : String := "multi"

variable {ι σ : Type}

/-- Appends a member. -/
def add (m : ι) (f : FanOut ι) : FanOut ι := { f with members := f.members ++ [m] }

/-- Takes the first member out that is the given sink; tells whether there was one. -/
def remove [DecidableEq ι] (m : ι) (f : FanOut ι) : Bool × FanOut ι :=
  (f.members.contains m, { f with members := f.members.erase m })

/-- What is reported of a member that broke off. -/
def panicLine (place : Nat) (member action detail : String) : String :=
  "[LOGGER CRITICAL] Sink #" ++ toString place ++ " (" ++ inQuotes member ++
    ") panicked during " ++ action ++ ": " ++ detail ++ ". Other sinks continue to function."

variable [Terminal σ]

/-- The outcome of one member: that it broke off is reported and counts as a fault. -/
def contain (place : Nat) (member action : String) (o : Outcome) (s : σ) : Outcome × σ :=
  match o with
  | .error (.panic p) =>
    (Outcome.fault (.sinkPanicked member p.text), report (panicLine place member action p.text) s)
  | o => (o, s)

/-- An operation on every member in order; the outcome is the first failure. -/
def visit (near : ι → Destination σ) (action : String)
    (op : Destination σ → σ → Outcome × σ) : Nat → List ι → σ → Outcome × σ
  | _, [], s => (.ok (), s)
  | place, m :: rest, s =>
    let (o, s) := op (near m) s
    let (o, s) := contain place ((near m).name s) action o s
    let (others, s) := visit near action op (place + 1) rest s
    (o.first others, s)

/-- Writes a payload to every member, unless the fan-out was closed. -/
def write (near : ι → Destination σ) (p : ByteArray) (f : FanOut ι) (s : σ) : Outcome × σ :=
  if f.closed then (closedOutcome name, s)
  else visit near "write" (fun d s => d.write p s) 0 f.members s

/-- Flushes every member. -/
def flush (near : ι → Destination σ) (f : FanOut ι) (s : σ) : Outcome × σ :=
  visit near "flush" (fun d s => d.flush s) 0 f.members s

/-- Closes every member, the first time. -/
def close (near : ι → Destination σ) (f : FanOut ι) (s : σ) : Outcome × FanOut ι × σ :=
  if f.closed then (.ok (), f, s)
  else
    let (o, s) := visit near "close" (fun d s => d.close s) 0 f.members s
    (o, { f with closed := true }, s)

end FanOut

end Logging.Sink
