import Logging.Outcome

/-!
# Destinations

Where bytes go. A sink that passes bytes on knows the next one only as a destination.

* `Destination`: the operations of a sink inside a state.
* `Terminal`: a state that has the two output streams of a program.
* `report`: a line about trouble that no caller is told of.
-/

namespace Logging

/-- The output streams of a program. -/
inductive Stream where
  | stdout | stderr
  deriving DecidableEq, Repr, Inhabited

namespace Stream

/-- The stream's name. -/
def name : Stream → String
  | stdout => "stdout"
  | stderr => "stderr"

/-- The stream's name in capitalized form. -/
def title : Stream → String
  | stdout => "Stdout"
  | stderr => "Stderr"

end Stream

/-- A state that has output streams. -/
class Terminal (σ : Type) where
  print : Stream → ByteArray → σ → σ

/-- Prints a line about trouble. -/
def report {σ : Type} [Terminal σ] (line : String) (s : σ) : σ :=
  Terminal.print .stderr (line ++ "\n").toUTF8 s

namespace Sink

/-- The operations of a sink, on a state that holds it. -/
structure Destination (σ : Type) where
  name : σ → String
  write : ByteArray → σ → Outcome × σ
  flush : σ → Outcome × σ
  close : σ → Outcome × σ

namespace Destination

variable {σ : Type}

/-- Nothing is there: bytes vanish. -/
def absent : Destination σ where
  name _ := ""
  write _ s := (.ok (), s)
  flush s := (.ok (), s)
  close s := (.ok (), s)

end Destination

/-- The outcome of a write to a sink that was closed. -/
def closedOutcome (name : String) : Outcome := Outcome.fault (.sinkClosed name)

end Sink

end Logging
