import Logging.Sink.Destination
import Logging.Worker.Machine

/-!
# Queues in front of sinks

A queue hands payloads to a worker that writes them to the sink behind. When the queue is full, the
payload is written at once, ahead of those that wait.

* `Queue.write`, `Queue.close`: the operations. Flushing flushes the sink behind and waits for
  nothing.
* `Queue.abandon`: closes a queue that its owner gave up.
-/

namespace Logging.Sink

open Worker

/-- A worker for payloads. -/
structure Queue where
  machine : Machine ByteArray
  /-- How many payloads were written at once because the queue was full. -/
  fallbacks : Nat := 0
  closed : Bool := false
  deriving Inhabited

namespace Queue

def name : String := "async"

/-- The name of the worker of a queue that sets none. -/
def workerName : String := "async-sink"

variable {σ : Type}

/-- The worker's effects: a payload is written to the sink behind. -/
def work (inner : Destination σ) (notify : Fault → σ → σ) (finish : Hook → σ → σ) :
    Work ByteArray σ :=
  ⟨inner.write, notify, finish⟩

/-- Hands a payload to the worker, or writes it at once if the queue is full. -/
def write (inner : Destination σ) (p : ByteArray) (q : Queue) (s : σ) : Outcome × Queue × σ :=
  if q.closed then (closedOutcome name, q, s)
  else
    match q.machine.submit p with
    | (.accepted, m) => (.ok (), { q with machine := m }, s)
    | (.full p, m) =>
      let (o, s) := inner.write p s
      (o, { q with machine := m, fallbacks := q.fallbacks + 1 }, s)
    | (.closed _, m) => (closedOutcome name, { q with machine := m }, s)

/-- Waits until the worker is done, then closes the sink behind. -/
def close (inner : Destination σ) (w : Work ByteArray σ) (q : Queue) (s : σ) :
    Outcome × Queue × σ :=
  if q.closed then (.ok (), q, s)
  else
    let (stopped, m, s) := q.machine.stop w s
    let q := { q with machine := m, closed := true }
    let (closed, s) := inner.close s
    (stopped.both closed, q, s)

/-- Closes a queue that its owner gave up. -/
def abandon [Terminal σ] (inner : Destination σ) (w : Work ByteArray σ) (q : Queue) (s : σ) :
    Outcome × Queue × σ :=
  match q.close inner w s with
  | (.error (.fault f), q, s) =>
    (.ok (), q, report ("[LOGGER ERROR] Failed to close async sink on drop: " ++ f.message) s)
  | done => done

end Queue

end Logging.Sink
