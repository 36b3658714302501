import Logging.Settings.Buffering
import Logging.Sink.Destination

/-!
# Buffers

A buffer gathers bytes in front of a sink and passes them on in one piece: when enough are gathered,
when the first of them has waited long enough, when it is flushed and when it is closed. What was
passed on is gone from the buffer whether or not the sink took it.

* `Buffer.pass`: passes on what is gathered.
* `Buffer.write`, `Buffer.flush`, `Buffer.close`: the operations.
* `Buffer.expire`: the waiting time ends.
-/

namespace Logging.Sink

/-- What watches the waiting time. -/
inductive Timer where
  | running
  | ended
  /-- It broke off while it passed bytes on. -/
  | broken
  deriving DecidableEq, Repr, Inhabited

/-- The bytes that are gathered in front of a sink. -/
structure Buffer where
  /-- From this many bytes on they are passed on. -/
  threshold : Nat
  pending : ByteArray := .empty
  /-- Whether the waiting time runs. -/
  armed : Bool := false
  timer : Timer := .running
  closed : Bool := false
  deriving Inhabited

namespace Buffer

def name : String := "buffered"

/-- More bytes than a block of memory can hold. -/
def sizeLimit : Nat := 1 <<< 63

/-- An empty buffer with these settings. -/
def new (b : Settings.Buffering) : Except Failure Buffer :=
  match b.fault? with
  | some f => .error (.fault f)
  | none =>
    if sizeLimit ≤ b.threshold then .error (.panic (.message "capacity overflow"))
    else .ok { threshold := b.threshold }

variable {σ : Type}

/-- Passes on what is gathered, if anything is. -/
def pass (inner : Destination σ) (b : Buffer) (s : σ) : Outcome × Buffer × σ :=
  if b.pending.isEmpty then (.ok (), { b with armed := false }, s)
  else
    let (o, s) := inner.write b.pending s
    (o, { b with pending := .empty, armed := false }, s)

/-- Gathers a payload, and passes on if that is enough. -/
def write (inner : Destination σ) (p : ByteArray) (b : Buffer) (s : σ) : Outcome × Buffer × σ :=
  if b.closed then (closedOutcome name, b, s)
  else
    let b := { b with pending := b.pending ++ p }
    if b.threshold ≤ b.pending.size then b.pass inner s
    else (.ok (), { b with armed := true }, s)

/-- Passes on what is gathered and flushes the sink behind. -/
def flush (inner : Destination σ) (b : Buffer) (s : σ) : Outcome × Buffer × σ :=
  if b.closed then (closedOutcome name, b, s)
  else
    match b.pass inner s with
    | (.ok (), b, s) =>
      let (o, s) := inner.flush s
      (o, b, s)
    | failed => failed

variable [Terminal σ]

/-- The timer is stopped; that it broke off before is reported. -/
def stopTimer (t : Timer) (s : σ) : σ :=
  if t = .broken then report "[LOGGER ERROR] Flush timer thread panicked" s else s

/-- Passes on what is gathered and closes the sink behind, even if passing on failed. -/
def close (inner : Destination σ) (b : Buffer) (s : σ) : Outcome × Buffer × σ :=
  if b.closed then (.ok (), b, s)
  else
    let s := stopTimer b.timer s
    match { b with closed := true, armed := false, timer := .ended }.pass inner s with
    | (.error (.panic p), b, s) => (.error (.panic p), b, s)
    | (flushed, b, s) =>
      let (closed, s) := inner.close s
      (flushed.both closed, b, s)

/-- The waiting time of the gathered bytes ends: they are passed on, and a fault is reported. -/
def expire (inner : Destination σ) (b : Buffer) (s : σ) : Buffer × σ :=
  if b.armed ∧ b.timer = .running ∧ ¬ b.closed then
    match b.pass inner s with
    | (.ok (), b, s) => (b, s)
    | (.error (.fault f), b, s) =>
      (b, report ("[LOGGER ERROR] Periodic flush to " ++ inQuotes (inner.name s) ++ " failed: " ++
        f.message) s)
    | (.error (.panic _), b, s) => ({ b with timer := .broken }, s)
  else (b, s)

/-- Closes a buffer that its owner gave up. -/
def abandon (inner : Destination σ) (b : Buffer) (s : σ) : Outcome × Buffer × σ :=
  match b.close inner s with
  | (.error (.fault f), b, s) =>
    (.ok (), b,
      report ("[LOGGER ERROR] Failed to close buffered sink on drop: " ++ f.message) s)
  | done => done

end Buffer

end Logging.Sink
