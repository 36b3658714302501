import Logging.Event
import Logging.Sink.Buffer
import Logging.Sink.Console
import Logging.Sink.FanOut
import Logging.Sink.Memory
import Logging.Sink.Queue
import Logging.Sink.RotatingFile
import Logging.Sink.Trial

/-!
# Networks of sinks

Sinks pass bytes on to others, and one sink may stand behind several. A network holds every sink
under a number, together with the disk and the output streams.

* `Cell`: a sink with the numbers of those behind it.
* `PausedDelivery`: a delivery of the background that waits at a gate.
* `Network.destination`: the operations of a sink. A chain of sinks is no longer than the network
  has sinks, which bounds the recursion.
* `Network.write`, `Network.flush`, `Network.close`: the operations, by number.
-/

namespace Logging

open Sink

/-- The number of a sink. -/
abbrev SinkId := Nat

/-- A sink, with the numbers of those behind it. -/
inductive Cell where
  | memory (m : Memory)
  | console (c : Console)
  | file (f : File)
  | rotating (r : RotatingFile)
  | buffered (b : Buffer) (inner : SinkId)
  | queued (q : Queue) (inner : SinkId)
  | fanOut (f : FanOut SinkId)
  | failing (f : Failing) (inner : Option SinkId)
  | breaking (b : Breaking)
  | scripted (s : Scripted)
  | gate (g : Gate) (inner : SinkId)
  /-- Nobody holds the sink any more. -/
  | gone
  deriving Inhabited

namespace Cell

def name : Cell → String
  | memory _ => Memory.name
  | console c => c.name
  | file _ => File.name
  | rotating _ => RotatingFile.name
  | buffered _ _ => Buffer.name
  | queued _ _ => Queue.name
  | fanOut _ => FanOut.name
  | failing f _ => f.name
  | breaking _ => Breaking.name
  | scripted s => s.name
  | gate _ _ => Gate.name
  | gone => ""

/-- The sinks that the sink holds. -/
def references : Cell → List SinkId
  | buffered _ inner => [inner]
  | queued _ inner => [inner]
  | fanOut f => f.members
  | failing _ inner => inner.toList
  | gate _ inner => [inner]
  | _ => []

end Cell

/-- A write that is still to be made. If a fan-out makes it, the place of the member in it and the
member's name are known. -/
structure LateWrite where
  sink : SinkId
  payload : ByteArray
  member : Option (Nat × String) := none
  deriving Inhabited

/-- A delivery of the background that waits at a gate. -/
structure PausedDelivery where
  /-- How often the payload was tried before, in vain. -/
  tries : Nat := 0
  /-- The outcome of the writes of this try that were made. -/
  outcome : Outcome := .ok ()
  /-- The writes of this try that are still to be made, in order; the first waits at the gate. -/
  writes : List LateWrite
  deriving Inhabited

/-- Sinks, and what is around them. -/
structure Network where
  cells : Array Cell := #[]
  disk : Disk
  /-- Whether the current operation runs in the background. -/
  background : Bool := false
  /-- Whether the current operation would wait at a gate. -/
  blocked : Bool := false
  /-- The writes that the current operation has left out, in order. -/
  late : List LateWrite := []
  /-- The deliveries that wait at a gate, by the queue that they come from. -/
  paused : List (SinkId × PausedDelivery) := []
  /-- What happened in the foreground. -/
  events : Array Event := #[]
  /-- What happened in the background. -/
  backgroundEvents : Array Event := #[]
  stdout : ByteArray := .empty
  stderr : ByteArray := .empty
  deriving Inhabited

namespace Network

/-- Bytes are printed to a stream. -/
def print (stream : Stream) (b : ByteArray) (w : Network) : Network :=
  match stream with
  | .stdout => { w with stdout := w.stdout ++ b }
  | .stderr => { w with stderr := w.stderr ++ b }

instance : Terminal Network := ⟨print⟩

/-- Keeps an event. -/
def emit (e : Event) (w : Network) : Network :=
  if w.background then { w with backgroundEvents := w.backgroundEvents.push e }
  else { w with events := w.events.push e }

instance : EventLog Network := ⟨emit⟩

def cell (w : Network) (id : SinkId) : Cell := w.cells.getD id .gone

def set (w : Network) (id : SinkId) (c : Cell) : Network :=
  { w with cells := w.cells.setIfInBounds id c }

/-- Adds a sink; gives its number. -/
def add (c : Cell) (w : Network) : SinkId × Network :=
  (w.cells.size, { w with cells := w.cells.push c })

/-- An operation that runs in the background. -/
def inBackground {α : Type} (act : Network → α × Network) (w : Network) : α × Network :=
  let (a, v) := act { w with background := true }
  (a, { v with background := w.background })

/-- The effects of the worker of a queue. -/
def work (inner : Destination Network) : Worker.Work ByteArray Network where
  process p := inBackground (inner.write p)
  notify f w := (inBackground (fun w => ((), w.emit (.callback f))) w).2
  finish h w :=
    if h = .runs then (inBackground (fun w => ((), w.emit .hook)) w).2 else w

/-- Reports lines about trouble. -/
def reportAll (lines : List String) (w : Network) : Network :=
  lines.foldl (fun w line => report line w) w

/-- A write to a sink, given the operations of those behind it. -/
def writeCell (near : SinkId → Destination Network) (id : SinkId) (p : ByteArray) (w : Network) :
    Outcome × Network :=
  match w.cell id with
  | .memory m =>
    let (o, m) := m.write p
    (o, w.set id (.memory m))
  | .console c => c.write p w
  | .file f =>
    let (o, f, d) := f.write p w.disk
    (o, { w with disk := d }.set id (.file f))
  | .rotating r =>
    let (o, r, lines, d) := r.write p w.disk
    (o, ({ w with disk := d }.set id (.rotating r)).reportAll lines)
  | .buffered b inner =>
    let (o, b, w) := b.write (near inner) p w
    (o, w.set id (.buffered b inner))
  | .queued q inner =>
    let (o, q, w) := q.write (near inner) p w
    (o, w.set id (.queued q inner))
  | .fanOut f => f.write near p w
  | .failing f inner =>
    let (fails, f) := f.nextWrite
    let w := w.set id (.failing f inner)
    if fails then (f.fault, w)
    else match inner with
      | some inner => (near inner).write p w
      | none => (.ok (), w)
  | .breaking b => (b.outcome .write, w)
  | .scripted s =>
    let (o, s) := s.answer (.write p)
    (o, w.set id (.scripted s))
  | .gate g inner =>
    if g.held ∧ w.background then (.ok (), { w with blocked := true }) else (near inner).write p w
  | .gone => (.ok (), w)

/-- A flush of a sink, given the operations of those behind it. -/
def flushCell (near : SinkId → Destination Network) (id : SinkId) (w : Network) :
    Outcome × Network :=
  match w.cell id with
  | .memory _ => (.ok (), w)
  | .console _ => (.ok (), w)
  | .file f =>
    let (o, f, d) := f.flush w.disk
    (o, { w with disk := d }.set id (.file f))
  | .rotating r =>
    let (o, r, d) := r.flush w.disk
    (o, { w with disk := d }.set id (.rotating r))
  | .buffered b inner =>
    let (o, b, w) := b.flush (near inner) w
    (o, w.set id (.buffered b inner))
  | .queued _ inner => (near inner).flush w
  | .fanOut f => f.flush near w
  | .failing f inner =>
    if f.flushFails then (f.fault, w)
    else match inner with
      | some inner => (near inner).flush w
      | none => (.ok (), w)
  | .breaking b => (b.outcome .flush, w)
  | .scripted s =>
    let (o, s) := s.answer .flush
    (o, w.set id (.scripted s))
  | .gate _ inner => (near inner).flush w
  | .gone => (.ok (), w)

/-- Closes a sink, given the operations of those behind it. -/
def closeCell (near : SinkId → Destination Network) (id : SinkId) (w : Network) :
    Outcome × Network :=
  match w.cell id with
  | .memory m => (.ok (), w.set id (.memory m.close))
  | .console c => (.ok (), w.set id (.console c.close))
  | .file f =>
    let (o, f, d) := f.close w.disk
    (o, { w with disk := d }.set id (.file f))
  | .rotating r =>
    let (o, r, d) := r.close w.disk
    (o, { w with disk := d }.set id (.rotating r))
  | .buffered b inner =>
    let (o, b, w) := b.close (near inner) w
    (o, w.set id (.buffered b inner))
  | .queued q inner =>
    let (o, q, w) := q.close (near inner) (work (near inner)) w
    (o, w.set id (.queued q inner))
  | .fanOut f =>
    let (o, f, w) := f.close near w
    (o, w.set id (.fanOut f))
  | .failing f inner =>
    if f.closeFails then (f.fault, w)
    else match inner with
      | some inner => (near inner).close w
      | none => (.ok (), w)
  | .breaking b => (b.outcome .close, w)
  | .scripted s =>
    let (o, s) := s.answer .close
    (o, w.set id (.scripted s))
  | .gate _ inner => (near inner).close w
  | .gone => (.ok (), w)

/-- The operations of a sink, if no chain from it is longer than that. -/
def destination : Nat → SinkId → Destination Network
  | 0, _ => .absent
  | n + 1, id =>
    { name := fun w => (w.cell id).name
      write := writeCell (destination n) id
      flush := flushCell (destination n) id
      close := closeCell (destination n) id }

/-- The operations of every sink. -/
def near (w : Network) : SinkId → Destination Network := destination w.cells.size

def write (id : SinkId) (p : ByteArray) (w : Network) : Outcome × Network :=
  (w.near id).write p w

def flush (id : SinkId) (w : Network) : Outcome × Network := (w.near id).flush w

def close (id : SinkId) (w : Network) : Outcome × Network := (w.near id).close w

end Network

end Logging
