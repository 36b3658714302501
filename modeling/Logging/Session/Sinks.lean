import Logging.Session.Basic

/-!
# Sinks of a session

* `Session.addSink`: a new sink under a name.
* `Session.write`, `Session.flush`, `Session.close`: operations by name.
* `Session.addBuilt`: a sink that a registry builds.
-/

namespace Logging.Session

open Sink

/-- A sink that was made goes under a name. -/
def addSink (name : String) (make : Network → Except Failure SinkId × Network) (s : Session) :
    Outcome × Session :=
  let (r, s) := s.act make
  match r with
  | .ok id => (.ok (), s.put name (.sink id))
  | .error e => (.error e, s)

/-- Adds a sink that needs no settings. -/
def addCell (name : String) (c : Cell) (s : Session) : Outcome × Session :=
  s.addSink name fun w => w.addMade (.ok c)

/-- The sink of a name. -/
def sink? (s : Session) (name : String) : Option SinkId :=
  match s.object? name with
  | some (.sink id) => some id
  | some (.built id _) => some id
  | _ => none

/-- What is known of the sink of a name. -/
def cell (s : Session) (name : String) : Cell :=
  match s.sink? name with
  | some id => s.network.cell id
  | none => .gone

/-- Writes a payload so many times; the last outcome counts. -/
def write (id : SinkId) (p : ByteArray) : Nat → Session → Outcome × Session
  | 0, s => (.ok (), s)
  | n + 1, s =>
    let (o, s) := s.act fun w => w.write id p
    match n, o with
    | 0, o => (o, s)
    | _, .error (.panic e) => (.error (.panic e), s)
    | n, _ => write id p n s

def flush (id : SinkId) (s : Session) : Outcome × Session := s.act fun w => w.flush id

/-- The object of a sink after it was closed: nothing is delivered in the background any more. -/
def closedObject : Object → Object
  | .built id _ => .built id false
  | o => o

/-- Closes the sink of a name. Unless it is a memory sink, nothing is held back from then on. -/
def close (name : String) (s : Session) : Outcome × Session :=
  match s.object? name, s.sink? name with
  | some o, some id =>
    let s := if s.isMemory o then s else s.openGates
    let (r, s) := s.act fun w => w.close id
    (r, s.replace name (closedObject o))
  | _, _ => (.ok (), s)

/-- Writes a payload to a buffer and waits until it was passed on; gives the number of bytes that
are gathered then. -/
def writeAndWait (id : SinkId) (p : ByteArray) (s : Session) : Outcome × Nat × Session :=
  let (o, s) := s.act fun w => w.write id p
  let ((), s) := s.act fun w => ((), w.expire id)
  (o,
    match s.network.cell id with
    | .buffered b _ => b.pending.size
    | _ => 0,
    s)

/-- Holds a gate or lets it go. -/
def holdGate (id : SinkId) (held : Bool) (s : Session) : Session :=
  (s.act fun w => ((), w.holdGate id held)).2

/-- Empties the channel of the policy of a queue. -/
def takeForwarded (id : SinkId) (s : Session) : List Fault × Session :=
  match s.network.cell id with
  | .queued q inner =>
    let (fs, m) := q.machine.takeForwarded
    (fs, { s with network := s.network.set id (.queued { q with machine := m } inner) })
  | _ => ([], s)

/-- Adds a member to a fan-out. -/
def addMember (id member : SinkId) (s : Session) : Session :=
  match s.network.cell id with
  | .fanOut f => { s with network := s.network.set id (.fanOut (f.add member)) }
  | _ => s

/-- Takes a member out of a fan-out; tells whether it was one. -/
def removeMember (id member : SinkId) (s : Session) : Bool × Session :=
  match s.network.cell id with
  | .fanOut f =>
    let (found, f) := f.remove member
    (found, { s with network := s.network.set id (.fanOut f) })
  | _ => (false, s)

/-- The registry of a name. -/
def registry? (s : Session) (name : String) : Option Registry :=
  match s.object? name with
  | some (.registry r) => some r
  | _ => none

/-- Registers a factory; the one that was there lets go of its sink. -/
def register (name kind : String) (f : Factory) (s : Session) : Session :=
  match s.registry? name with
  | none => s
  | some r =>
    let before := ((r.factory? kind).map Factory.references).getD []
    let s := s.replace name (.registry (r.register kind f))
    (s.act fun w => w.release s.held before).2

/-- A sink that was built goes under a name. -/
def addBuilt (name : String) (asynchronous : Bool)
    (build : List SinkId → Network → Except Failure SinkId × Network) (s : Session) :
    Except Failure SinkId × Session :=
  let (r, s) := s.act (build s.held)
  match r with
  | .ok id => (.ok id, s.put name (.built id asynchronous))
  | .error e => (.error e, s)

end Logging.Session
