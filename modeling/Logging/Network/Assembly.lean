import Logging.Network.Ownership

/-!
# Putting sinks together

* `Network.addFile`, `Network.addBuffered`, …: making sinks. A sink whose settings are wrong is not
  made.
* `Network.wrap`: a sink with a buffer and a queue in front of it, as far as they are wanted.
-/

namespace Logging

open Sink

/-- What a queue in front of a sink is made from. -/
structure QueuePlan where
  name : String
  capacity : Nat
  policy : Worker.Policy := .default
  hook : Worker.Hook := .none
  deriving Repr, Inhabited

namespace Network

/-- Adds a sink, if it could be made. -/
def addMade (c : Except Failure Cell) (w : Network) : Except Failure SinkId × Network :=
  match c with
  | .ok c =>
    let (id, w) := w.add c
    (.ok id, w)
  | .error e => (.error e, w)

/-- A fault in making a sink. -/
def faulty {α β : Type} (make : α → β) : Except Fault α → Except Failure β
  | .ok a => .ok (make a)
  | .error f => .error (.fault f)

/-- Adds a sink that appends to a file. -/
def addFile (path : Disk.Path) (w : Network) : Except Failure SinkId × Network :=
  let (f, d) := File.new path w.disk
  { w with disk := d }.addMade (faulty .file f)

/-- Adds a rotating file. -/
def addRotating (r : Settings.Rotation) (maxAgeMillis : Option Nat) (w : Network) :
    Except Failure SinkId × Network :=
  let (f, d) := RotatingFile.newWithAge r maxAgeMillis w.disk
  { w with disk := d }.addMade (faulty .rotating f)

/-- Adds a buffer in front of a sink. -/
def addBuffered (b : Settings.Buffering) (inner : SinkId) (w : Network) :
    Except Failure SinkId × Network :=
  w.addMade ((Buffer.new b).map (.buffered · inner))

/-- Adds a queue in front of a sink. -/
def addQueued (q : QueuePlan) (inner : SinkId) (w : Network) : Except Failure SinkId × Network :=
  w.addMade ((Worker.Machine.new q.name q.capacity q.policy q.hook).map fun m =>
    .queued { machine := m } inner)

/-- Something could not be made, so the sinks that were made for it are given up; the program still
holds some. -/
def makeNone {α : Type} (program ids : List SinkId) (e : Failure) (w : Network) :
    Except Failure α × Network :=
  let (gone, w) := w.release program ids
  (.error (e.followedBy gone), w)

/-- Puts something in front of a sink, if it is wanted. When it cannot be made, the sink is given
up; the program still holds some. -/
def inFront {α : Type} (program : List SinkId)
    (add : α → SinkId → Network → Except Failure SinkId × Network) (wanted : Option α)
    (inner : SinkId) (w : Network) : Except Failure SinkId × Network :=
  match wanted with
  | none => (.ok inner, w)
  | some a =>
    match add a inner w with
    | (.ok id, w) => (.ok id, w)
    | (.error e, w) => w.makeNone program [inner] e

/-- A sink with a buffer and a queue in front of it, as far as they are wanted. -/
def wrap (program : List SinkId) (buffer : Option Settings.Buffering) (queue : Option QueuePlan)
    (inner : SinkId) (w : Network) : Except Failure SinkId × Network :=
  match w.inFront program addBuffered buffer inner with
  | (.ok id, w) => w.inFront program addQueued queue id
  | failed => failed

end Network

end Logging
