import Logging.Network.Waiting

/-!
# The background of a network

* `Network.deliver?`: one step of the worker of a queue. At a held gate it waits, and it goes on
  when the gate is open.
* `Network.settle`: the workers take steps until there is nothing left to do.
* `Network.expire`: the waiting time of a buffer ends.
* `Network.openGates`: every gate is open from then on.
-/

namespace Logging.Network

open Sink

/-- One step of the worker of a queue, unless there is nothing to do or it has to wait. -/
def deliver? (id : SinkId) (w : Network) : Option Network :=
  match w.cell id with
  | .queued q inner =>
    match w.paused.lookup id with
    | some x => if w.mustWait x then none else some (w.goOn id q inner x)
    | none =>
      match q.machine.step (work (w.near inner)) w with
      | none => none
      | some (m, v) =>
        if v.blocked then
          q.machine.inHand.map fun p => w.goOn id q inner { writes := [⟨inner, p, none⟩] }
        else some (v.set id (.queued { q with machine := m } inner))
  | _ => none

/-- So many steps of the worker of a queue, or fewer. -/
def deliver (id : SinkId) : Nat → Network → Network
  | 0, w => w
  | n + 1, w =>
    match w.deliver? id with
    | some w => deliver id n w
    | none => w

/-- How many steps the worker of a queue has left, until it is done or has to wait. -/
def remaining (w : Network) (id : SinkId) : Nat :=
  match w.cell id with
  | .queued q _ => q.machine.remaining + 1
  | _ => 0

/-- Every worker does what there is to do, one after the other. -/
def sweep (w : Network) : Network :=
  (List.range w.cells.size).foldl (fun w id => deliver id (w.remaining id) w) w

/-- Every worker does what there is to do, until all have nothing left. What one worker does may be
work for another, and a chain of workers is no longer than the network has sinks. -/
def settle (w : Network) : Network :=
  (List.range w.cells.size).foldl (fun w _ => w.sweep) w

/-- The waiting time of a buffer ends. -/
def expire (id : SinkId) (w : Network) : Network :=
  match w.cell id with
  | .buffered b inner =>
    let (b, w) := inBackground (b.expire (w.near inner)) w
    w.set id (.buffered b inner)
  | _ => w

/-- Holds a gate or lets it go. -/
def holdGate (id : SinkId) (held : Bool) (w : Network) : Network :=
  match w.cell id with
  | .gate _ inner => w.set id (.gate { held } inner)
  | _ => w

/-- Every gate is open from then on. -/
def openGates (w : Network) : Network :=
  { w with cells := w.cells.map fun c =>
      match c with
      | .gate _ inner => .gate { held := false } inner
      | c => c }

end Logging.Network
