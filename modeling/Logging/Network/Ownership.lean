import Logging.Network.Background

/-!
# Who holds a sink

A sink lives as long as somebody holds it: the program, or another sink. When the last holder lets
go, buffers, queues and files close, and then they let go of the sinks behind them.

* `Network.abandon`: what a sink does when nobody holds it any more.
* `Network.release`: some holders let go.
-/

namespace Logging.Network

open Sink

/-- The outcome of closing a file that was given up, with a fault reported. -/
def reportFault (w : Network) (line : Fault → String) (o : Outcome) : Outcome × Network :=
  match o with
  | .error (.fault f) => (.ok (), report (line f) w)
  | o => (o, w)

/-- What a sink does when nobody holds it any more. -/
def abandon (id : SinkId) (w : Network) : Outcome × Network :=
  match w.cell id with
  | .buffered b inner =>
    let (o, _, w) := b.abandon (w.near inner) w
    (o, w)
  | .queued q inner =>
    let (o, _, w) := q.abandon (w.near inner) (work (w.near inner)) w
    (o, w)
  | .file f =>
    let (o, g, d) := f.close w.disk
    { w with disk := d }.reportFault g.abandonLine o
  | .rotating r =>
    let (o, _, d) := r.close w.disk
    { w with disk := d }.reportFault RotatingFile.abandonLine o
  | _ => (.ok (), w)

/-- Whether some sink holds that one. -/
def isHeldInside (w : Network) (id : SinkId) : Bool :=
  w.cells.any fun c => c.references.contains id

/-- Holders let go of sinks, one after the other; the program still holds some. Every step lets one
holder go, and no more holders come than the first number says. -/
def releaseWithin (program : List SinkId) : Nat → List SinkId → Network → Outcome × Network
  | 0, _, w => (.ok (), w)
  | _, [], w => (.ok (), w)
  | n + 1, id :: rest, w =>
    if id ∈ program ∨ id ∈ rest ∨ w.isHeldInside id then releaseWithin program n rest w
    else
      let held := (w.cell id).references
      let (o, w) := w.abandon id
      let (others, w) := releaseWithin program n (held ++ rest) (w.set id .gone)
      (o.both others, w)

/-- How often sinks are held by sinks. -/
def holdings (w : Network) : Nat :=
  w.cells.foldl (fun n c => n + c.references.length) 0

/-- Holders let go of sinks; the program still holds some. -/
def release (program ids : List SinkId) (w : Network) : Outcome × Network :=
  releaseWithin program (ids.length + w.holdings) ids w

end Logging.Network
