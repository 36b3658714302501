import Logging.Network.Basic

/-!
# Deliveries that wait

A worker that writes through a held gate waits there. What it did on the way is done, and what is
left to do is kept: the write behind the gate, and the writes to the members of fan-outs that would
have followed.

* `Network.patient`: the operations of a sink that stop at a held gate and keep what is left.
* `Network.makeUp`: makes the writes that were left.
* `Network.goOn`: a delivery goes on from where it waited.
-/

namespace Logging

open Sink

namespace LateWrite

/-- The write with its place in a fan-out, unless it has one already. -/
def within (member : Option (Nat × String)) (x : LateWrite) : LateWrite :=
  { x with member := x.member.or member }

/-- The outcome of the write, as the fan-out around it sees it. -/
def contained (x : LateWrite) (o : Outcome) (w : Network) : Outcome × Network :=
  match x.member with
  | some (place, name) => FanOut.contain place name "write" o w
  | none => (o, w)

end LateWrite

namespace Network

/-- Keeps a write for later. -/
def leave (x : LateWrite) (w : Network) : Network := { w with late := w.late ++ [x] }

/-- A member of a fan-out. Once something was left, every write is. -/
def patientMember (place : Nat) (m : SinkId) (d : Destination Network) : Destination Network :=
  { d with
    write := fun p w =>
      let member := some (place, d.name w)
      if w.late.isEmpty then
        let (o, w) := d.write p w
        (o, { w with late := w.late.map (LateWrite.within member) })
      else (.ok (), w.leave ⟨m, p, member⟩) }

/-- The operations of a sink, where a write stops at a held gate and is kept with what would have
followed. -/
def patient : Nat → SinkId → Destination Network
  | 0, _ => .absent
  | n + 1, id =>
    { destination (n + 1) id with
      write := fun p w =>
        match w.cell id with
        | .gate g inner =>
          if g.held then (.ok (), w.leave ⟨id, p, none⟩) else (patient n inner).write p w
        | .fanOut f =>
          { f with members := f.members.zipIdx }.write
            (fun (m, place) => patientMember place m (patient n m)) p w
        | _ => writeCell (patient n) id p w }

/-- Makes the writes that were left, in order. The outcome is the first failure, also of those made
before. -/
def makeUp : List LateWrite → Outcome → Network → Outcome × Network
  | [], o, w => (o, w)
  | x :: rest, o, w =>
    let (r, w) := (patient w.cells.size x.sink).write x.payload w
    if w.late.isEmpty then
      let (r, w) := x.contained r w
      makeUp rest (o.first r) w
    else (o.first r, { w with late := w.late.map (LateWrite.within x.member) ++ rest })

/-- The effects of a worker whose delivery goes on. The tries before failed and are not made again;
once something was left, nothing more is done. The state holds the number of tries, and the outcome
of the one that was left. -/
def lateWork (x : PausedDelivery) (inner : SinkId) :
    Worker.Work ByteArray (Nat × Outcome × Network) where
  process p := fun (n, o, w) =>
    if n < x.tries then (Outcome.fault default, n + 1, o, w)
    else if !w.late.isEmpty then (.ok (), n + 1, o, w)
    else
      let writes := if n = x.tries then x.writes else [⟨inner, p, none⟩]
      let made := if n = x.tries then x.outcome else .ok ()
      let (r, w) := inBackground (makeUp writes made) w
      if w.late.isEmpty then (r, n + 1, o, w) else (.ok (), n + 1, r, w)
  notify f := fun (n, o, w) =>
    (n, o, (inBackground (fun w => ((), w.emit (.callback f))) w).2)
  finish h := fun (n, o, w) =>
    (n, o, if h = .runs then (inBackground (fun w => ((), w.emit .hook)) w).2 else w)

/-- The counters as they were before so many tries failed. -/
def untried (tries : Nat) (m : Worker.Machine ByteArray) : Worker.Machine ByteArray :=
  { m with counters := { m.counters with retries := m.counters.retries - tries } }

/-- A delivery goes on until it is done or has to wait again. -/
def goOn (id : SinkId) (q : Queue) (inner : SinkId) (x : PausedDelivery) (w : Network) : Network :=
  let m := untried x.tries q.machine
  let w := { w with paused := w.paused.filter fun e => e.1 ≠ id }
  match m.step (lateWork x inner) (0, .ok (), w) with
  | none => w
  | some (done, _, o, v) =>
    if v.late.isEmpty then v.set id (.queued { q with machine := done } inner)
    else
      let retries := done.counters.retries
      let x := ⟨retries - m.counters.retries, o, v.late⟩
      let m := { m with counters := { m.counters with retries } }
      { v with late := [], paused := (id, x) :: v.paused }.set id
        (.queued { q with machine := m } inner)

/-- Whether a delivery still has to wait. -/
def mustWait (x : PausedDelivery) (w : Network) : Bool :=
  match x.writes with
  | y :: _ =>
    match w.cell y.sink with
    | .gate g _ => g.held
    | _ => false
  | [] => false

end Network

end Logging
