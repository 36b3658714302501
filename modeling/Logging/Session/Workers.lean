import Logging.Session.Basic

/-!
# Workers of a session

* `Session.submit`: offers items one by one; the worker comes to rest after each.
* `Session.stopWhileWaiting`, `Session.releaseWhileWaiting`: items wait for room while the worker is
  held, until it is stopped or let go.
-/

namespace Logging.Session

open Worker

def bench? (s : Session) (name : String) : Option Bench :=
  match s.object? name with
  | some (.worker b) => some b
  | _ => none

/-- Changes a worker; the background comes to rest. -/
def onBench (name : String) (f : Bench → Bench) (s : Session) : Session :=
  match s.bench? name with
  | some b => (s.replace name (.worker (f b))).settle
  | none => s

/-- Offers an item to a worker. -/
def submitOne (name : String) (x : Item) (s : Session) : Submission × Session :=
  match s.bench? name with
  | some b =>
    let (r, b) := b.submit x
    (r, (s.replace name (.worker b)).settle)
  | none => (.closed, s)

/-- Offers items to a worker, one by one. -/
def submit (name : String) : List Item → Session → List Submission × Session
  | [], s => ([], s)
  | x :: rest, s =>
    let (r, s) := s.submitOne name x
    let (rs, s) := submit name rest s
    (r :: rs, s)

/-- Stops a worker. Nothing is held back from then on. -/
def stop (name : String) (s : Session) : Outcome × Session :=
  let s := s.openGates
  match s.bench? name with
  | some b =>
    let (o, b, w) := b.stop s.network
    (o, ({ s with network := w }.replace name (.worker b)).settle)
  | none => (.ok (), s)

/-- Items are offered that wait for room. Those that still wait when the worker is stopped are
refused. -/
def stopWhileWaiting (name : String) : List Item → Session → List Submission × Outcome × Session
  | [], s =>
    let (o, s) := s.stop name
    ([], o, s)
  | x :: rest, s =>
    match s.bench? name with
    | none => ([], .ok (), s)
    | some b =>
      if b.machine.mustWait then
        let s := s.replace name (.worker b.refuse)
        let (rs, o, s) := stopWhileWaiting name rest s
        (.closed :: rs, o, s)
      else
        let (r, s) := s.submitOne name x
        let (rs, o, s) := stopWhileWaiting name rest s
        (r :: rs, o, s)

/-- Items are offered that wait for room, until the worker is let go. -/
def releaseWhileWaiting (name : String) (xs : List Item) (s : Session) :
    List Submission × Session :=
  (s.onBench name fun b => { b with held := false }).submit name xs

end Logging.Session
