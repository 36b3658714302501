import Logging.Session.Basic

/-!
# What a session tells

* `Session.report`: what happened since the last report. While something is delivered in the
  background at its own pace, only what happened in the foreground is told.
* `Session.memories`: the memory sinks.
-/

namespace Logging

open Sink

/-- What happened since the last report. -/
structure Report where
  events : List Event := []
  backgroundEvents : List Event := []
  stdout : ByteArray := .empty
  stderr : ByteArray := .empty
  /-- The memory sinks that changed. -/
  marks : List (String × MemoryMark) := []

namespace Session

/-- The memory sinks by name. -/
def memories (s : Session) : List (String × Memory) :=
  s.objects.filterMap fun (name, o) =>
    match o with
    | .sink id =>
      match s.network.cell id with
      | .memory m => some (name, m)
      | _ => none
    | _ => none

def mark (m : Memory) : MemoryMark := ⟨m.writes.size, m.closed, m.closeCalls⟩

/-- Whether something is delivered in the background at its own pace. -/
def isDeferring (s : Session) : Bool :=
  s.objects.any fun (_, o) =>
    match o with
    | .built _ asynchronous => asynchronous
    | .logger l =>
      match s.families[l.family]? with
      | some f => f.asynchronous && !f.closed
      | none => false
    | _ => false

/-- The memory sinks that changed since they were told of. -/
def changedMarks (s : Session) : List (String × MemoryMark) :=
  s.memories.filterMap fun (name, m) =>
    if mark m = (s.told.lookup name).getD {} then none else some (name, mark m)

/-- What happened since the last report. -/
def report (s : Session) : Report × Session :=
  let w := s.network
  if s.isDeferring then
    ({ events := w.events.toList }, { s with network := { w with events := #[] } })
  else
    let marks := s.changedMarks
    ({ events := w.events.toList
       backgroundEvents := w.backgroundEvents.toList
       stdout := w.stdout
       stderr := w.stderr
       marks },
      { s with
        network := { w with events := #[], backgroundEvents := #[], stdout := .empty,
                            stderr := .empty }
        told := marks ++ s.told })

end Session

end Logging
