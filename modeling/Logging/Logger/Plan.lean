import Logging.Middleware.Chain
import Logging.Network.Assembly

/-!
# Plans of loggers

* `LoggerPlan`: what a logger is built from.
* `LoggerPlan.rootSink`: the sink that its records are written to.
* `LoggerPlan.stages`: the way that its records go.
* `LoggerPlan.build`: the sink and the chain.
-/

namespace Logging

open Sink

/-- What a logger is built from. -/
structure LoggerPlan where
  /-- Records below it are dropped. -/
  lowest : Level := .info
  format : Line.Format := .default
  /-- The sinks; without any, the lines are printed. -/
  sinks : List SinkId := []
  /-- The stages of its own, by number. -/
  stages : List Nat := []
  /-- When records are stamped that have no timestamp, if they are stamped. -/
  clock : Option Time.Instant := none
  /-- Whether the standard values of the context become fields. -/
  extractContext : Bool := true
  redactor : Option RedactorChain := none
  buffer : Option Settings.Buffering := none
  /-- The length of the queue in front of the sinks, if there is one. -/
  asyncCapacity : Option Nat := none
  policy : Worker.Policy := .default

namespace LoggerPlan

/-- The name of the worker of a logger. -/
def workerName : String := "logger-async"

/-- The plan of the queue. -/
def queue (p : LoggerPlan) : Option QueuePlan :=
  p.asyncCapacity.map fun n => ⟨workerName, n, p.policy, .none⟩

/-- The sinks as one. -/
def joined (p : LoggerPlan) (w : Network) : SinkId × Network :=
  match p.sinks with
  | [] => w.add (.console {})
  | [id] => (id, w)
  | ids => w.add (.fanOut { members := ids })

/-- The sink that records are written to; the program holds some sinks already. -/
def rootSink (p : LoggerPlan) (program : List SinkId) (w : Network) :
    Except Failure SinkId × Network :=
  let (id, w) := p.joined w
  w.wrap program p.buffer p.queue id

/-- The stages in front of the own ones. -/
def stagesBefore (p : LoggerPlan) : List Stage :=
  [.levelFilter p.lowest] ++ (p.clock.map Stage.timestamp).toList ++
    (if p.extractContext then [.contextKeys Context.standardKeys] else [])

/-- The stages behind the own ones. -/
def stagesAfter (p : LoggerPlan) : List Stage := (p.redactor.map Stage.redact).toList

/-- Adds stages; gives their numbers. -/
def addStages (new : List Stage) (st : Stages) : List Nat × Stages :=
  ((List.range new.length).map (st.size + ·), st ++ new.toArray)

/-- The way of a logger's records. -/
def way (p : LoggerPlan) (st : Stages) : List Nat × Stages :=
  let (before, st) := addStages p.stagesBefore st
  let (after, st) := addStages p.stagesAfter st
  (before ++ p.stages ++ after, st)

/-- The sink and the chain of a logger. -/
def build (p : LoggerPlan) (program : List SinkId) (st : Stages) (w : Network) :
    Except Failure (SinkId × Chain) × Stages × Network :=
  match p.rootSink program w with
  | (.error e, w) => (.error e, st, w)
  | (.ok root, w) =>
    let (ids, st) := p.way st
    (.ok (root, { stages := ids, arrival := .write p.format root }), st, w)

end LoggerPlan

end Logging
