import Logging.Session.Basic

/-!
# Chains and loggers of a session

* `Session.addStage`, `Session.addLogger`: new objects under names.
* `Session.handle`, `Session.log`: sending a record on its way.
* `Session.closeLogger`: closes the sink of a logger's family.
-/

namespace Logging.Session

/-- Adds a stage. -/
def addStage (name : String) (stage : Stage) (s : Session) : Session :=
  { s with stages := s.stages.push stage }.put name (.stage s.stages.size)

/-- The number of a stage. -/
def stageNumber? (s : Session) (name : String) : Option Nat :=
  match s.object? name with
  | some (.stage n) => some n
  | _ => none

/-- The stage of a name. -/
def stage? (s : Session) (name : String) : Option Stage :=
  (s.stageNumber? name).bind fun n => s.stages[n]?

def chain? (s : Session) (name : String) : Option Chain :=
  match s.object? name with
  | some (.chain c) => some c
  | _ => none

def logger? (s : Session) (name : String) : Option Logger :=
  match s.object? name with
  | some (.logger l) => some l
  | _ => none

/-- Sends a record through a chain. -/
def handle (c : Chain) (ctx : Context) (r : Record) (s : Session) : Outcome × Session :=
  s.actWithStages (c.handle s.draws ctx r)

/-- Logs a message. -/
def log (l : Logger) (level : Level) (message : String) (s : Session) : Outcome × Session :=
  s.actWithStages (l.log s.draws level message)

/-- Logs a record. -/
def logWith (l : Logger) (ctx : Context) (r : Record) (s : Session) : Outcome × Session :=
  s.actWithStages (l.logWith s.draws ctx r)

/-- Builds a logger, the first of its family. -/
def addLogger (name : String) (p : LoggerPlan) (s : Session) : Outcome × Session :=
  let (r, s) := s.actWithStages (p.build s.held)
  match r with
  | .error e => (.error e, s)
  | .ok (root, chain) =>
    let families := s.families.push { root, asynchronous := p.asyncCapacity.isSome }
    let logger : Logger := { chain, family := s.families.size, lowest := p.lowest }
    (.ok (), { s with families }.put name (.logger logger))

/-- The sink of a logger's family. -/
def rootSink (l : Logger) (s : Session) : SinkId :=
  match s.families[l.family]? with
  | some f => f.root
  | none => 0

def flushLogger (l : Logger) (s : Session) : Outcome × Session :=
  s.act fun w => w.flush (s.rootSink l)

/-- Closes the sink of a logger's family. Nothing is held back from then on. -/
def closeLogger (l : Logger) (s : Session) : Outcome × Session :=
  let s := s.openGates
  let (o, s) := s.act fun w => w.close (s.rootSink l)
  (o, s.closeFamily l.family)

end Logging.Session
