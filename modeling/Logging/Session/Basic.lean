import Logging.Logger.Basic
import Logging.Network.Registry
import Logging.Worker.Bench

/-!
# Sessions

A session is a program that uses sinks, chains, loggers and workers under names. After each
operation the background comes to rest.

* `Object`: what a name may stand for.
* `Session.held`: the sinks that the session holds.
* `Session.settle`: the background comes to rest.
* `Session.act`, `Session.drop`: an operation on the network; letting go of an object.
-/

namespace Logging

open Worker

/-- What a name stands for. -/
inductive Object where
  | sink (id : SinkId)
  /-- A sink that a registry built, and whether something is delivered in the background. -/
  | built (id : SinkId) (asynchronous : Bool)
  | registry (r : Registry)
  | stage (number : Nat)
  | chain (c : Chain)
  | logger (l : Logger)
  | worker (b : Bench)

/-- What is told of a memory sink: the number of writes, whether it is closed and how often it was
closed. -/
structure MemoryMark where
  writes : Nat := 0
  closed : Bool := false
  closeCalls : Nat := 0
  deriving DecidableEq, Repr, Inhabited

/-- A program that uses the library. -/
structure Session where
  network : Network
  /-- What random samplers draw. -/
  draws : Draws
  stages : Stages := #[]
  families : Array Family := #[]
  /-- The objects by name, the oldest first. -/
  objects : List (String × Object) := []
  /-- What was told of memory sinks last. -/
  told : List (String × MemoryMark) := []

instance : BackgroundLog Network where
  emitBehind e w := (Network.inBackground (fun w => ((), w.emit e)) w).2

namespace Session

/-- A session with an empty home directory. -/
def new (home : String) (clock : Nat → Time.Reading) (draws : Draws) : Session :=
  { network := { disk := Disk.fresh home clock }, draws }

def object? (s : Session) (name : String) : Option Object := s.objects.lookup name

/-- The sinks that an object holds. -/
def references (s : Session) : Object → List SinkId
  | .sink id => [id]
  | .built id _ => [id]
  | .registry r => r.references
  | .chain c => c.arrival.sink?.toList
  | .logger l => l.chain.arrival.sink?.toList ++ (s.families[l.family]?.map Family.root).toList
  | .stage _ => []
  | .worker _ => []

/-- The sinks that the session holds. -/
def held (s : Session) : List SinkId := s.objects.flatMap fun e => s.references e.2

/-- Puts an object under a name. -/
def put (name : String) (o : Object) (s : Session) : Session :=
  { s with objects := s.objects ++ [(name, o)] }

/-- Replaces the object of a name. -/
def replace (name : String) (o : Object) (s : Session) : Session :=
  { s with objects := s.objects.map fun e => if e.1 = name then (name, o) else e }

/-- The workers of a list of objects come to rest. -/
def settleWorkers : List (String × Object) → Network → List (String × Object) × Network
  | [], w => ([], w)
  | (name, .worker b) :: rest, w =>
    let (b, w) := b.settle w
    let (rest, w) := settleWorkers rest w
    ((name, .worker b) :: rest, w)
  | e :: rest, w =>
    let (rest, w) := settleWorkers rest w
    (e :: rest, w)

/-- The background comes to rest. -/
def settle (s : Session) : Session :=
  let (objects, w) := settleWorkers s.objects s.network.settle
  { s with objects, network := w }

/-- An operation on the network. -/
def act {α : Type} (f : Network → α × Network) (s : Session) : α × Session :=
  let (a, w) := f s.network
  (a, { s with network := w }.settle)

/-- An operation on the network and the stages. -/
def actWithStages {α : Type} (f : Stages → Network → α × Stages × Network) (s : Session) :
    α × Session :=
  let (a, st, w) := f s.stages s.network
  (a, { s with stages := st, network := w }.settle)

/-- An operation on the disk; tells whether it went well. -/
def actOnDisk (f : Disk → Except Disk.Refusal Disk) (s : Session) : Bool × Session :=
  match f s.network.disk with
  | .ok d => (true, { s with network := { s.network with disk := d } })
  | .error _ => (false, s)

/-- A worker that does not have to wait. -/
def released : Object → Object
  | .worker b => .worker { b with held := false }
  | o => o

/-- Nothing is held back any more, and the background comes to rest. -/
def openGates (s : Session) : Session :=
  let objects := s.objects.map fun (name, o) => (name, released o)
  { s with network := s.network.openGates, objects }.settle

/-- Whether some logger is of that family. -/
def hasFamily (s : Session) (family : Nat) : Bool :=
  s.objects.any fun e =>
    match e.2 with
    | .logger l => l.family = family
    | _ => false

def closeFamily (family : Nat) (s : Session) : Session :=
  { s with families := s.families.modify family fun f => { f with closed := true } }

/-- Lets go of an object that is under no name any more. -/
def dispose (o : Object) (s : Session) : Outcome × Session :=
  match o with
  | .worker b =>
    let (r, _, w) := b.stop s.network
    { s with network := w }.act fun w =>
      match r with
      | .error (.fault (.workerPanicked name detail)) =>
        (.ok (), report ("[LOGGER ERROR] Worker " ++ inQuotes name ++
          " panicked during shutdown: " ++ detail) w)
      | r => (r, w)
  | .logger l =>
    if s.hasFamily l.family then (.ok (), s)
    else
      let ids := s.references o
      let s := s.closeFamily l.family
      s.act fun w =>
        let (closed, w) := match s.families[l.family]? with
          | some f => Logger.abandonRoot f.root w
          | none => (.ok (), w)
        let (gone, w) := w.release s.held ids
        (closed.both gone, w)
  | o => s.act fun w => w.release s.held (s.references o)

/-- Lets go of the object of a name. -/
def drop (name : String) (s : Session) : Outcome × Session :=
  let s := s.openGates
  match s.object? name with
  | none => (.ok (), s)
  | some o => { s with objects := s.objects.filter fun e => e.1 ≠ name }.dispose o

/-- Whether an object is a memory sink. -/
def isMemory (s : Session) : Object → Bool
  | .sink id =>
    match s.network.cell id with
    | .memory _ => true
    | _ => false
  | _ => false

/-- The session ends: it lets go of everything but the memory sinks, the newest first. -/
def finish (s : Session) : Session :=
  let s := s.openGates
  let names := (s.objects.filter fun e => !(s.isMemory e.2)).map Prod.fst
  names.reverse.foldl (fun s name => (s.drop name).2) s

end Session

end Logging
