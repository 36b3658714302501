import Logging.Network.Assembly
import Logging.Settings.SinkSpec

/-!
# Sinks from descriptions

* `Registry`: a factory for each kind of sink.
* `Registry.build`: the sink that a description asks for, with what is put in front of it.
* `Registry.buildAll`: the sinks of several descriptions behind one.
-/

namespace Logging

open Settings Sink

/-- What makes sinks of a kind. -/
inductive Factory where
  | console (s : Stream)
  | file
  | rotatingFile
  /-- Gives the same sink each time. -/
  | given (sink : SinkId)
  /-- Fails each time. -/
  | failing (message : String)
  deriving DecidableEq, Repr, Inhabited

/-- The sinks that a factory holds. -/
def Factory.references : Factory → List SinkId
  | given sink => [sink]
  | _ => []

/-- A factory for each kind of sink. -/
structure Registry where
  factories : List (String × Factory) := []
  deriving Repr, Inhabited

namespace Registry

/-- The kinds that are known from the start. -/
def standard : Registry where
  factories := [("stdout", .console .stdout), ("stderr", .console .stderr), ("file", .file),
    ("rotating_file", .rotatingFile)]

def factory? (r : Registry) (kind : String) : Option Factory := r.factories.lookup kind

/-- Sets the factory of a kind. -/
def register (kind : String) (f : Factory) (r : Registry) : Registry :=
  ⟨r.factories.filter (fun e => e.1 ≠ kind) ++ [(kind, f)]⟩

def contains (r : Registry) (kind : String) : Bool := (r.factory? kind).isSome

/-- The kinds in order. -/
def kinds (r : Registry) : List String :=
  (r.factories.map Prod.fst).mergeSort fun a b => a ≤ b

/-- The sinks that the factories hold. -/
def references (r : Registry) : List SinkId := r.factories.flatMap fun e => e.2.references

/-- The registry with its kinds. -/
def shown (r : Registry) : String :=
  "SinkRegistry \x7b kinds: [" ++ ", ".intercalate (r.kinds.map Text.quoted) ++ "] \x7d"

/-- A fault of a registry. -/
def wrong (detail : String) : Failure := .fault (.configuration "SinkRegistry" detail)

/-- The sink that a factory makes from a description. -/
def make (f : Factory) (spec : SinkSpec) (w : Network) : Except Failure SinkId × Network :=
  match f with
  | .console s => w.addMade (.ok (.console { stream := s }))
  | .file =>
    match spec.path with
    | some p => w.addFile (.ofText p)
    | none => (.error (wrong "sink kind 'file' requires a path"), w)
  | .rotatingFile =>
    match spec.rotation, spec.path with
    | some r, _ => w.addRotating r none
    | none, some p => w.addRotating { Rotation.default with template := p } none
    | none, none =>
      (.error (wrong "sink kind 'rotating_file' requires a rotation config or a path"), w)
  | .given sink => (.ok sink, w.emit (.factory spec.kind spec.kind))
  | .failing message => (.error (.fault (.other message)), w.emit (.factory spec.kind spec.kind))

/-- The sink that a description asks for; the program holds some sinks already. -/
def build (r : Registry) (program : List SinkId) (spec : SinkSpec) (w : Network) :
    Except Failure SinkId × Network :=
  match r.factory? spec.kind with
  | none => (.error (.fault (.unknownSink spec.kind)), w)
  | some f =>
    match make f spec w with
    | (.ok id, w) =>
      let queue := spec.asyncCapacity.map fun n => ⟨Queue.workerName, n, .default, .none⟩
      w.wrap program spec.buffer queue id
    | failed => failed

/-- The sinks of several descriptions, in order. When one cannot be built, those before it are given
up. -/
def buildEach (r : Registry) (program : List SinkId) :
    List SinkSpec → List SinkId → Network → Except Failure (List SinkId) × Network
  | [], made, w => (.ok made, w)
  | spec :: rest, made, w =>
    match r.build (program ++ made) spec w with
    | (.ok id, w) => buildEach r program rest (made ++ [id]) w
    | (.error e, w) => w.makeNone program made e

/-- The sinks of several descriptions behind one. -/
def buildAll (r : Registry) (program : List SinkId) (specs : List SinkSpec) (w : Network) :
    Except Failure SinkId × Network :=
  match r.buildEach program specs [] w with
  | (.error e, w) => (.error e, w)
  | (.ok [], w) => (.error (wrong "no sinks configured"), w)
  | (.ok [id], w) => (.ok id, w)
  | (.ok ids, w) => w.addMade (.ok (.fanOut { members := ids }))

end Registry

end Logging
