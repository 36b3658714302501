import Logging.Settings.Buffering
import Logging.Settings.Rotation

/-!
# Descriptions of sinks

* `SinkSpec`: a kind of sink with what it needs, and what is put around it.
* `SinkSpec.ofTree?`, `SinkSpec.toJson`: the form in configurations; what is absent is left out.
-/

namespace Logging.Settings

/-- What a sink is built from. -/
structure SinkSpec where
  kind : String
  path : Option String := none
  rotation : Option Rotation := none
  buffer : Option Buffering := none
  /-- The length of the queue in front of the sink, if there is one. -/
  asyncCapacity : Option Nat := none
  deriving DecidableEq, Repr, Inhabited

namespace SinkSpec

def names : List String := ["kind", "path", "rotation", "buffer", "async_capacity"]

/-- The description that a tree holds. -/
def ofTree? (t : Json.Tree) : Option SinkSpec := do
  match ← parts? names t with
  | [kind, path, rotation, buffer, capacity] =>
    some
      { kind := ← needed string? kind
        path := ← partOr (optional? string?) none path
        rotation := ← partOr (optional? Rotation.ofTree?) none rotation
        buffer := ← partOr (optional? Buffering.ofTree?) none buffer
        asyncCapacity := ← partOr (optional? natural?) none capacity }
  | _ => none

/-- The descriptions that a tree lists. -/
def listOfTree? : Json.Tree → Option (List SinkSpec)
  | .array ts => ts.mapM ofTree?
  | _ => none

/-- A member that is left out where there is none. -/
def member {α : Type} (name : String) (toJson : α → Json) : Option α → List (String × Json)
  | some a => [(name, toJson a)]
  | none => []

/-- The members of a description. -/
def members (s : SinkSpec) : List (String × Json) :=
  [("kind", .string s.kind)] ++ member "path" .string s.path ++
    member "rotation" Rotation.toJson s.rotation ++ member "buffer" Buffering.toJson s.buffer ++
    member "async_capacity" (fun n : Nat => .int n) s.asyncCapacity

def toJson (s : SinkSpec) : Json := .object s.members

end SinkSpec

end Logging.Settings
