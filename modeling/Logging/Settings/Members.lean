import Logging.Json.Tree

/-!
# Reading settings

Settings are a fixed list of named parts. In JSON they stand in an object, where names that are not
known are passed over and no known name may come twice, or in an array, in the order of the list
and perhaps cut short.

* `parts?`: the trees of the parts that are there.
* `optional?`, `natural?`, `flag?`, `string?`: the values of parts.
-/

namespace Logging.Settings

open Json

/-- The trees of the parts of an object. -/
def objectParts? (names : List String) (members : List (Option String × Tree)) :
    Option (List (Option Tree)) :=
  if members.any fun m => m.1.isNone then none
  else
    names.mapM fun name =>
      match members.filter fun m => m.1 = some name with
      | [] => some none
      | [m] => some (some m.2)
      | _ :: _ :: _ => none

/-- The trees of the parts with those names, each perhaps absent. -/
def parts? (names : List String) : Tree → Option (List (Option Tree))
  | .object members => objectParts? names members
  | .array items =>
    if items.length ≤ names.length then
      some (items.map some ++ List.replicate (names.length - items.length) none)
    else none
  | _ => none

/-- A part that falls back on a value where it is absent. -/
def partOr {α : Type} (read? : Tree → Option α) (fallback : α) : Option Tree → Option α
  | some t => read? t
  | none => some fallback

/-- A part that must be there. -/
def needed {α : Type} (read? : Tree → Option α) : Option Tree → Option α
  | some t => read? t
  | none => none

/-- A value that may be null. -/
def optional? {α : Type} (read? : Tree → Option α) : Tree → Option (Option α)
  | .null => some none
  | t => (read? t).map some

/-- A natural number below two to the 64th. -/
def natural? : Tree → Option Nat
  | .number n =>
    match n.number? with
    | some (.int (.ofNat k)) => some k
    | _ => none
  | _ => none

def flag? : Tree → Option Bool
  | .bool b => some b
  | _ => none

def string? : Tree → Option String
  | .string s => s
  | _ => none

/-- A number that may be absent. -/
def optionalJson : Option Nat → Json
  | some n => .int n
  | none => .null

end Logging.Settings
