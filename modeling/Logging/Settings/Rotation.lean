import Logging.Fault
import Logging.Settings.Members
import Logging.Text.Letter
import Logging.Time.Pattern

/-!
# Settings of rotating files

* `Rotation`: how files are named, when the next one begins and what becomes of the full ones.
* `Rotation.fault?`: what is wrong with the settings.
* `Rotation.ofTree?`, `Rotation.toJson`: the form in configurations.
-/

namespace Logging.Settings

/-- How a rotating file is kept. -/
structure Rotation where
  /-- The pattern of file names, filled in with the time at which a file begins. -/
  template : String := "app-%Y%m%d-%H%M%S.log"
  /-- A file holds no more bytes than this. -/
  maxBytes : Option Nat := some 10485760
  /-- A file that was last changed this many seconds ago is full. -/
  maxAgeSeconds : Option Nat := none
  /-- This many full files are kept. -/
  maxBackups : Option Nat := none
  /-- Whether full files are compressed. -/
  compress : Bool := false
  deriving DecidableEq, Repr, Inhabited

namespace Rotation

/-- The settings of a rotating file that sets none. -/
def default : Rotation := {}

/-- A fault of the settings. -/
def wrong (detail : String) : Fault := .configuration "RotatingFileSink" detail

/-- What is wrong with the settings, if anything is. -/
def fault? (r : Rotation) : Option Fault :=
  if Text.isBlank r.template then some (wrong "path_template must not be empty")
  else if (Time.items? r.template.toList).isNone then
    some (wrong ("invalid strftime template " ++ inQuotes r.template))
  else if r.maxBytes = some 0 then some (wrong "max_bytes must be greater than zero")
  else if r.maxAgeSeconds = some 0 then some (wrong "max_age_secs must be greater than zero")
  else none

def names : List String :=
  ["path_template", "max_bytes", "max_age_secs", "max_backups", "compress"]

/-- The settings that a tree holds. -/
def ofTree? (t : Json.Tree) : Option Rotation := do
  match ← parts? names t with
  | [template, maxBytes, maxAge, maxBackups, compress] =>
    some
      { template := ← partOr string? default.template template
        maxBytes := ← partOr (optional? natural?) default.maxBytes maxBytes
        maxAgeSeconds := ← partOr (optional? natural?) default.maxAgeSeconds maxAge
        maxBackups := ← partOr (optional? natural?) default.maxBackups maxBackups
        compress := ← partOr flag? default.compress compress }
  | _ => none

def toJson (r : Rotation) : Json :=
  .object
    [("path_template", .string r.template), ("max_bytes", optionalJson r.maxBytes),
      ("max_age_secs", optionalJson r.maxAgeSeconds),
      ("max_backups", optionalJson r.maxBackups), ("compress", .bool r.compress)]

end Rotation

end Logging.Settings
