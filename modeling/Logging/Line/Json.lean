import Logging.Line.Key
import Logging.Record
import Logging.Time.Style

/-!
# Lines of JSON

One object a line, with its members sorted by name.

* `jsonMembers`: the members of the object of a record. Where two fields have one key the later one
  stands.
* `jsonLine`: the line of a record, with its line feed.
-/

namespace Logging.Line

/-- The timestamp as a member: a number where the style is one. -/
def timestampJson (style : Time.Style) (t : Time.Instant) : Json :=
  if style.isNumeric then .int t.unixMillis else .string (style.render t)

/-- The parts of the record itself. -/
def ownMembers (style : Time.Style) (r : Record) : List (String × Json) :=
  (match r.timestamp with
    | some t => [("timestamp", timestampJson style t)]
    | none => []) ++
    [("level", .string r.level.name), ("message", .string r.message)]

/-- All parts in the order in which they are set. -/
def members (style : Time.Style) (r : Record) : List (String × Json) :=
  ownMembers style r ++ r.fields.entries.map fun e => (outputKey e.1, e.2.toJson)

/-- The members of the object, sorted by name. -/
def jsonMembers (style : Time.Style) (r : Record) : List (String × Json) :=
  (members style r).foldl (fun acc e => Json.putSorted e.1 e.2 acc) []

/-- A record as a line of JSON. -/
def jsonLine (style : Time.Style) (r : Record) : String :=
  (Json.object (jsonMembers style r)).render ++ "\n"

end Logging.Line
