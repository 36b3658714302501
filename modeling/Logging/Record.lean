import Logging.Fields
import Logging.Level
import Logging.Time.Instant

/-!
# Records

What is logged in one call: a level, a message, fields and perhaps a timestamp.

* `Record.new`: a record whose message holds no line breaks and no tabs, so that it renders as one
  line.
* `Record.toJson`: the record as an object; what is unset or empty is left out.
-/

namespace Logging

/-- One log call. -/
structure Record where
  level : Level
  message : String
  fields : Fields
  timestamp : Option Time.Instant
  deriving DecidableEq, Repr, Inhabited

namespace Record

/-- Line feeds, carriage returns and tabs are spelled out. -/
def flatChar : Char → List Char
  | '\n' => ['\\', 'n']
  | '\r' => ['\\', 'r']
  | '\t' => ['\\', 't']
  | c => [c]

/-- The message on one line. -/
def flatten (message : String) : String :=
  String.ofList (message.toList.flatMap flatChar)

/-- A record without fields and timestamp. -/
def new (level : Level) (message : String) : Record :=
  ⟨level, flatten message, .empty, none⟩

/-- Sets one field. -/
def withField (r : Record) (key : String) (value : Value) : Record :=
  { r with fields := r.fields.insert key value }

/-- Sets every field of a list. -/
def withFields (r : Record) (fields : Fields) : Record :=
  { r with fields := r.fields.insertAll fields }

def withTimestamp (r : Record) (t : Time.Instant) : Record :=
  { r with timestamp := some t }

/-- The record as a JSON object. -/
def toJson (r : Record) : Json :=
  let timestamp := match r.timestamp with
    | some t => [("timestamp", Json.string (t.rfc3339 "Z"))]
    | none => []
  let fields := if r.fields.isEmpty then [] else [("fields", r.fields.toJson)]
  .object (timestamp ++ [("level", r.level.toJson), ("message", .string r.message)] ++ fields)

end Record

end Logging
