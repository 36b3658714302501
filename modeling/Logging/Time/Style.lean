import Logging.Time.Pattern
import Logging.Json.Tree

/-!
# How lines show timestamps

* `Style`: the choices.
* `Style.render`: the text of an instant. A pattern that cannot be put in counts as `iso8601`.
* `Style.ofTree?`, `Style.toJson`: the form that configurations use.
-/

namespace Logging.Time

open Text

/-- How a timestamp is shown. -/
inductive Style where
  | iso8601
  | iso8601Micros
  | rfc3339
  | unixMillis
  | custom (pattern : String)
  deriving DecidableEq, Repr, Inhabited

namespace Style

/-- Date and time in ISO 8601, with three decimals or six. -/
def isoPattern (micros : Bool) : String :=
  if micros then "%Y-%m-%dT%H:%M:%S%.6fZ" else "%Y-%m-%dT%H:%M:%S%.3fZ"

/-- The text in ISO 8601, with three decimals or six. -/
def iso (micros : Bool) (t : Instant) : String :=
  (format? (isoPattern micros) t .utc).getD ""

/-- The text of an instant. -/
def render (s : Style) (t : Instant) : String :=
  match s with
  | iso8601 => iso false t
  | iso8601Micros => iso true t
  | rfc3339 => t.rfc3339 "+00:00"
  | unixMillis => toString t.unixMillis
  | custom pattern => (format? pattern t .utc).getD (iso false t)

/-- Whether the text is a bare number. -/
def isNumeric : Style → Bool
  | unixMillis => true
  | _ => false

/-- The style with that keyword. -/
def ofKeyword? (s : String) : Option Style :=
  if s = "Iso8601" then some iso8601
  else if s = "Iso8601Micros" then some iso8601Micros
  else if s = "Rfc3339" then some rfc3339
  else if s = "UnixMillis" then some unixMillis
  else none

/-- The configured style: a keyword, or an object with the keyword as its only member and nothing
in it, or one with the pattern under `Custom`. -/
def ofTree? : Json.Tree → Option Style
  | .string (some s) => ofKeyword? s
  | .object [(some "Custom", .string (some pattern))] => some (custom pattern)
  | .object [(some s, .null)] => ofKeyword? s
  | _ => none

def toJson : Style → Json
  | iso8601 => .string "Iso8601"
  | iso8601Micros => .string "Iso8601Micros"
  | rfc3339 => .string "Rfc3339"
  | unixMillis => .string "UnixMillis"
  | custom pattern => .object [("Custom", .string pattern)]

end Style

end Logging.Time
