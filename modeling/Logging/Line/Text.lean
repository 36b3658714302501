import Logging.Record
import Logging.Text.Padding
import Logging.Time.Style

/-!
# Lines to read

`time [LEVEL] message key=value …`, with the level in a column of five characters.

* `textLine`: the line of a record, with its line feed.
-/

namespace Logging.Line

/-- The column that shows the level. -/
def levelLabel (colours : Bool) (l : Level) : String :=
  let label := Text.pad ⟨5, none, .left, ' '⟩ l.name
  if colours then "\x1b[" ++ toString l.colour.code ++ "m" ++ label ++ "\x1b[0m" else label

/-- A record as a line to read. -/
def textLine (style : Time.Style) (colours : Bool) (r : Record) : String :=
  let timestamp := match r.timestamp with
    | some t => style.render t ++ " "
    | none => ""
  let fields := if r.fields.isEmpty then "" else " " ++ r.fields.text
  timestamp ++ "[" ++ levelLabel colours r.level ++ "] " ++ r.message ++ fields ++ "\n"

end Logging.Line
