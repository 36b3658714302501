import Logging.Line.Json
import Logging.Line.Logfmt
import Logging.Line.Text

/-!
# Line formats

* `Format`: the three kinds of lines with their choices.
* `Format.line`, `Format.bytes`: the line of a record and its bytes.
-/

namespace Logging.Line

/-- How records become lines. -/
inductive Format where
  | text (style : Time.Style) (colours : Bool)
  | json (style : Time.Style)
  | logfmt (style : Time.Style)
  deriving DecidableEq, Repr

namespace Format

/-- The format of a logger that sets none. -/
def default : Format := text .iso8601 false

/-- The line of a record. -/
def line : Format → Record → String
  | text style colours => textLine style colours
  | json style => jsonLine style
  | logfmt style => logfmtLine style

/-- The bytes of a record's line. -/
def bytes (f : Format) (r : Record) : ByteArray :=
  (f.line r).toUTF8

end Format

end Logging.Line
