import Logging.Line.Key
import Logging.Record
import Logging.Text.Letter
import Logging.Time.Style

/-!
# Lines of key-value pairs

`key=value` pairs parted by one blank. A value is quoted where it is empty or holds a blank, a quote
or an equals sign; inside quotes a backslash stands before quotes and backslashes.

* `plainKey`: the characters of a key that a pair keeps.
* `pairs`: the pairs of a record.
* `logfmtLine`: the line of a record, with its line feed.
-/

namespace Logging.Line

/-- The characters that keys keep. -/
def isKeyChar (c : Char) : Bool :=
  Text.isAlphanumeric c || c = '_' || c = '-' || c = '.'

/-- A key without the characters that would break a pair. -/
def plainKey (key : String) : String :=
  String.ofList (key.toList.filter isKeyChar)

/-- A character between quotes. -/
def quoteChar : Char → List Char
  | '\\' => ['\\', '\\']
  | '"' => ['\\', '"']
  | c => [c]

/-- A text between quotes. -/
def quote (s : String) : String :=
  String.ofList ('"' :: s.toList.flatMap quoteChar ++ ['"'])

/-- Whether a text can be mistaken for something else when it is not quoted. -/
def needsQuotes (s : String) : Bool :=
  s.isEmpty || s.toList.any fun c => c = ' ' || c = '"' || c = '='

/-- A text, quoted where needed. -/
def bareOrQuoted (s : String) : String :=
  if needsQuotes s then quote s else s

/-- The value of a field. -/
def pairValue : Value → String
  | .string s => bareOrQuoted s
  | v => v.text

/-- The pairs of a record: its own parts, then its fields. -/
def pairs (style : Time.Style) (r : Record) : List (String × String) :=
  (match r.timestamp with
    | some t => [("timestamp", bareOrQuoted (style.render t))]
    | none => []) ++
    [("level", r.level.name), ("message", quote r.message)] ++
    r.fields.entries.map fun e => (plainKey (outputKey e.1), pairValue e.2)

/-- A record as a line of pairs. -/
def logfmtLine (style : Time.Style) (r : Record) : String :=
  " ".intercalate ((pairs style r).map fun p => p.1 ++ "=" ++ p.2) ++ "\n"

end Logging.Line
