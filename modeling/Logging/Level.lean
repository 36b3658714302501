import Logging.Text.Case
import Logging.Text.Padding
import Logging.Json.Tree

/-!
# Levels of severity

* `Level`: the six levels, ordered from `trace` to `fatal`.
* `Level.parse?`: reads a level's name in any case.
* `Level.ofTree?`, `Level.toJson`: the form that configurations use.
-/

namespace Logging

/-- How severe a record is. -/
inductive Level where
  | trace | debug | info | warn | error | fatal
  deriving DecidableEq, Repr, Inhabited

/-- The colours that levels are shown in. -/
inductive Colour where
  | brightBlack | blue | green | yellow | red | brightRed
  deriving DecidableEq, Repr

/-- The parameter of the terminal's colour command. -/
def Colour.code : Colour → Nat
  | brightBlack => 90
  | blue => 34
  | green => 32
  | yellow => 33
  | red => 31
  | brightRed => 91

/-- The colour's name. -/
def Colour.name : Colour → String
  | brightBlack => "BrightBlack"
  | blue => "Blue"
  | green => "Green"
  | yellow => "Yellow"
  | red => "Red"
  | brightRed => "BrightRed"

namespace Level

/-- Every level, the lowest first. -/
def all : List Level := [trace, debug, info, warn, error, fatal]

/-- The place of a level in the order of severity. -/
def rank : Level → Nat
  | trace => 0
  | debug => 1
  | info => 2
  | warn => 3
  | error => 4
  | fatal => 5

instance : LE Level := ⟨fun a b => a.rank ≤ b.rank⟩

instance : LT Level := ⟨fun a b => a.rank < b.rank⟩

instance (a b : Level) : Decidable (a ≤ b) := inferInstanceAs (Decidable (a.rank ≤ b.rank))

instance (a b : Level) : Decidable (a < b) := inferInstanceAs (Decidable (a.rank < b.rank))

/-- The level of a logger that sets none. -/
def default : Level := info

/-- The level's name in a log line. -/
def name : Level → String
  | trace => "TRACE"
  | debug => "DEBUG"
  | info => "INFO"
  | warn => "WARN"
  | error => "ERROR"
  | fatal => "FATAL"

/-- The level's name in capitalized form. -/
def title : Level → String
  | trace => "Trace"
  | debug => "Debug"
  | info => "Info"
  | warn => "Warn"
  | error => "Error"
  | fatal => "Fatal"

/-- The level's name in a configuration. -/
def keyword : Level → String
  | trace => "trace"
  | debug => "debug"
  | info => "info"
  | warn => "warn"
  | error => "error"
  | fatal => "fatal"

/-- The colour that the level is shown in. -/
def colour : Level → Colour
  | trace => .brightBlack
  | debug => .blue
  | info => .green
  | warn => .yellow
  | error => .red
  | fatal => .brightRed

/-- The level whose name has these capitals. `WARN` may be written out. -/
def ofCapitals? (cs : List Char) : Option Level :=
  if cs = "WARNING".toList then some warn
  else all.find? fun l => cs = l.name.toList

/-- The level that a text names, in any case. -/
def parse? (s : String) : Option Level :=
  ofCapitals? (s.toList.flatMap Text.upperAscii)

/-- What is said of a text that names no level. -/
def unknownMessage (s : String) : String :=
  "invalid log level: '" ++ s ++ "'"

/-- The level with that keyword. -/
def ofKeyword? (s : String) : Option Level :=
  all.find? fun l => s = l.keyword

/-- The configured level: its keyword, or an object with the keyword as its only member and nothing
in it. -/
def ofTree? : Json.Tree → Option Level
  | .string (some s) => ofKeyword? s
  | .object [(some s, .null)] => ofKeyword? s
  | _ => none

def toJson (l : Level) : Json := .string l.keyword

end Level

end Logging
