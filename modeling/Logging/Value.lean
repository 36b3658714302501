import Logging.Json.Tree
import Logging.Text.Quoted

/-!
# Field values

* `Value`: what a field may hold.
* `Value.text`: the value as it stands in text and logfmt lines.
* `Value.toJson`, `Value.ofTree?`: the value in JSON.
-/

namespace Logging

open Number

/-- The value of a field. Whole numbers have 64 bits with sign. -/
inductive Value where
  | string (s : String)
  | int (n : Int64)
  | float (d : Double)
  | bool (b : Bool)
  | null
  deriving DecidableEq, Repr, Inhabited

namespace Value

/-- The value as text. -/
def text : Value → String
  | string s => s
  | int n => toString n.toInt
  | float d => d.text .plain
  | bool true => "true"
  | bool false => "false"
  | null => "null"

/-- The value as it is shown with its kind. -/
def shown : Value → String
  | string s => "String(" ++ Text.quoted s ++ ")"
  | int n => "Int(" ++ toString n.toInt ++ ")"
  | float d => "Float(" ++ d.text .shown ++ ")"
  | bool b => "Bool(" ++ (if b then "true" else "false") ++ ")"
  | null => "Null"

/-- The value in JSON. -/
def toJson : Value → Json
  | string s => .string s
  | int n => .int n.toInt
  | float d => if d.isFinite then .float d else .null
  | bool b => .bool b
  | null => .null

/-- The text, if the value is one. -/
def string? : Value → Option String
  | string s => some s
  | _ => none

/-- Equality of values. Floats are compared as numbers, so not-a-number equals nothing. -/
def same : Value → Value → Bool
  | string a, string b => a = b
  | int a, int b => a = b
  | float a, float b => a.sameNumber b
  | bool a, bool b => a = b
  | null, null => true
  | _, _ => false

/-- The value that JSON text stands for, if it is a string, a number, a truth value or null. A whole
number out of the range of 64 bits with sign is a float. -/
def ofJson? : Json → Option Value
  | .string s => some (string s)
  | .int n =>
    if Int64.minValue.toInt ≤ n ∧ n ≤ Int64.maxValue.toInt then some (int (Int64.ofInt n))
    else some (float (Double.ofNat n.toNat))
  | .float d => some (float d)
  | .bool b => some (bool b)
  | .null => some null
  | _ => none

/-- The value of a JSON tree. -/
def ofTree? (t : Json.Tree) : Option Value :=
  (t.value? Json.nestingLimit).bind ofJson?

end Value

end Logging
