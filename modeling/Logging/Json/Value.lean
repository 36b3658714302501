import Logging.Number.Double
import Logging.Text.Ranges

/-!
# JSON values and their compact text

* `Json`: a value; an object is the list of its members in the order they are written.
* `Json.render`: the text without blanks. In strings the quote, the backslash and the controls are
  escaped, and every other character stands for itself.
* `Json.putSorted`: sets a member of an object whose members are sorted by name.
-/

namespace Logging

open Number

/-- A JSON value. Numbers without point and exponent are kept as integers. -/
inductive Json where
  | null
  | bool (b : Bool)
  | int (n : Int)
  | float (d : Double)
  | string (s : String)
  | array (items : List Json)
  | object (members : List (String × Json))
  deriving Inhabited

namespace Json

/-- The hexadecimal digit of a number below sixteen. -/
def hexDigit (n : Nat) : Char :=
  if n < 10 then Char.ofNat (48 + n) else Char.ofNat (87 + n)

/-- How a character is written inside a string. -/
def escapeChar (c : Char) : List Char :=
  match c with
  | '"' => ['\\', '"']
  | '\\' => ['\\', '\\']
  | '\n' => ['\\', 'n']
  | '\r' => ['\\', 'r']
  | '\t' => ['\\', 't']
  | '\x08' => ['\\', 'b']
  | '\x0c' => ['\\', 'f']
  | c =>
    if c.toNat < 0x20 then
      ['\\', 'u', '0', '0', hexDigit (c.toNat / 16), hexDigit (c.toNat % 16)]
    else [c]

/-- A string with its quotes. -/
def renderString (s : String) : List Char :=
  '"' :: s.toList.flatMap escapeChar ++ ['"']

/-- A number; what is not finite has no text of its own and is written as null. -/
def renderDouble (d : Double) : List Char :=
  (if d.isFinite then d.text .json else "null").toList

mutual

/-- The characters of a value. -/
def chars : Json → List Char
  | null => "null".toList
  | bool true => "true".toList
  | bool false => "false".toList
  | int n => (toString n).toList
  | float d => renderDouble d
  | string s => renderString s
  | array items => '[' :: charsItems items ++ [']']
  | object members => '\x7b' :: charsMembers members ++ ['\x7d']

/-- The items of an array, parted by commas. -/
def charsItems : List Json → List Char
  | [] => []
  | [v] => chars v
  | v :: rest => chars v ++ ',' :: charsItems rest

/-- The members of an object, parted by commas. -/
def charsMembers : List (String × Json) → List Char
  | [] => []
  | [(k, v)] => renderString k ++ ':' :: chars v
  | (k, v) :: rest => renderString k ++ ':' :: chars v ++ ',' :: charsMembers rest

end

/-- The compact text of a value. -/
def render (v : Json) : String :=
  String.ofList v.chars

/-- Sets a member in a list that is sorted by name, replacing the member of that name. -/
def putSorted (k : String) (v : Json) : List (String × Json) → List (String × Json)
  | [] => [(k, v)]
  | (k', v') :: rest =>
    if k = k' then (k, v) :: rest
    else if k < k' then (k, v) :: (k', v') :: rest
    else (k', v') :: putSorted k v rest

end Json

end Logging
