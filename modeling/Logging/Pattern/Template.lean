import Logging.Pattern.Match

/-!
# Templates of replacements

A template is text with references to groups: `$1`, `$name` or the same between braces. A name
without braces is as long as possible. Two dollar signs stand for one, and a dollar sign that begins
no reference stands for itself.

* `Part`, `Template.parse`: the parts of a template.
* `Template.fill`: the text of a template for a match.
-/

namespace Logging.Pattern.Template

/-- A part of a template. -/
inductive Part where
  | char (c : Char)
  | number (n : Nat)
  | name (s : String)
  deriving DecidableEq, Repr

/-- The characters of names without braces. -/
def isNameChar (c : Char) : Bool :=
  Text.isAsciiLetter c || Text.isAsciiDigit c || c = '_'

/-- The number that a name spells, perhaps with a plus sign, if it fits into 64 bits. -/
def numberOf? (name : List Char) : Option Nat :=
  let ds := match name with
    | '+' :: r => r
    | r => r
  if ds.isEmpty || !ds.all Text.isAsciiDigit then none
  else
    let n := ds.foldl (fun n c => 10 * n + (c.toNat - 48)) 0
    if n < UInt64.size then some n else none

/-- What a name refers to. -/
def reference (name : List Char) : Part :=
  match numberOf? name with
  | some n => .number n
  | none => .name (String.ofList name)

/-- The first part of a template that begins with a dollar sign, given what follows the sign, and
how many characters it takes of that. -/
def dollar (r : List Char) : Part × Nat :=
  match r with
  | '$' :: _ => (.char '$', 1)
  | '\x7b' :: r =>
    let name := r.takeWhile (· ≠ '\x7d')
    if name.length < r.length then (reference name, name.length + 2) else (.char '$', 0)
  | r =>
    let name := r.takeWhile isNameChar
    if name.isEmpty then (.char '$', 0) else (reference name, name.length)

/-- The parts of a template, skipping the characters that a part before has taken. -/
def parts : (skip : Nat) → List Char → List Part
  | _, [] => []
  | n + 1, _ :: r => parts n r
  | 0, c :: r =>
    if c = '$' then
      let (p, taken) := dollar r
      p :: parts taken r
    else .char c :: parts 0 r

/-- The parts of a template. -/
def parse (template : String) : List Part := parts 0 template.toList

end Template

/-- The text of a group in a match that begins at a start. Group zero is the whole match. A group
that took no part has no text. -/
def groupText (text : List Char) (start finish : Spot) (group : Nat) : List Char :=
  if group = 0 then (text.drop start.index).take (finish.index - start.index)
  else
    match finish.groups.find? fun g => g.1 = group with
    | some (_, a, b) => (text.drop a).take (b - a)
    | none => []

/-- The text of a template for a match. A name that no group has stands for nothing. -/
def Template.fill (names : List (String × Nat)) (text : List Char) (start finish : Spot)
    (template : List Template.Part) : List Char :=
  template.flatMap fun
    | .char c => [c]
    | .number n => groupText text start finish n
    | .name s =>
      match names.find? fun e => e.1 = s with
      | some (_, n) => groupText text start finish n
      | none => []

end Logging.Pattern
