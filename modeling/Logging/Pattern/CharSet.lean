import Logging.Text.Case
import Logging.Text.Letter

/-!
# Sets of characters in patterns

* `CharSet`: a set as it is written, by ranges, classes and operations.
* `CharSet.contains`: membership.
-/

namespace Logging.Pattern

/-- A set of characters. -/
inductive CharSet where
  /-- No character. -/
  | empty
  /-- The characters from one to another, both included. -/
  | range (first last : Char)
  | digit
  | space
  | word
  /-- The characters of a table. -/
  | table (ranges : Text.Ranges)
  | union (a b : CharSet)
  | inter (a b : CharSet)
  | compl (a : CharSet)
  /-- What equals a character of the set up to case. -/
  | anyCase (a : CharSet)
  /-- What equals a character of the set up to the case of ASCII letters. -/
  | anyAsciiCase (a : CharSet)
  deriving Repr, Inhabited

namespace CharSet

/-- Membership. -/
def contains : CharSet → Char → Bool
  | empty, _ => false
  | range first last, c => first ≤ c && c ≤ last
  | digit, c => Text.isDigit c
  | space, c => Text.isSpace c
  | word, c => Text.isWord c
  | table ranges, c => ranges.contains c
  | union a b, c => a.contains c || b.contains c
  | inter a b, c => a.contains c && b.contains c
  | compl a, c => !a.contains c
  | anyCase a, c => a.contains c || (Text.otherCases c).any a.contains
  | anyAsciiCase a, c => a.contains c || (Text.otherAsciiCases c).any a.contains

/-- One character. -/
def single (c : Char) : CharSet := range c c

/-- Every character. -/
def all : CharSet := compl empty

/-- The characters of a list. -/
def ofList : List Char → CharSet
  | [] => empty
  | c :: rest => union (single c) (ofList rest)

/-- The first set without the second. -/
def diff (a b : CharSet) : CharSet := inter a (compl b)

/-- The characters of exactly one of the sets. -/
def symmDiff (a b : CharSet) : CharSet := union (diff a b) (diff b a)

/-- The ASCII classes by name. -/
def asciiClass? (name : String) : Option CharSet :=
  let digits := range '0' '9'
  let lower := range 'a' 'z'
  let upper := range 'A' 'Z'
  match name with
  | "alnum" => some (union digits (union lower upper))
  | "alpha" => some (union lower upper)
  | "ascii" => some (range '\x00' '\x7f')
  | "blank" => some (ofList ['\t', ' '])
  | "cntrl" => some (union (range '\x00' '\x1f') (single '\x7f'))
  | "digit" => some digits
  | "graph" => some (range '!' '~')
  | "lower" => some lower
  | "print" => some (range ' ' '~')
  | "punct" =>
    some (union (union (range '!' '/') (range ':' '@'))
      (union (range '[' '\x60') (range '\x7b' '~')))
  | "space" => some (union (range '\t' '\r') (single ' '))
  | "upper" => some upper
  | "word" => some (union digits (union (union lower upper) (single '_')))
  | "xdigit" => some (union digits (union (range 'a' 'f') (range 'A' 'F')))
  | _ => none

/-- The letters, digits and the underscore of ASCII. -/
def asciiWord : CharSet :=
  union (range '0' '9') (union (union (range 'a' 'z') (range 'A' 'Z')) (single '_'))

/-- The white space of ASCII. -/
def asciiSpace : CharSet := union (range '\t' '\r') (single ' ')

end CharSet

end Logging.Pattern
