import Logging.Text.Category

/-!
# Classes of characters

The classes that keys, patterns and file-name templates ask about. Each is decided by arithmetic
on ASCII and by the tables of general categories elsewhere.

* `isAlphanumeric`: alphabetic or numeric, the characters that a logfmt key keeps.
* `isWord`: what `\w` matches; `isDigit`: what `\d` matches; `isSpace`: what `\s` matches.
-/

namespace Logging.Text

/-- The ASCII letters. -/
def isAsciiLetter (c : Char) : Bool :=
  ('a' ≤ c ∧ c ≤ 'z') ∨ ('A' ≤ c ∧ c ≤ 'Z')

/-- The ASCII digits. -/
def isAsciiDigit (c : Char) : Bool :=
  '0' ≤ c ∧ c ≤ '9'

/-- The characters of the seven-bit code. -/
def isAscii (c : Char) : Bool :=
  c.toNat < 128

/-- Alphabetic code points and those with a numeric value. -/
def alphanumerics : Ranges :=
  Category.alphabetic ++ .unions [Category.decimalNumbers, Category.otherNumbers]

/-- Alphabetic code points, marks, decimal digits, connectors and the two joiners. -/
def wordCharacters : Ranges :=
  Category.alphabetic ++ .unions [Category.marks, Category.decimalNumbers, Category.connectors,
    .ofText "200C-200D"]

/-- Code points that count as white space. -/
def spaces : Ranges :=
  .ofText "9-D 20 85 A0 1680 2000-200A 2028-2029 202F 205F 3000"

/-- Letters and numbers of any script. -/
def isAlphanumeric (c : Char) : Bool :=
  if isAscii c then isAsciiLetter c || isAsciiDigit c else alphanumerics.contains c

/-- Letters of any script and what counts as one. -/
def isAlphabetic (c : Char) : Bool :=
  if isAscii c then isAsciiLetter c else Category.alphabetic.contains c

/-- Word characters of any script. -/
def isWord (c : Char) : Bool :=
  if isAscii c then isAsciiLetter c || isAsciiDigit c || c = '_' else wordCharacters.contains c

/-- Decimal digits of any script. -/
def isDigit (c : Char) : Bool :=
  if isAscii c then isAsciiDigit c else Category.decimalNumbers.contains c

/-- White space of any script. -/
def isSpace (c : Char) : Bool :=
  if isAscii c then c = ' ' || (9 ≤ c.toNat && c.toNat ≤ 13) else spaces.contains c

/-- Word characters of ASCII. -/
def isAsciiWord (c : Char) : Bool :=
  isAsciiLetter c || isAsciiDigit c || c = '_'

/-- Whether a text holds white space only. -/
def isBlank (s : String) : Bool :=
  s.toList.all isSpace

end Logging.Text
