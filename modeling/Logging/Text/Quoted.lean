import Logging.Text.Category

/-!
# Quoted text

A text between double quotes in which every character is shown: quotes, backslashes and the usual
controls are escaped by a backslash, and a character that would not print on its own is written as
its code point.

* `quoted`: the quoted form of a text.
-/

namespace Logging.Text

/-- Characters that are shown by their code point: controls, formats, separators other than the
blank, private and unassigned code points, and marks that join the character before them. -/
def isHidden (c : Char) : Bool :=
  if c.toNat < 0x20 then true
  else if c.toNat < 0x7F then false
  else
    Category.graphemeExtend.contains c ||
    !([Category.letters, Category.marks, Category.numbers, Category.connectors, Category.dashes,
       Category.openings, Category.closings, Category.initialQuotes, Category.finalQuotes,
       Category.otherPunctuations, Category.mathSymbols, Category.currencySymbols,
       Category.modifierSymbols, Category.otherSymbols].any (·.contains c))

/-- The digits of a number in base sixteen. -/
def hexDigits (n : Nat) : List Char :=
  Nat.toDigits 16 n

/-- How one character is written between double quotes. -/
def quotedChar (c : Char) : List Char :=
  match c with
  | '"' => ['\\', '"']
  | '\\' => ['\\', '\\']
  | '\n' => ['\\', 'n']
  | '\r' => ['\\', 'r']
  | '\t' => ['\\', 't']
  | '\x00' => ['\\', '0']
  | c => if isHidden c then ['\\', 'u', '\x7b'] ++ hexDigits c.toNat ++ ['\x7d'] else [c]

/-- A text between double quotes, with every character shown. -/
def quoted (s : String) : String :=
  String.ofList ('"' :: s.toList.flatMap quotedChar ++ ['"'])

end Logging.Text
