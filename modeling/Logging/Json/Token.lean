import Logging.Text.Ranges

/-!
# The lexemes of JSON text

* `Numeral`: a number as it is spelled.
* `Token`: a lexeme. A string whose escapes hold half of a surrogate pair has no text.
* `tokens?`: the lexemes of a text, if it splits into lexemes.
-/

namespace Logging.Json

/-- A spelled number: its sign, the digits in front of the point, those behind it, and the
exponent with its sign. -/
structure Numeral where
  negative : Bool
  whole : List Nat
  fraction : Option (List Nat)
  exponent : Option (Bool × List Nat)
  deriving DecidableEq, Repr

/-- A lexeme. -/
inductive Token where
  | openObject | closeObject | openArray | closeArray | colon | comma
  | string (text : Option String)
  | number (n : Numeral)
  | true | false | null
  deriving DecidableEq, Repr

/-- One element of a string: a character, or a unit of sixteen bits given by an escape. -/
inductive Piece where
  | char (c : Char)
  | unit (n : Nat)

/-- The first halves of surrogate pairs. -/
def isHighHalf (n : Nat) : Bool := 0xD800 ≤ n ∧ n ≤ 0xDBFF

/-- The second halves of surrogate pairs. -/
def isLowHalf (n : Nat) : Bool := 0xDC00 ≤ n ∧ n ≤ 0xDFFF

/-- Joins surrogate pairs; fails on a half that stands alone. -/
def decodePieces? : List Piece → Option (List Char)
  | [] => some []
  | .char c :: rest => (decodePieces? rest).map (c :: ·)
  | .unit hi :: .unit lo :: rest =>
    if isHighHalf hi then
      if isLowHalf lo then
        (decodePieces? rest).map (Char.ofNat (0x10000 + (hi - 0xD800) * 0x400 + (lo - 0xDC00)) :: ·)
      else none
    else if isLowHalf hi then none
    else (decodePieces? (.unit lo :: rest)).map (Char.ofNat hi :: ·)
  | .unit n :: rest =>
    if isHighHalf n || isLowHalf n then none
    else (decodePieces? rest).map (Char.ofNat n :: ·)

/-- The character that a one-letter escape stands for. -/
def simpleEscape? (c : Char) : Option Char :=
  match c with
  | '"' => some '"'
  | '\\' => some '\\'
  | '/' => some '/'
  | 'b' => some '\x08'
  | 'f' => some '\x0c'
  | 'n' => some '\n'
  | 'r' => some '\r'
  | 't' => some '\t'
  | _ => none

/-- What the lexer is in the middle of. The gathered parts are kept last first. -/
inductive Mode where
  | between
  | inString (done : List Piece)
  | inEscape (done : List Piece)
  | inUnit (done : List Piece) (digits value : Nat)
  | inNumber (done : List Char)
  | inWord (done : List Char)

/-- The characters of numbers. -/
def isNumberChar (c : Char) : Bool :=
  ('0' ≤ c ∧ c ≤ '9') ∨ c = '-' ∨ c = '+' ∨ c = '.' ∨ c = 'e' ∨ c = 'E'

/-- The white space of JSON. -/
def isBlankChar (c : Char) : Bool :=
  c = ' ' ∨ c = '\n' ∨ c = '\t' ∨ c = '\r'

/-- The decimal digits at the front, and what follows them. -/
def takeDigits (cs : List Char) : List Nat × List Char :=
  ((cs.takeWhile (fun c => '0' ≤ c ∧ c ≤ '9')).map (fun c => c.toNat - 48),
    cs.dropWhile (fun c => '0' ≤ c ∧ c ≤ '9'))

/-- Reads the exponent of a number, if the text ends with it. -/
def exponent? : List Char → Option (Option (Bool × List Nat))
  | [] => some none
  | c :: rest =>
    if c = 'e' ∨ c = 'E' then
      let (negative, rest) := match rest with
        | '-' :: r => (Bool.true, r)
        | '+' :: r => (Bool.false, r)
        | r => (Bool.false, r)
      match takeDigits rest with
      | ([], _) => none
      | (ds, []) => some (some (negative, ds))
      | (_, _ :: _) => none
    else none

/-- The number that a text spells: no leading zeros, and digits on both sides of a point. -/
def numeral? (cs : List Char) : Option Numeral :=
  let (negative, cs) := match cs with
    | '-' :: r => (Bool.true, r)
    | r => (Bool.false, r)
  let (whole, rest) := takeDigits cs
  if whole = [] ∨ (whole.head? = some 0 ∧ whole ≠ [0]) then none
  else
    match rest with
    | '.' :: r =>
      match takeDigits r with
      | ([], _) => none
      | (fraction, r) => (exponent? r).map (⟨negative, whole, some fraction, ·⟩)
    | r => (exponent? r).map (⟨negative, whole, none, ·⟩)

/-- The token that a word is. -/
def word? (cs : List Char) : Option Token :=
  if cs = "true".toList then some .true
  else if cs = "false".toList then some .false
  else if cs = "null".toList then some .null
  else none

/-- Begins a token outside any other. -/
def Mode.start (c : Char) : Option (List Token × Mode) :=
  match c with
  | '\x7b' => some ([.openObject], .between)
  | '\x7d' => some ([.closeObject], .between)
  | '[' => some ([.openArray], .between)
  | ']' => some ([.closeArray], .between)
  | ':' => some ([.colon], .between)
  | ',' => some ([.comma], .between)
  | '"' => some ([], .inString [])
  | c =>
    if isBlankChar c then some ([], .between)
    else if isNumberChar c then some ([], .inNumber [c])
    else if 'a' ≤ c ∧ c ≤ 'z' then some ([], .inWord [c])
    else none

/-- Reads one character: the tokens that it completes and what the lexer is in afterwards. -/
def Mode.step (m : Mode) (c : Char) : Option (List Token × Mode) :=
  match m with
  | .between => Mode.start c
  | .inString done =>
    if c = '"' then
      some ([.string ((decodePieces? done.reverse).map String.ofList)], .between)
    else if c = '\\' then some ([], .inEscape done)
    else if c.toNat < 0x20 then none
    else some ([], .inString (.char c :: done))
  | .inEscape done =>
    if c = 'u' then some ([], .inUnit done 0 0)
    else (simpleEscape? c).map fun e => ([], .inString (.char e :: done))
  | .inUnit done digits value =>
    match Text.Ranges.hexDigit? c with
    | none => none
    | some d =>
      if digits = 3 then some ([], .inString (.unit (16 * value + d) :: done))
      else some ([], .inUnit done (digits + 1) (16 * value + d))
  | .inNumber done =>
    if isNumberChar c then some ([], .inNumber (c :: done))
    else do
      let n ← numeral? done.reverse
      let (ts, m) ← Mode.start c
      some (.number n :: ts, m)
  | .inWord done =>
    if 'a' ≤ c ∧ c ≤ 'z' then some ([], .inWord (c :: done))
    else do
      let t ← word? done.reverse
      let (ts, m) ← Mode.start c
      some (t :: ts, m)

/-- Ends the text: the token that it completes, if it may end here. -/
def Mode.finish : Mode → Option (List Token)
  | .between => some []
  | .inNumber done => (numeral? done.reverse).map fun n => [.number n]
  | .inWord done => (word? done.reverse).map fun t => [t]
  | _ => none

/-- The tokens of a text that is read from within a mode. -/
def Mode.tokens? : Mode → List Char → Option (List Token)
  | m, [] => m.finish
  | m, c :: rest => do
    let (ts, m') ← m.step c
    let more ← m'.tokens? rest
    some (ts ++ more)

/-- The tokens of a text. -/
def tokens? (text : String) : Option (List Token) :=
  Mode.between.tokens? text.toList

end Logging.Json
