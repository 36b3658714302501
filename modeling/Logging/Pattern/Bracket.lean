import Logging.Pattern.Expr
import Logging.Text.Property

/-!
# Escapes and bracketed sets

The parts of a pattern that denote one character, a set of characters or a place.

* `Flags`: the options that are in force where a part stands.
* `escape?`: what follows a backslash.
* `bracket?`: a set between brackets, with ranges, nested sets and set operations.
-/

namespace Logging.Pattern

/-- The options of a pattern. -/
structure Flags where
  ignoreCase : Bool := false
  multiLine : Bool := false
  dotAll : Bool := false
  swapGreed : Bool := false
  unicode : Bool := true
  anyLineEnd : Bool := false
  /-- Whether blanks and comments are passed over. -/
  spaced : Bool := false
  deriving Repr, Inhabited

/-- Passes over blanks, and over comments, which end with their line. -/
def skipBlanks : (inComment : Bool) → List Char → List Char
  | _, [] => []
  | true, c :: r => skipBlanks (c != '\n') r
  | false, c :: r =>
    if Text.isSpace c then skipBlanks false r
    else if c = '#' then skipBlanks true r
    else c :: r

/-- Passes over what does not count. -/
def Flags.skip (f : Flags) (cs : List Char) : List Char :=
  if f.spaced then skipBlanks false cs else cs

/-- A part that denotes one character, a set or a place. A character that is given by two
hexadecimal digits may stand for a byte. -/
inductive Primitive where
  | char (c : Char) (fromByte : Bool)
  | set (s : CharSet)
  | look (l : Look)

/-- The characters up to a closing one, and what follows it. -/
def takeTo (f : Flags) (stop : Char) : Nat → List Char → Option (List Char × List Char)
  | 0, _ => none
  | fuel + 1, cs =>
    match f.skip cs with
    | [] => none
    | c :: r =>
      if c = stop then some ([], r)
      else (takeTo f stop fuel r).map fun (taken, rest) => (c :: taken, rest)

/-- A hexadecimal number of so many digits. -/
def hexDigits? (f : Flags) : (count value : Nat) → List Char → Option (Nat × List Char)
  | 0, n, cs => some (n, cs)
  | _ + 1, _, [] => none
  | count + 1, n, c :: r =>
    (Text.Ranges.hexDigit? c).bind fun d => hexDigits? f count (16 * n + d) (f.skip r)

/-- The number that hexadecimal digits spell. -/
def hexValue? : List Char → Option Nat
  | [] => none
  | cs => cs.foldlM (fun n c => (Text.Ranges.hexDigit? c).map (16 * n + ·)) 0

/-- The character with that code point. -/
def charOf? (n : Nat) : Option Char :=
  if n.isValidChar then some (Char.ofNat n) else none

/-- A character by its code point, after the letter that says how many digits follow. -/
def hexEscape? (f : Flags) (digits : Nat) (cs : List Char) : Option (Primitive × List Char) := do
  match f.skip cs with
  | '\x7b' :: r =>
    let (name, rest) ← takeTo f '\x7d' (r.length + 1) r
    let c ← (hexValue? name).bind charOf?
    some (.char c false, rest)
  | cs =>
    let (n, rest) ← hexDigits? f digits 0 cs
    let c ← charOf? n
    some (.char c (digits = 2), rest)

/-- Splits a list at the first place where another list stands. -/
def splitAt? (mark : List Char) : List Char → Option (List Char × List Char)
  | [] => none
  | c :: r =>
    if mark.isPrefixOf (c :: r) then some ([], (c :: r).drop mark.length)
    else (splitAt? mark r).map fun (a, b) => (c :: a, b)

/-- A set, closed under case where the flags say so, and its complement where asked for. -/
def CharSet.finished (f : Flags) (negated : Bool) (s : CharSet) : CharSet :=
  let s := if f.ignoreCase then (if f.unicode then .anyCase s else .anyAsciiCase s) else s
  if negated then .compl s else s

/-- The set of a property that is named between braces. -/
def namedProperty? (name : List Char) : Option (Text.PropertySet × Bool) :=
  match splitAt? ['!', '='] name with
  | some (k, v) =>
    (Text.propertyValue? (String.ofList k) (String.ofList v)).map fun s => (s, true)
  | none =>
    match (splitAt? [':'] name).or (splitAt? ['='] name) with
    | some (k, v) =>
      (Text.propertyValue? (String.ofList k) (String.ofList v)).map fun s => (s, false)
    | none => (Text.property? (String.ofList name)).map fun s => (s, false)

/-- A property of Unicode, after its letter. -/
def property? (f : Flags) (negated : Bool) (cs : List Char) : Option (Primitive × List Char) := do
  if !f.unicode then none
  let (p, unequal, rest) ← match f.skip cs with
    | '\x7b' :: r => do
      let (name, rest) ← takeTo f '\x7d' (r.length + 1) r
      let (p, unequal) ← namedProperty? name
      some (p, unequal, rest)
    | c :: r =>
      if c = '\\' then none
      else (Text.property? (String.singleton c)).map fun p => (p, false, r)
    | [] => none
  let s := CharSet.table p.ranges
  some (.set (CharSet.finished f (negated != unequal) (if p.negated then .compl s else s)), rest)

/-- A class that is named by one letter. Without Unicode it holds ASCII only, and its complement is
refused. -/
def letterClass? (f : Flags) (negated : Bool) (wide ascii : CharSet) : Option Primitive :=
  if f.unicode then some (.set (if negated then .compl wide else wide))
  else if negated then none
  else some (.set ascii)

/-- The characters that stand for themselves behind a backslash. -/
def isPlainEscape (c : Char) : Bool :=
  Text.isAscii c && !(Text.isAsciiLetter c || Text.isAsciiDigit c || c = '<' || c = '>')

/-- The name of a special word boundary between braces, and what follows it. A brace that does not
hold a name is left for a repetition. -/
def boundaryName? (f : Flags) (cs : List Char) : Option (Option (String × List Char)) :=
  let isNameChar (c : Char) := Text.isAsciiLetter c || c = '-'
  match cs with
  | '\x7b' :: r =>
    match f.skip r with
    | [] => none
    | c :: _ =>
      if isNameChar c then
        match takeTo f '\x7d' (r.length + 1) r with
        | some (name, rest) =>
          if name.all isNameChar then some (some (String.ofList name, rest)) else none
        | none => none
      else some none
  | _ => some none

/-- A word boundary, after its letter. -/
def boundary? (f : Flags) (cs : List Char) : Option (Primitive × List Char) := do
  let ascii := !f.unicode
  match ← boundaryName? f cs with
  | none => some (.look (.wordBoundary ascii), cs)
  | some ("start", r) => some (.look (.wordStart ascii), r)
  | some ("end", r) => some (.look (.wordEnd ascii), r)
  | some ("start-half", r) => some (.look (.wordStartHalf ascii), r)
  | some ("end-half", r) => some (.look (.wordEndHalf ascii), r)
  | some _ => none

/-- What follows a backslash. -/
def escape? (f : Flags) : List Char → Option (Primitive × List Char)
  | [] => none
  | c :: r =>
    let ascii := !f.unicode
    let char (c : Char) := some (Primitive.char c false, r)
    let look (l : Look) := some (Primitive.look l, r)
    let letter (negated : Bool) (wide narrow : CharSet) :=
      (letterClass? f negated wide narrow).map (·, r)
    match c with
    | 'x' => hexEscape? f 2 r
    | 'u' => hexEscape? f 4 r
    | 'U' => hexEscape? f 8 r
    | 'p' => property? f false r
    | 'P' => property? f true r
    | 'd' => letter false .digit (.range '0' '9')
    | 'D' => letter true .digit (.range '0' '9')
    | 's' => letter false .space .asciiSpace
    | 'S' => letter true .space .asciiSpace
    | 'w' => letter false .word .asciiWord
    | 'W' => letter true .word .asciiWord
    | 'a' => char '\x07'
    | 'f' => char '\x0c'
    | 't' => char '\t'
    | 'n' => char '\n'
    | 'r' => char '\r'
    | 'v' => char '\x0b'
    | 'A' => look .textStart
    | 'z' => look .textEnd
    | 'b' => boundary? f r
    | 'B' => look (.noWordBoundary ascii)
    | '<' => look (.wordStart ascii)
    | '>' => look (.wordEnd ascii)
    | c => if isPlainEscape c then char c else none

/-- The operations between the parts of a bracketed set. -/
inductive SetOp where
  | inter | diff | symmDiff

def SetOp.apply : SetOp → CharSet → CharSet → CharSet
  | inter => .inter
  | diff => .diff
  | symmDiff => .symmDiff

/-- A bracketed set that is still open: whether it is negated, the operation that waits for its
right side, and the items since. The heights count how deeply sets nest. -/
structure OpenSet where
  negated : Bool
  left : Option (SetOp × CharSet × Nat)
  items : CharSet
  count : Nat
  height : Nat

namespace OpenSet

/-- Adds an item. -/
def add (o : OpenSet) (s : CharSet) (height : Nat) : OpenSet :=
  { o with
    items := if o.count = 0 then s else .union o.items s
    count := o.count + 1
    height := max o.height height }

/-- Everything since the bracket, with its height. -/
def value (f : Flags) (o : OpenSet) : CharSet × Nat :=
  let height := if 2 ≤ o.count then o.height + 1 else o.height
  match o.left with
  | none => (o.items, height)
  | some (op, l, h) =>
    (op.apply (l.finished f false) (o.items.finished f false), max h height + 1)

/-- Takes what came so far as the left side of an operation. -/
def operate (f : Flags) (op : SetOp) (o : OpenSet) : OpenSet :=
  let (s, h) := o.value f
  { o with left := some (op, s, h), items := .empty, count := 0, height := 0 }

/-- The finished set with its height. Without Unicode a complement is refused. -/
def close? (f : Flags) (o : OpenSet) : Option (CharSet × Nat) :=
  let (s, h) := o.value f
  if o.negated && !f.unicode then none else some (s.finished f o.negated, h + 1)

end OpenSet

/-- Dashes in front of a set are items of their own. -/
def leadingDashes (f : Flags) : Nat → OpenSet → List Char → OpenSet × List Char
  | fuel + 1, o, '-' :: r => leadingDashes f fuel (o.add (.single '-') 0) (f.skip r)
  | _, o, cs => (o, cs)

/-- Opens a set, after its bracket. A bracket that closes nothing is an item. -/
def openSet (f : Flags) (cs : List Char) : OpenSet × List Char :=
  let (negated, cs) := match f.skip cs with
    | '^' :: r => (true, f.skip r)
    | cs => (false, cs)
  match leadingDashes f cs.length ⟨negated, none, .empty, 0, 0⟩ cs with
  | (o, ']' :: r) => if o.count = 0 then (o.add (.single ']') 0, f.skip r) else (o, ']' :: r)
  | (o, cs) => (o, cs)

/-- A class by its name between colons, after the bracket. -/
def asciiItem? (f : Flags) (cs : List Char) : Option (Option CharSet × List Char) := do
  let ':' :: r := cs | none
  let (negated, r) := match r with
    | '^' :: r => (true, r)
    | r => (false, r)
  let name := r.takeWhile (· ≠ ':')
  let ':' :: ']' :: rest := r.dropWhile (· ≠ ':') | none
  let s ← CharSet.asciiClass? (String.ofList name)
  some (if negated && !f.unicode then none else some (s.finished f negated), rest)

/-- One character, set or place in a bracketed set. -/
def bracketItem? (f : Flags) : List Char → Option (Primitive × List Char)
  | [] => none
  | '\\' :: r => escape? f r
  | c :: r => some (.char c false, r)

/-- The character that ends a range. -/
def Primitive.end? (f : Flags) : Primitive → Option Char
  | .char c fromByte =>
    if f.unicode || (Text.isAscii c && !(fromByte && 0x7F < c.toNat)) then some c else none
  | _ => none

/-- A part as an item of a set. -/
def Primitive.item? (f : Flags) : Primitive → Option CharSet
  | .set s => some s
  | .look _ => none
  | p => (p.end? f).map .single

/-- The character behind the next one, passing over what does not count. -/
def peekBehind (f : Flags) (cs : List Char) : Option Char :=
  if f.spaced then
    match (cs.drop 1).dropWhile Text.isSpace with
    | '#' :: r => (r.dropWhile Text.isSpace).head?
    | r => r.head?
  else (cs.drop 1).head?

/-- An item or a range. -/
def range? (f : Flags) (cs : List Char) : Option (CharSet × List Char) := do
  let (p, r) ← bracketItem? f cs
  let r := f.skip r
  let next ← r.head?
  let behind := peekBehind f r
  if next ≠ '-' || behind = some ']' || behind = some '-' then
    some (← p.item? f, r)
  else
    let (q, rest) ← bracketItem? f (f.skip (r.drop 1))
    let first ← p.end? f
    let last ← q.end? f
    if first ≤ last then some (.range first last, rest) else none

/-- Reads on in a bracketed set within others, the innermost first, and gives the outermost with
its height when it is closed. -/
def readSet? (f : Flags) :
    Nat → OpenSet → List OpenSet → List Char → Option (CharSet × Nat × List Char)
  | 0, _, _, _ => none
  | fuel + 1, o, outer, cs =>
    match f.skip cs with
    | [] => none
    | '[' :: r =>
      match asciiItem? f r with
      | some (s, rest) => do readSet? f fuel (o.add (← s) 0) outer rest
      | none =>
        let (inner, rest) := openSet f r
        readSet? f fuel inner (o :: outer) rest
    | ']' :: r => do
      let (s, h) ← o.close? f
      match outer with
      | [] => some (s, h, r)
      | p :: outer => readSet? f fuel (p.add s h) outer r
    | '&' :: '&' :: r => readSet? f fuel (o.operate f .inter) outer r
    | '-' :: '-' :: r => readSet? f fuel (o.operate f .diff) outer r
    | '~' :: '~' :: r => readSet? f fuel (o.operate f .symmDiff) outer r
    | cs => do
      let (s, rest) ← range? f cs
      readSet? f fuel (o.add s 0) outer rest

/-- A bracketed set, after its bracket: the set, its height and what follows. -/
def bracket? (f : Flags) (cs : List Char) : Option (CharSet × Nat × List Char) :=
  let (o, rest) := openSet f cs
  readSet? f (cs.length + 1) o [] rest

end Logging.Pattern
