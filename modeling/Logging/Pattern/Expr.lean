import Logging.Pattern.CharSet

/-!
# Patterns as they are written

* `Expr`: the structure of a pattern, with flags already applied.
* `Expr.weight`: how much a pattern grows when its counted repetitions are written out.
-/

namespace Logging.Pattern

/-- A condition on the place between two characters. -/
inductive Look where
  | textStart | textEnd
  | lineStart | lineEnd
  /-- Lines may end with a carriage return, a line feed or both. -/
  | anyLineStart | anyLineEnd
  /-- Between a word character and another one, or not. -/
  | wordBoundary (ascii : Bool)
  | noWordBoundary (ascii : Bool)
  | wordStart (ascii : Bool)
  | wordEnd (ascii : Bool)
  /-- No word character stands in front. -/
  | wordStartHalf (ascii : Bool)
  /-- No word character follows. -/
  | wordEndHalf (ascii : Bool)
  deriving DecidableEq, Repr

/-- A pattern. -/
inductive Expr where
  | empty
  | set (s : CharSet)
  | look (l : Look)
  /-- A group whose match is kept under a number. -/
  | group (index : Nat) (e : Expr)
  /-- At least `least` and, if it is given, at most `most` times; as often as possible if
  `greedy`. -/
  | repeated (least : Nat) (most : Option Nat) (greedy : Bool) (e : Expr)
  | cat (a b : Expr)
  | alt (a b : Expr)
  deriving Repr, Inhabited

namespace CharSet

/-- About how many bytes the states of a set take. -/
def weight : CharSet → Nat
  | empty => 32
  | range first last =>
    if first = last then 32 * first.utf8Size
    else if last.toNat < 128 then 40
    else 400
  | digit => 2500
  | space => 800
  | word => 16000
  | table ranges => 32 + 24 * ranges.bounds.length
  | union a b => a.weight + b.weight
  | inter a b => max a.weight b.weight
  | compl a => 400 + a.weight
  | anyCase a => 40 + a.weight
  | anyAsciiCase a => 8 + a.weight

end CharSet

namespace Expr

/-- Whether a pattern can only match the empty text. -/
def takesNothing : Expr → Bool
  | empty => true
  | set _ => false
  | look _ => true
  | group _ e => e.takesNothing
  | repeated _ most _ e => most = some 0 || e.takesNothing
  | cat a b => a.takesNothing && b.takesNothing
  | alt a b => a.takesNothing && b.takesNothing

/-- The bounds of a repetition. What takes nothing need not come twice. -/
def bounds (least : Nat) (most : Option Nat) (e : Expr) : Nat × Option Nat :=
  if e.takesNothing then (min least 1, some (min (most.getD 1) 1)) else (least, most)

/-- About how many bytes the states of a pattern take once repetitions are written out. -/
def weight : Expr → Nat
  | empty => 32
  | set s => s.weight
  | look _ => 32
  | group _ e => 64 + e.weight
  | repeated least most _ e =>
    match bounds least most e with
    | (least, some n) => least * e.weight + (n - least) * (40 + e.weight)
    | (least, none) => max 1 least * e.weight + 80
  | cat a b => a.weight + b.weight
  | alt a b => 40 + a.weight + b.weight

/-- The most that a pattern may take. -/
def weightLimit : Nat := 10485760

/-- Whether a pattern surely takes some character. -/
def consumes : Expr → Bool
  | empty => false
  | set _ => true
  | look _ => false
  | group _ e => e.consumes
  | repeated least _ _ e => 0 < least && e.consumes
  | cat a b => a.consumes || b.consumes
  | alt a b => a.consumes && b.consumes

end Expr

end Logging.Pattern
