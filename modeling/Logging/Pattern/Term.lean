import Logging.Pattern.Parse

/-!
# Patterns in the form that is matched

A `Term` has two kinds of choice: between two alternatives, and between another round of a loop and
its end. Each choice carries a mark of its own, by which matching tells that it comes back to the
choice without having taken a character.

* `Expr.term`: a pattern with its repetitions written out and its choices marked.
-/

namespace Logging.Pattern

/-- A pattern that is matched. -/
inductive Term where
  | empty
  | set (s : CharSet)
  | look (l : Look)
  | group (index : Nat) (t : Term)
  | cat (a b : Term)
  /-- The first alternative if it leads to a match, else the second. -/
  | alt (mark : Nat) (a b : Term)
  /-- Any number of rounds, as many as possible if `greedy`. -/
  | star (mark : Nat) (greedy : Bool) (t : Term)
  deriving Repr, Inhabited

namespace Term

/-- Once or not at all. -/
def optional (mark : Nat) (greedy : Bool) (t : Term) : Term :=
  if greedy then alt mark t empty else alt mark empty t

end Term

/-- Makes terms; the state is the next mark. -/
abbrev Marking := StateM Nat

/-- A fresh mark. -/
def fresh : Marking Nat := modifyGet fun n => (n, n + 1)

/-- So many copies of a term, each with marks of its own, in front of another term. -/
def copies (make : Marking Term) : Nat → Term → Marking Term
  | 0, last => pure last
  | n + 1, last => do
    let t ← make
    let rest ← copies make n last
    pure (.cat t rest)

/-- At most so many copies, each only behind the one before. -/
def optionals (make : Marking Term) (greedy : Bool) : Nat → Marking Term
  | 0 => pure .empty
  | n + 1 => do
    let mark ← fresh
    let t ← make
    match n with
    | 0 => pure (.optional mark greedy t)
    | _ => do
      let rest ← optionals make greedy n
      pure (.optional mark greedy (.cat t rest))

/-- At least one round. The loop runs over the marks of the first round. -/
def plus (make : Marking Term) (greedy : Bool) : Marking Term := do
  let t ← make
  let mark ← fresh
  pure (.cat t (.star mark greedy t))

/-- A repetition written out. A loop whose body may take nothing is an optional loop of at least one
round, so that the body is tried before the loop is left. -/
def repetition (make : Marking Term) (consumes : Bool) (least : Nat) (most : Option Nat)
    (greedy : Bool) : Marking Term :=
  match most with
  | some m => do
    if m ≤ least then
      match least with
      | 0 => pure .empty
      | n + 1 => copies make n (← make)
    else
      match least with
      | 0 => optionals make greedy m
      | n => do
        let first ← copies make (n - 1) (← make)
        let rest ← optionals make greedy (m - n)
        pure (.cat first rest)
  | none =>
    match least with
    | 0 => do
      if consumes then
        let mark ← fresh
        pure (.star mark greedy (← make))
      else
        let mark ← fresh
        pure (.optional mark greedy (← plus make greedy))
    | n + 1 => do
      match n with
      | 0 => plus make greedy
      | n => copies make n (← plus make greedy)

/-- The term of a pattern. -/
def Expr.marked : Expr → Marking Term
  | .empty => pure .empty
  | .set s => pure (.set s)
  | .look l => pure (.look l)
  | .group i e => do pure (.group i (← e.marked))
  | .repeated least most greedy e =>
    let (least, most) := Expr.bounds least most e
    repetition e.marked e.consumes least most greedy
  | .cat a b => do pure (.cat (← a.marked) (← b.marked))
  | .alt a b => do
    let mark ← fresh
    pure (.alt mark (← a.marked) (← b.marked))

/-- The term of a pattern, with marks counted from zero. -/
def Expr.term (e : Expr) : Term := (e.marked.run 0).1

end Logging.Pattern
