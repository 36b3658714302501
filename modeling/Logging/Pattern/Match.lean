import Logging.Pattern.Term

/-!
# Matching

* `Spot`: a place in a text, with what has been kept for groups on the way to it.
* `Term.ends`: where a match may end, the preferred end first. Of the ways to one end only the
  preferred one counts.
* `Term.find?`: the first match: the leftmost start, and there the preferred end.
-/

namespace Logging.Pattern

/-- A place in a text: how many characters are in front of it, the last of them, and the text behind
it. The marks are the choices that were made at this very place. -/
structure Spot where
  index : Nat
  previous : Option Char
  rest : List Char
  marks : List Nat := []
  /-- The start and the end of each group, the newest first. -/
  groups : List (Nat × Nat × Nat) := []
  deriving Repr, Inhabited

namespace Spot

/-- The start of a text. -/
def start (text : List Char) : Spot := { index := 0, previous := none, rest := text }

/-- The place behind the next character. -/
def take (s : Spot) (c : Char) (rest : List Char) : Spot :=
  { s with index := s.index + 1, previous := some c, rest, marks := [] }

def mark (s : Spot) (m : Nat) : Spot := { s with marks := m :: s.marks }

/-- Keeps the text from an earlier place up to here for a group. -/
def keep (s : Spot) (group start : Nat) : Spot :=
  { s with groups := (group, start, s.index) :: s.groups }

/-- Whether a character there is one of a word. -/
def isWordAt (ascii : Bool) : Option Char → Bool
  | some c => if ascii then Text.isAsciiWord c else Text.isWord c
  | none => false

/-- Whether a condition holds at a place. -/
def holds (s : Spot) (l : Look) : Bool :=
  let next := s.rest.head?
  let before (ascii : Bool) := isWordAt ascii s.previous
  let behind (ascii : Bool) := isWordAt ascii next
  match l with
  | .textStart => s.previous.isNone
  | .textEnd => s.rest.isEmpty
  | .lineStart => s.previous.isNone || s.previous = some '\n'
  | .lineEnd => s.rest.isEmpty || next = some '\n'
  | .anyLineStart =>
    s.previous.isNone || s.previous = some '\n' || (s.previous = some '\r' && next ≠ some '\n')
  | .anyLineEnd =>
    s.rest.isEmpty || next = some '\r' || (next = some '\n' && s.previous ≠ some '\r')
  | .wordBoundary a => before a != behind a
  | .noWordBoundary a => before a == behind a
  | .wordStart a => !before a && behind a
  | .wordEnd a => before a && !behind a
  | .wordStartHalf a => !before a
  | .wordEndHalf a => !behind a

end Spot

/-- Keeps the first spot of each place. -/
def distinct : List Spot → List Spot
  | [] => []
  | s :: rest => s :: (distinct rest).filter fun e => e.index ≠ s.index

/-- The rounds of a loop. What was found so far is kept newest first, with the places where the loop
has already been; coming back to one of them finds nothing new. -/
def rounds (body : Spot → List Spot) (mark : Nat) (greedy : Bool) :
    Nat → List Spot × List Nat → Spot → List Spot × List Nat
  | 0, found, _ => found
  | fuel + 1, (found, seen), s =>
    if s.marks.contains mark || seen.contains s.index then (found, seen)
    else
      let here := s.mark mark
      if greedy then
        let (found, seen) :=
          (body here).foldl (rounds body mark greedy fuel) (found, s.index :: seen)
        (here :: found, seen)
      else
        (body here).foldl (rounds body mark greedy fuel) (here :: found, s.index :: seen)

namespace Term

/-- Where a match that starts at a spot may end, the preferred end first. A loop passes each place
once, so it has at most one more round than there are characters left. -/
def ends : Term → Spot → List Spot
  | empty, s => [s]
  | set cs, s =>
    match s.rest with
    | [] => []
    | c :: rest => if cs.contains c then [s.take c rest] else []
  | look l, s => if s.holds l then [s] else []
  | group i t, s => (t.ends s).map fun e => e.keep i s.index
  | cat a b, s =>
    match a.ends s with
    | [e] => b.ends e
    | es => distinct (es.flatMap b.ends)
  | alt m a b, s =>
    if s.marks.contains m then []
    else a.ends (s.mark m) ++ b.ends (s.mark m)
  | star m greedy t, s => (rounds t.ends m greedy (s.rest.length + 1) ([], []) s).1.reverse

/-- The preferred match that starts at a spot. -/
def matchAt? (t : Term) (s : Spot) : Option Spot :=
  (t.ends { s with marks := [], groups := [] }).head?

/-- The first match from a spot on: its start and its end. -/
def findFrom? (t : Term) (index : Nat) (previous : Option Char) :
    List Char → Option (Spot × Spot)
  | [] =>
    let s : Spot := { index, previous, rest := [] }
    (t.matchAt? s).map (s, ·)
  | c :: rest =>
    let s : Spot := { index, previous, rest := c :: rest }
    match t.matchAt? s with
    | some e => some (s, e)
    | none => t.findFrom? (index + 1) (some c) rest

/-- The first match at a spot or behind it. -/
def find? (t : Term) (s : Spot) : Option (Spot × Spot) :=
  t.findFrom? s.index s.previous s.rest

end Term

end Logging.Pattern
