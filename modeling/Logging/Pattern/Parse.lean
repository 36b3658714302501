import Logging.Pattern.Bracket

/-!
# Reading patterns

* `Parsed`: a pattern with the number and the names of its groups.
* `parse?`: the pattern that a text spells. It fails on a text that is no pattern, on one that
  nests too deeply and on one whose repetitions grow too large.
-/

namespace Logging.Pattern

/-- A part of a pattern: how deeply it nests, and whether it may be repeated. -/
structure Piece where
  expr : Expr
  height : Nat
  repeatable : Bool := true

/-- The branches of a group that is open: the parts of the last branch and the branches before it,
the newest first. -/
structure Branches where
  parts : List Piece := []
  before : List Piece := []

namespace Branches

/-- The highest of some parts. -/
def highest (ps : List Piece) : Nat := ps.foldl (fun n p => max n p.height) 0

/-- The parts of a branch, one behind the other. -/
def joined : List Piece → Piece
  | [] => ⟨.empty, 0, true⟩
  | [p] => p
  | ps => ⟨ps.tail.foldl (fun e p => .cat p.expr e) (ps.headD ⟨.empty, 0, true⟩).expr,
      highest ps + 1, true⟩

/-- Adds a part. -/
def push (b : Branches) (p : Piece) : Branches := { b with parts := p :: b.parts }

/-- Ends the branch. -/
def branch (b : Branches) : Branches := ⟨[], joined b.parts :: b.before⟩

/-- All branches as one part. -/
def close (b : Branches) : Piece :=
  let last := joined b.parts
  match b.before with
  | [] => last
  | before =>
    ⟨before.foldl (fun e p => .alt p.expr e) last.expr, highest (last :: before) + 1, true⟩

end Branches

/-- A group around the one that is being read: its branches, the number under which the inner group
is kept, if it is, and its flags. -/
structure OuterGroup where
  branches : Branches
  index : Option Nat
  flags : Flags

/-- The state of reading. -/
structure Reader where
  flags : Flags := {}
  branches : Branches := {}
  outer : List OuterGroup := []
  groups : Nat := 0
  names : List (String × Nat) := []

/-- The decimal digits at the front, passing over what does not count. -/
def digits (f : Flags) : Nat → List Char → List Char × List Char
  | fuel + 1, c :: r =>
    if Text.isAsciiDigit c then
      let (ds, rest) := digits f fuel (f.skip r)
      (c :: ds, rest)
    else ([], c :: r)
  | _, cs => ([], cs)

/-- A number of repetitions, with blanks around it. -/
def count? (f : Flags) (cs : List Char) : Option (Nat × List Char) :=
  let cs := cs.dropWhile Text.isSpace
  match digits f cs.length cs with
  | ([], _) => none
  | (ds, rest) =>
    let n := ds.foldl (fun n c => 10 * n + (c.toNat - 48)) 0
    if n < UInt32.size then some (n, rest.dropWhile Text.isSpace) else none

/-- The bounds of a repetition, after the brace. -/
def bounds? (f : Flags) (cs : List Char) : Option (Nat × Option Nat × List Char) := do
  let (least, r) ← count? f (f.skip cs)
  match r with
  | '\x7d' :: rest => some (least, some least, rest)
  | ',' :: r =>
    match f.skip r with
    | '\x7d' :: rest => some (least, none, rest)
    | r =>
      let (most, r) ← count? f r
      match r with
      | '\x7d' :: rest => if least ≤ most then some (least, some most, rest) else none
      | _ => none
  | _ => none

/-- Sets a flag by its letter. -/
def Flags.set? (f : Flags) (on : Bool) : Char → Option Flags
  | 'i' => some { f with ignoreCase := on }
  | 'm' => some { f with multiLine := on }
  | 's' => some { f with dotAll := on }
  | 'U' => some { f with swapGreed := on }
  | 'u' => some { f with unicode := on }
  | 'R' => some { f with anyLineEnd := on }
  | 'x' => some { f with spaced := on }
  | _ => none

/-- Flags up to a colon or a closing parenthesis: each at most once, those behind a dash switched
off. Gives the flags, whether there were any, whether the group has a body, and what follows. -/
def flags? (f : Flags) (seen : List Char) : List Char → Option (Flags × Bool × Bool × List Char)
  | [] => none
  | c :: r =>
    if c = ':' || c = ')' then
      if seen.head? = some '-' then none else some (f, !seen.isEmpty, c = ':', r)
    else if c ∈ seen then none
    else if c = '-' then flags? f ('-' :: seen) r
    else do
      let f ← f.set? (!seen.contains '-') c
      flags? f (c :: seen) r

/-- Whether a character may stand in the name of a group. -/
def isNameChar (first : Bool) (c : Char) : Bool :=
  if first then c = '_' || Text.isAlphabetic c
  else c = '_' || c = '.' || c = '[' || c = ']' || Text.isAlphanumeric c

/-- The name of a group, up to its closing bracket. -/
def groupName? (cs : List Char) : Option (String × List Char) :=
  let name := cs.takeWhile (· ≠ '>')
  match name, cs.dropWhile (· ≠ '>') with
  | c :: r, _ :: rest =>
    if isNameChar true c && r.all (isNameChar false) then some (String.ofList name, rest) else none
  | _, _ => none

namespace Reader

def push (s : Reader) (p : Piece) : Reader := { s with branches := s.branches.push p }

/-- Opens a group. -/
def enter (s : Reader) (index : Option Nat) (flags : Flags) : Reader :=
  { s with flags := flags, branches := {}, outer := ⟨s.branches, index, s.flags⟩ :: s.outer }

/-- Opens a group that is kept. -/
def enterKept (s : Reader) : Reader :=
  { s.enter (some (s.groups + 1)) s.flags with groups := s.groups + 1 }

/-- Opens a group that is kept under a name, after the bracket in front of the name. -/
def enterNamed? (s : Reader) (cs : List Char) : Option (Reader × List Char) := do
  let (name, rest) ← groupName? cs
  if s.names.any fun n => n.1 = name then none
  else some ({ s.enterKept with names := (name, s.groups + 1) :: s.names }, rest)

/-- Opens a group or sets flags, after the parenthesis. -/
def open? (s : Reader) (cs : List Char) : Option (Reader × List Char) :=
  match s.flags.skip cs with
  | '?' :: '=' :: _ | '?' :: '!' :: _ | '?' :: '<' :: '=' :: _ | '?' :: '<' :: '!' :: _ => none
  | '?' :: 'P' :: '<' :: r | '?' :: '<' :: r => s.enterNamed? r
  | '?' :: r => do
    let (f, any, body, rest) ← flags? s.flags [] r
    if body then some (s.enter none f, rest)
    else if any then some ({ s with flags := f }.push ⟨.empty, 0, false⟩, rest)
    else none
  | r => some (s.enterKept, r)

/-- Closes a group. -/
def close? (s : Reader) : Option Reader :=
  match s.outer with
  | [] => none
  | g :: outer =>
    let p := s.branches.close
    let e := match g.index with
      | some i => Expr.group i p.expr
      | none => p.expr
    some { s with flags := g.flags, branches := g.branches.push ⟨e, p.height + 1, true⟩, outer }

/-- Repeats the part in front. A question mark behind turns the greed around. -/
def repeat? (s : Reader) (least : Nat) (most : Option Nat) (cs : List Char) :
    Option (Reader × List Char) :=
  match s.branches.parts with
  | [] => none
  | p :: parts =>
    if p.repeatable then
      let (lazy, rest) := match cs with
        | '?' :: r => (true, r)
        | r => (false, r)
      let e := Expr.repeated least most (lazy = s.flags.swapGreed) p.expr
      let branches := { s.branches with parts := ⟨e, p.height + 1, true⟩ :: parts }
      some ({ s with branches }, rest)
    else none

/-- Whether a part may be repeated. -/
def canRepeat (s : Reader) : Bool := (s.branches.parts.head?.map Piece.repeatable).getD false

/-- What the dot stands for. -/
def dot? (f : Flags) : Option CharSet :=
  if !f.unicode then none
  else if f.dotAll then some .all
  else if f.anyLineEnd then some (.compl (.ofList ['\n', '\r']))
  else some (.compl (.single '\n'))

/-- The place that a circumflex or a dollar sign stands for. -/
def edge (f : Flags) (text line anyLine : Look) : Look :=
  if f.multiLine then (if f.anyLineEnd then anyLine else line) else text

/-- A part that is no operator. -/
def primitive? (f : Flags) : Primitive → Option Expr
  | .char c fromByte =>
    if !f.unicode && fromByte && 0x7F < c.toNat then none
    else some (.set (CharSet.finished f false (.single c)))
  | .set s => some (.set s)
  | .look l => some (.look l)

/-- Reads one part or operator, of which the first character is given. -/
def step (s : Reader) (c : Char) (r : List Char) : Option (Reader × List Char) :=
  let f := s.flags
  let part (e : Expr) (rest : List Char) := some (s.push ⟨e, 0, true⟩, rest)
  match c with
  | '(' => s.open? r
  | ')' => s.close?.map (·, r)
  | '|' => some ({ s with branches := s.branches.branch }, r)
  | '[' => do
    let (set, height, rest) ← bracket? f r
    some (s.push ⟨.set set, height, true⟩, rest)
  | '?' => s.repeat? 0 (some 1) r
  | '*' => s.repeat? 0 none r
  | '+' => s.repeat? 1 none r
  | '\x7b' => do
    if !s.canRepeat then none
    let (least, most, rest) ← bounds? f r
    s.repeat? least most (f.skip rest)
  | '\\' => do
    let (p, rest) ← escape? f r
    part (← primitive? f p) rest
  | '.' => do part (.set (← dot? f)) r
  | '^' => part (.look (edge f .textStart .lineStart .anyLineStart)) r
  | '$' => part (.look (edge f .textEnd .lineEnd .anyLineEnd)) r
  | c => do part (← primitive? f (.char c false)) r

/-- Reads to the end. -/
def run : Nat → Reader → List Char → Option Reader
  | 0, _, _ => none
  | fuel + 1, s, cs =>
    match s.flags.skip cs with
    | [] => some s
    | c :: r => do
      let (s, rest) ← s.step c r
      run fuel s rest

end Reader

/-- A pattern with the number and the names of its groups. -/
structure Parsed where
  expr : Expr
  groups : Nat
  names : List (String × Nat)
  deriving Repr, Inhabited

/-- How deeply patterns may nest. -/
def heightLimit : Nat := 250

/-- The pattern that a text spells. -/
def parse? (text : String) : Option Parsed := do
  let cs := text.toList
  let s ← Reader.run (cs.length + 1) {} cs
  if !s.outer.isEmpty then none
  let p := s.branches.close
  if p.height ≤ heightLimit && p.expr.weight ≤ Expr.weightLimit then
    some ⟨p.expr, s.groups, s.names⟩
  else none

end Logging.Pattern
