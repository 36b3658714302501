/-!
# Paths

A path is the list of its pieces, as they stand between slashes. Empty pieces and points are kept,
so that the text of a path is what it was read from.

* `Path.ofText`, `Path.text`: reading and writing.
* `Path.parent?`, `Path.fileName?`, `Path.withFileName`: the last name and what is before it.
* `Path.location`: the names on the way from the root, or from where the program runs.
* `splitName`: a file name's stem and its extension.
-/

namespace Logging.Disk

/-- The pieces of a path, parted by slashes. -/
structure Path where
  pieces : List String
  deriving DecidableEq, Repr, Inhabited

/-- The names that lead to a place. A path from the root begins with the empty name. -/
abbrev Location := List String

/-- The pieces of a text between slashes. -/
def splitPieces : List Char → List (List Char)
  | [] => [[]]
  | c :: cs =>
    match c, splitPieces cs with
    | '/', ps => [] :: ps
    | c, p :: ps => (c :: p) :: ps
    | c, [] => [[c]]

/-- The stem of a file name and its extension with the point. A name that begins with its only point
has no extension. -/
def splitName (name : String) : String × String :=
  let r := name.toList.reverse
  match r.dropWhile (· ≠ '.') with
  | '.' :: stem =>
    if stem = [] ∨ name = ".." then (name, "")
    else (String.ofList stem.reverse, String.ofList ('.' :: (r.takeWhile (· ≠ '.')).reverse))
  | _ => (name, "")

namespace Path

def ofText (t : String) : Path := ⟨(splitPieces t.toList).map String.ofList⟩

def text (p : Path) : String := "/".intercalate p.pieces

/-- Whether a piece leads nowhere. -/
def idle (piece : String) : Bool := piece = "" || piece = "."

/-- The pieces without the idle ones at the end; the first piece stays. -/
def trimmed : List String → List String
  | [] => []
  | p :: rest => p :: (rest.reverse.dropWhile idle).reverse

/-- The root, from its only piece. -/
def rooted (ps : List String) : List String := if ps = [""] then ["", ""] else ps

/-- The path without its last name, unless nothing is left. -/
def parent? (p : Path) : Option Path :=
  match trimmed p.pieces with
  | [] => none
  | [_] => none
  | ps => some ⟨rooted (trimmed ps.dropLast)⟩

/-- The last name. -/
def fileName? (p : Path) : Option String :=
  match (trimmed p.pieces).getLast? with
  | some name => if idle name ∨ name = ".." then none else some name
  | none => none

/-- The path with a name behind it. -/
def push (p : Path) (name : String) : Path :=
  if p.pieces.getLast? = some "" then ⟨p.pieces.dropLast ++ [name]⟩ else ⟨p.pieces ++ [name]⟩

/-- The path with another last name. -/
def withFileName (p : Path) (name : String) : Path :=
  match p.fileName?, p.parent? with
  | none, _ => p.push name
  | some _, none => ⟨[name]⟩
  | some _, some q => q.push name

/-- The path with something behind its text. -/
def suffixed (p : Path) (s : String) : Path :=
  ⟨p.pieces.dropLast ++ [p.pieces.getLastD "" ++ s]⟩

/-- One more piece on the way to a place. -/
def walk (way : Location) (piece : String) : Location :=
  if idle piece then way else if piece = ".." then way.dropLast else way ++ [piece]

/-- The place that a path leads to. -/
def location (p : Path) : Location :=
  match p.pieces with
  | "" :: (q :: rest) => (q :: rest).foldl walk [""]
  | ps => ps.foldl walk []

/-- Whether the path ends in a name, so that it may lead to a file. -/
def endsInName (p : Path) : Bool :=
  match p.pieces.getLast? with
  | some name => !(idle name) && name ≠ ".."
  | none => false

end Path

end Logging.Disk
