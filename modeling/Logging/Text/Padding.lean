/-!
# Padding to a width

* `Alignment`, `Padding`: how a short text is filled up to a width and a long one is cut.
* `pad`: the padded text; its length is at least the width.
-/

namespace Logging.Text

/-- Where the text stands in its field. -/
inductive Alignment where
  | left | right | center
  deriving DecidableEq, Repr

/-- A field: the least width, the most characters kept, where the text stands and what fills the
rest. -/
structure Padding where
  width : Nat := 0
  most : Option Nat := none
  align : Alignment := .left
  fill : Char := ' '
  deriving Repr

/-- Cuts the text to the most characters kept and fills it up to the width. Of an odd number of
fillings around a centred text the larger half stands behind. -/
def pad (p : Padding) (s : String) : String :=
  let kept := match p.most with
    | some n => s.toList.take n
    | none => s.toList
  let gap := p.width - kept.length
  match p.align with
  | .left => String.ofList (kept ++ List.replicate gap p.fill)
  | .right => String.ofList (List.replicate gap p.fill ++ kept)
  | .center =>
    String.ofList (List.replicate (gap / 2) p.fill ++ kept ++ List.replicate (gap - gap / 2) p.fill)

/-- Decimal digits filled up with zeros to a width. -/
def zeroPadded (width n : Nat) : String :=
  pad ⟨width, none, .right, '0'⟩ (toString n)

end Logging.Text
