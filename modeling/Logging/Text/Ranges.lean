/-!
# Sets of characters as ranges of code points

A standard's character property is a list of ranges. `Ranges.ofText` reads the notation that
such tables are published in: ranges in hexadecimal, `41-5A` or a single `AA`, parted by blanks.

* `Ranges.contains`: membership of a character, by its code point.
-/

namespace Logging.Text

/-- Ranges of code points, both ends included. -/
structure Ranges where
  /-- The first and the last code point of each range. -/
  bounds : List (Nat × Nat)
  deriving Repr, Inhabited

namespace Ranges

/-- Whether some range holds the code point. -/
def containsCode (r : Ranges) (n : Nat) : Bool :=
  r.bounds.any fun b => b.1 ≤ n && n ≤ b.2

/-- Whether some range holds the character. -/
def contains (r : Ranges) (c : Char) : Bool :=
  r.containsCode c.toNat

/-- The ranges of both sets. -/
def union (r s : Ranges) : Ranges :=
  ⟨r.bounds ++ s.bounds⟩

instance : Append Ranges := ⟨union⟩

/-- The union of a list of sets. -/
def unions (rs : List Ranges) : Ranges :=
  ⟨rs.flatMap bounds⟩

/-- The value of a hexadecimal digit, in either case. -/
def hexDigit? (c : Char) : Option Nat :=
  if '0' ≤ c ∧ c ≤ '9' then some (c.toNat - '0'.toNat)
  else if 'A' ≤ c ∧ c ≤ 'F' then some (c.toNat - 'A'.toNat + 10)
  else if 'a' ≤ c ∧ c ≤ 'f' then some (c.toNat - 'a'.toNat + 10)
  else none

/-- What has been read of a range: its first end if a dash was seen, and the digits since. -/
structure Reading where
  low : Option Nat
  digits : Option Nat
  done : List (Nat × Nat)

/-- Ends the range that is being read. -/
def Reading.finish (s : Reading) : Reading :=
  match s.low, s.digits with
  | some lo, some hi => ⟨none, none, (lo, hi) :: s.done⟩
  | none, some n => ⟨none, none, (n, n) :: s.done⟩
  | _, none => ⟨none, none, s.done⟩

/-- Reads one character of a table. -/
def Reading.step (s : Reading) (c : Char) : Reading :=
  match hexDigit? c with
  | some d => { s with digits := some (16 * s.digits.getD 0 + d) }
  | none => if c = '-' then { s with low := s.digits, digits := none } else s.finish

/-- The set that a table in the published notation denotes. -/
def ofText (text : String) : Ranges :=
  ⟨((text.foldl Reading.step ⟨none, none, []⟩).finish).done.reverse⟩

@[simp] theorem contains_append (r s : Ranges) (c : Char) :
    (r ++ s).contains c = (r.contains c || s.contains c) := by
  show ((r.bounds ++ s.bounds).any _) = _
  rw [List.any_append]
  rfl

end Ranges

end Logging.Text
