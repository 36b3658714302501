/-!
# The shortest decimal that reads back

A binary floating-point number `m · 2^q` stands for every real that is nearer to it than to its
neighbours. Of the decimals in that interval the shortest is written: the fewest digits, and among
those the one nearest to the number.

* `Binary`: a positive number `m · 2^q` with its gap downwards.
* `Decimal`: digits and an exponent, `digits · 10^exponent`.
* `Tie`: which of two decimals is written if the number lies halfway between them.
* `Binary.shortest`: the decimal that is written.

All arithmetic is exact, on natural numbers over a common denominator.
-/

namespace Logging.Number

/-- A positive number `m · 2^q`. At a power of two the gap downwards is half the gap upwards. -/
structure Binary where
  m : Nat
  q : Int
  narrow : Bool := false
  deriving DecidableEq, Repr

/-- The number `digits · 10^exponent`. -/
structure Decimal where
  digits : Nat
  exponent : Int
  deriving DecidableEq, Repr

/-- The choice between two neighbours at the same distance: the greater one, or the one whose last
digit is even. -/
inductive Tie where
  | up | even
  deriving DecidableEq, Repr

/-- Whether of `below` and its successor the former is chosen. -/
def Tie.takesBelow (below : Nat) : Tie → Bool
  | up => false
  | even => below % 2 = 0

namespace Binary

/-- Four times the number and its interval, as numerators over one denominator:
the lower end, the number and the upper end. -/
structure Interval where
  low : Nat
  value : Nat
  high : Nat
  den : Nat
  closed : Bool

/-- The reals that round to the number. The ends belong to it iff `m` is even. -/
def interval (b : Binary) : Interval :=
  let up := 1 <<< (b.q - 2).toNat
  { low := (4 * b.m - if b.narrow then 1 else 2) * up
    value := 4 * b.m * up
    high := (4 * b.m + 2) * up
    den := 1 <<< (2 - b.q).toNat
    closed := b.m % 2 = 0 }

/-- Whether the fraction `num / den` lies in the interval; both are scaled by `scale`. -/
def Interval.holds (i : Interval) (scaleNum scaleDen d : Nat) : Bool :=
  -- d · scaleNum / scaleDen against low / den and high / den
  let x := d * scaleNum * i.den
  if i.closed then i.low * scaleDen ≤ x && x ≤ i.high * scaleDen
  else i.low * scaleDen < x && x < i.high * scaleDen

/-- How many decimal digits a natural number has. -/
def digitCount (n : Nat) : Nat :=
  (Nat.toDigits 10 n).length

/-- The exponent of the leading decimal digit of `num / den`, for a positive fraction. -/
def leadingExponent (num den : Nat) : Int :=
  if den ≤ num then digitCount (num / den) - 1
  else
    let r := den / num
    let k := digitCount r
    if den = num * Nat.pow 10 (k - 1) then -(k - 1 : Nat) else -(k : Nat)

/-- The decimal with the given exponent that lies in the interval and is nearest to the number:
one of the number's two neighbours on that grid. -/
def Interval.onGrid? (i : Interval) (tie : Tie) (exponent : Int) : Option Decimal :=
  let scaleNum := Nat.pow 10 exponent.toNat
  let scaleDen := Nat.pow 10 (-exponent).toNat
  let step := i.den * scaleNum
  let value := i.value * scaleDen
  let below := value / step
  let above := below + 1
  match i.holds scaleNum scaleDen below && below ≠ 0, i.holds scaleNum scaleDen above with
  | true, true =>
    let lower := match compare (value - below * step) (above * step - value) with
      | .lt => true
      | .eq => tie.takesBelow below
      | .gt => false
    some ⟨if lower then below else above, exponent⟩
  | true, false => some ⟨below, exponent⟩
  | false, true => some ⟨above, exponent⟩
  | false, false => none

/-- Drops trailing zeros of the digits. At most `fuel` of them. -/
def trimZeros : Nat → Decimal → Decimal
  | 0, d => d
  | fuel + 1, d =>
    if d.digits ≠ 0 ∧ d.digits % 10 = 0 then trimZeros fuel ⟨d.digits / 10, d.exponent + 1⟩
    else d

/-- The shortest decimal that reads back: the first grid, from one digit to seventeen, with a
point in the interval. Seventeen digits always suffice. -/
def shortest (tie : Tie) (b : Binary) : Decimal :=
  let i := b.interval
  let top := leadingExponent i.value i.den
  let grids := (List.range 17).findSome? fun (k : Nat) => i.onGrid? tie (top - k)
  trimZeros 20 (grids.getD ⟨b.m, 0⟩)

end Binary

end Logging.Number
