import Logging.Number.Shortest

/-!
# Double-precision numbers and their text

A double is its 64 bits. Its text is its shortest decimal (`Binary.shortest`), laid out in one of
three ways, each a value of `Layout`:

* `Layout.plain`: always positional, without a point where none is needed.
* `Layout.json`: positional from `1e-5` to below `1e16`, with a point, and else with an exponent
  that carries its sign.
* `Layout.shown`: positional from `1e-4` to below `1e16`, with a point, and else with an exponent.
-/

namespace Logging.Number

/-- A number of the binary64 format, by its bit pattern. -/
structure Double where
  bits : UInt64
  deriving DecidableEq, Repr, Inhabited

namespace Double

/-- The sign bit. -/
def negative (d : Double) : Bool := d.bits.toNat >>> 63 = 1

/-- The biased exponent. -/
def exponentField (d : Double) : Nat := (d.bits.toNat >>> 52) % (1 <<< 11)

/-- The bits of the fraction. -/
def fractionField (d : Double) : Nat := d.bits.toNat % (1 <<< 52)

def isNaN (d : Double) : Bool := d.exponentField = 2047 && d.fractionField ≠ 0

def isInfinite (d : Double) : Bool := d.exponentField = 2047 && d.fractionField = 0

def isFinite (d : Double) : Bool := d.exponentField ≠ 2047

def isZero (d : Double) : Bool := d.exponentField = 0 && d.fractionField = 0

/-- The magnitude of a finite number other than zero. -/
def magnitude (d : Double) : Binary :=
  if d.exponentField = 0 then ⟨d.fractionField, -1074, false⟩
  else
    ⟨(1 <<< 52) + d.fractionField, (d.exponentField : Int) - 1075,
      d.fractionField = 0 && 1 < d.exponentField⟩

/-- Equality as numbers: both zeros are equal and not-a-number equals nothing. -/
def sameNumber (a b : Double) : Bool :=
  !a.isNaN && !b.isNaN && (a.bits = b.bits || (a.isZero && b.isZero))

/-- The number as the machine computes with it. -/
def toFloat (d : Double) : Float := Float.ofBits d.bits

def ofFloat (f : Float) : Double := ⟨f.toBits⟩

/-- The double nearest to a natural number. -/
def ofNat (n : Nat) : Double := ofFloat (Float.ofNat n)

/-- How the digits of a number are laid out. -/
structure Layout where
  /-- The least exponent of the leading digit that is written positionally, if there is one. -/
  least : Option Int
  /-- From this exponent on the number is written with an exponent, if there is one. -/
  bound : Option Int
  /-- Whether a whole number keeps a point and a zero. -/
  pointAlways : Bool
  /-- Whether a positive exponent carries a plus sign. -/
  plus : Bool
  /-- Which decimal stands for a number halfway between two. -/
  tie : Tie

/-- Always positional, whole numbers without a point. -/
def Layout.plain : Layout := ⟨none, none, false, false, .up⟩

/-- Positional from `1e-5` to below `1e16`, with a point; exponents carry their sign. -/
def Layout.json : Layout := ⟨some (-5), some 16, true, true, .even⟩

/-- Positional from `1e-4` to below `1e16`, with a point. -/
def Layout.shown : Layout := ⟨some (-4), some 16, true, false, .up⟩

/-- Zeros, as many as asked for. -/
def zeros (n : Nat) : String := String.ofList (List.replicate n '0')

/-- The digits with the point where the exponent puts it. -/
def positional (pointAlways : Bool) (d : Decimal) : String :=
  let ds := toString d.digits
  if 0 ≤ d.exponent then
    ds ++ zeros d.exponent.toNat ++ if pointAlways then ".0" else ""
  else
    let places := (-d.exponent).toNat
    if places < ds.length then
      String.ofList (ds.toList.take (ds.length - places)) ++ "." ++
        String.ofList (ds.toList.drop (ds.length - places))
    else "0." ++ zeros (places - ds.length) ++ ds

/-- The digits with a point behind the first and an exponent. -/
def scientific (plus : Bool) (d : Decimal) : String :=
  let ds := toString d.digits
  let e := d.exponent + (ds.length - 1 : Nat)
  let sign := if plus && 0 ≤ e then "+" else ""
  match ds.toList with
  | [] => ""
  | [c] => String.ofList [c] ++ "e" ++ sign ++ toString e
  | c :: rest => String.ofList (c :: '.' :: rest) ++ "e" ++ sign ++ toString e

/-- The text of a positive finite number. -/
def layOut (l : Layout) (d : Decimal) : String :=
  let e := d.exponent + ((toString d.digits).length - 1 : Nat)
  let small := match l.least with
    | some n => e < n
    | none => false
  let large := match l.bound with
    | some n => n ≤ e
    | none => false
  if small || large then scientific l.plus d else positional l.pointAlways d

/-- The text of a number in a layout. -/
def text (l : Layout) (d : Double) : String :=
  if d.isNaN then "NaN"
  else
    let sign := if d.negative then "-" else ""
    if d.isInfinite then sign ++ "inf"
    else if d.isZero then sign ++ if l.pointAlways then "0.0" else "0"
    else sign ++ layOut l (d.magnitude.shortest l.tie)

end Double

end Logging.Number
