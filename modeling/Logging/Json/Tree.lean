import Logging.Json.Token
import Logging.Json.Value

/-!
# Reading JSON text

A text is first read into a `Tree`, which checks the grammar only. What a reader looks at is then
checked further: strings must have a text, numbers must be in range and arrays and objects must not
nest too deeply. A part that nobody looks at is held to the grammar alone.

* `Tree.parse?`: the tree of a text.
* `Numeral.number?`: the value of a number.
* `Tree.value?`: the value of a tree in which everything is looked at.
-/

namespace Logging.Json

open Number

/-- JSON text by its structure. -/
inductive Tree where
  | null
  | bool (b : Bool)
  | number (n : Numeral)
  | string (text : Option String)
  | array (items : List Tree)
  | object (members : List (Option String × Tree))
  deriving Inhabited

/-- An array or an object that is still open; its parts are kept last first. -/
inductive Frame where
  | array (items : List Tree)
  | object (members : List (Option String × Tree)) (name : Option String)

/-- What may come next. -/
inductive Expect where
  | value
  | itemOrClose
  | nameOrClose (members : List (Option String × Tree))
  | name (members : List (Option String × Tree))
  | colon
  | commaOrClose
  | nothing

/-- A reader's state: the open arrays and objects, innermost first, what may come next and the
value that is complete. -/
structure Reader where
  frames : List Frame
  expect : Expect
  result : Option Tree

/-- Takes a complete value. -/
def Reader.take (r : Reader) (v : Tree) : Reader :=
  match r.frames with
  | [] => ⟨[], .nothing, some v⟩
  | .array items :: fs => ⟨.array (v :: items) :: fs, .commaOrClose, none⟩
  | .object members name :: fs => ⟨.object ((name, v) :: members) name :: fs, .commaOrClose, none⟩

/-- Begins a value. -/
def Reader.begin (r : Reader) (t : Token) : Option Reader :=
  match t with
  | .null => some (r.take .null)
  | .true => some (r.take (.bool Bool.true))
  | .false => some (r.take (.bool Bool.false))
  | .number n => some (r.take (.number n))
  | .string s => some (r.take (.string s))
  | .openArray => some ⟨.array [] :: r.frames, .itemOrClose, none⟩
  | .openObject => some ⟨r.frames, .nameOrClose [], none⟩
  | _ => none

/-- Reads one token. -/
def Reader.step (r : Reader) (t : Token) : Option Reader :=
  match r.expect with
  | .value => r.begin t
  | .itemOrClose =>
    if t = .closeArray then
      match r.frames with
      | .array items :: fs => some (Reader.take ⟨fs, .value, none⟩ (.array items.reverse))
      | _ => none
    else r.begin t
  | .nameOrClose members =>
    match t with
    | .closeObject => some (Reader.take ⟨r.frames, .value, none⟩ (.object members.reverse))
    | .string s => some ⟨.object members s :: r.frames, .colon, none⟩
    | _ => none
  | .name members =>
    match t with
    | .string s => some ⟨.object members s :: r.frames, .colon, none⟩
    | _ => none
  | .colon => if t = .colon then some { r with expect := .value } else none
  | .commaOrClose =>
    match r.frames, t with
    | .array items :: fs, .comma => some ⟨.array items :: fs, .value, none⟩
    | .array items :: fs, .closeArray =>
      some (Reader.take ⟨fs, .value, none⟩ (.array items.reverse))
    | .object members _ :: fs, .comma => some ⟨fs, .name members, none⟩
    | .object members _ :: fs, .closeObject =>
      some (Reader.take ⟨fs, .value, none⟩ (.object members.reverse))
    | _, _ => none
  | .nothing => none

/-- The tree of a text, if the text is one JSON value. -/
def Tree.parse? (text : String) : Option Tree := do
  let ts ← tokens? text
  let r ← ts.foldlM Reader.step ⟨[], .value, none⟩
  r.result

/-- A number without point and exponent, or a double. -/
inductive Number where
  | int (n : Int)
  | float (d : Double)
  deriving DecidableEq, Repr

/-- The significand and the exponent of the digits that are used: digits are taken while they fit
into 64 bits; from then on digits in front of the point count as zeros and digits behind it are
left out. The flag says whether all digits fitted. -/
def takeSignificand (fitting : Nat × Nat × Bool) (d : Nat) : Nat × Nat × Bool :=
  let (significand, left, fits) := fitting
  if fits ∧ significand * 10 + d < UInt64.size then (significand * 10 + d, left, true)
  else (significand, left + 1, false)

/-- Ten to a power, as a double. -/
def tenTo (n : Nat) : Float :=
  Float.ofScientific 1 false n

/-- Scales a double by a power of ten: by one multiplication or division, after divisions by
`1e308` while the exponent is below `-308`. Fails where the result would not be finite. -/
def scale? : Nat → Float → Int → Option Float
  | 0, f, _ => some f
  | fuel + 1, f, e =>
    if e.natAbs ≤ 308 then
      if 0 ≤ e then
        let r := f * tenTo e.toNat
        if r.isInf then none else some r
      else some (f / tenTo (-e).toNat)
    else if f == 0.0 then some f
    else if 0 ≤ e then none
    else scale? fuel (f / tenTo 308) (e + 308)

/-- The exponent that is spelled, cut to the range of 32 bits. `none` if it is too long for it. -/
def spelledExponent? (ds : List Nat) : Option Nat :=
  let n := ds.foldl (fun n d => 10 * n + d) 0
  if n < 1 <<< 31 then some n else none

/-- The value of a spelled number. A number that is spelled without point and exponent stays an
integer while it fits into 64 bits; negative zero does not. -/
def Numeral.number? (n : Numeral) : Option Number :=
  let (significand, left, fits) := n.whole.foldl takeSignificand (0, 0, true)
  let signed (f : Float) : Number := .float (Double.ofFloat (if n.negative then -f else f))
  let fractionDigits := n.fraction.getD []
  let (significand', used) := fractionDigits.foldl
    (fun (acc : (Nat × Nat × Bool) × Nat) d =>
      let next := takeSignificand acc.1 d
      (next, if next.2.2 then acc.2 + 1 else acc.2))
    ((significand, 0, true), 0)
  let start : Int := (left : Int) - used
  match n.fraction, n.exponent with
  | none, none =>
    if !fits then (scale? 20 (Float.ofNat significand) left).map signed
    else if !n.negative then some (.int significand)
    else if 0 < significand ∧ significand ≤ 1 <<< 63 then some (.int (-significand))
    else some (signed (Float.ofNat significand))
  | _, none => (scale? 20 (Float.ofNat significand'.1) start).map signed
  | _, some (negative, ds) =>
    match spelledExponent? ds with
    | none => if significand'.1 ≠ 0 ∧ !negative then none else some (signed 0.0)
    | some e =>
      (scale? 20 (Float.ofNat significand'.1) (if negative then start - e else start + e)).map
        signed

/-- How deeply arrays and objects may nest. -/
def nestingLimit : Nat := 127

mutual

/-- The value of a tree that nests at most so deeply. -/
def Tree.value? : Nat → Tree → Option Json
  | _, .null => some .null
  | _, .bool b => some (.bool b)
  | _, .number n => n.number?.map fun
    | .int i => .int i
    | .float d => .float d
  | _, .string s => s.map .string
  | 0, .array _ => none
  | 0, .object _ => none
  | depth + 1, .array items => (Tree.values? depth items).map .array
  | depth + 1, .object members => (Tree.members? depth members).map .object

/-- The values of a list of trees. -/
def Tree.values? : Nat → List Tree → Option (List Json)
  | _, [] => some []
  | depth, t :: rest => do
    let v ← Tree.value? depth t
    let vs ← Tree.values? depth rest
    some (v :: vs)

/-- The values of the members of an object. -/
def Tree.members? : Nat → List (Option String × Tree) → Option (List (String × Json))
  | _, [] => some []
  | depth, (name, t) :: rest => do
    let k ← name
    let v ← Tree.value? depth t
    let vs ← Tree.members? depth rest
    some ((k, v) :: vs)

end

/-- The value that a text denotes, with every part of it checked. -/
def read? (text : String) : Option Json :=
  (Tree.parse? text).bind (Tree.value? nestingLimit)

end Logging.Json
