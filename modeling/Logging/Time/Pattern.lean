import Logging.Time.Zone

/-!
# Time patterns

A pattern is text with specifiers: `%` and a letter, perhaps with `-`, `_` or `0` between them to
choose how a number is filled up.

* `items?`: the items of a pattern, if every specifier in it is known.
* `format?`: the pattern with an instant put in, as a zone shows it. One known specifier, the
  lenient zone `%#z`, has no rendering.
* `fill?`: the pattern with the local time put in that a clock is read at.
-/

namespace Logging.Time

open Text

/-- How a number is filled up to its width. -/
inductive Fill where
  | none | zero | space
  deriving DecidableEq, Repr

/-- The numbers that a pattern may ask for. -/
inductive NumberItem where
  | year | century | yearOfCentury | isoYear | isoYearOfCentury | quarter | month | day
  | weekFromSunday | weekFromMonday | isoWeek | daysFromSunday | weekdayFromMonday | ordinal
  | hour | hour12 | minute | second | nanosecond | timestamp
  deriving DecidableEq, Repr

/-- The texts that a pattern may ask for. -/
inductive TextItem where
  | shortMonth | longMonth | shortWeekday | longWeekday | lowerAmPm | upperAmPm
  | decimals | decimals3 | decimals6 | decimals9 | digits3 | digits6 | digits9
  | zoneName | zoneOffset | zoneColon | zoneDoubleColon | zoneTripleColon | zoneLenient | rfc3339
  deriving DecidableEq, Repr

/-- One item of a pattern. -/
inductive Item where
  | literal (c : Char)
  | number (n : NumberItem) (fill : Fill)
  | text (t : TextItem)
  deriving DecidableEq, Repr

/-- The number that a letter asks for and how it is filled up by default. -/
def numberItem? (c : Char) : Option (NumberItem × Fill) :=
  match c with
  | 'C' => some (.century, .zero)
  | 'G' => some (.isoYear, .zero)
  | 'H' => some (.hour, .zero)
  | 'I' => some (.hour12, .zero)
  | 'M' => some (.minute, .zero)
  | 'S' => some (.second, .zero)
  | 'U' => some (.weekFromSunday, .zero)
  | 'V' => some (.isoWeek, .zero)
  | 'W' => some (.weekFromMonday, .zero)
  | 'Y' => some (.year, .zero)
  | 'd' => some (.day, .zero)
  | 'e' => some (.day, .space)
  | 'f' => some (.nanosecond, .zero)
  | 'g' => some (.isoYearOfCentury, .zero)
  | 'j' => some (.ordinal, .zero)
  | 'k' => some (.hour, .space)
  | 'l' => some (.hour12, .space)
  | 'm' => some (.month, .zero)
  | 'q' => some (.quarter, .none)
  | 's' => some (.timestamp, .none)
  | 'u' => some (.weekdayFromMonday, .none)
  | 'w' => some (.daysFromSunday, .none)
  | 'y' => some (.yearOfCentury, .zero)
  | _ => none

/-- A number with its default filling. -/
def Item.zero (n : NumberItem) : Item := .number n .zero

/-- The items that a letter stands for. -/
def letterItems? (c : Char) : Option (List Item) :=
  match c with
  | 'A' => some [.text .longWeekday]
  | 'B' => some [.text .longMonth]
  | 'D' => some [.zero .month, .literal '/', .zero .day, .literal '/', .zero .yearOfCentury]
  | 'F' => some [.zero .year, .literal '-', .zero .month, .literal '-', .zero .day]
  | 'P' => some [.text .lowerAmPm]
  | 'R' => some [.zero .hour, .literal ':', .zero .minute]
  | 'T' => some [.zero .hour, .literal ':', .zero .minute, .literal ':', .zero .second]
  | 'X' => some [.zero .hour, .literal ':', .zero .minute, .literal ':', .zero .second]
  | 'Z' => some [.text .zoneName]
  | 'a' => some [.text .shortWeekday]
  | 'b' => some [.text .shortMonth]
  | 'h' => some [.text .shortMonth]
  | 'c' => some [.text .shortWeekday, .literal ' ', .text .shortMonth, .literal ' ',
      .number .day .space, .literal ' ', .zero .hour, .literal ':', .zero .minute, .literal ':',
      .zero .second, .literal ' ', .zero .year]
  | 'n' => some [.literal '\n']
  | 'p' => some [.text .upperAmPm]
  | 'r' => some [.zero .hour12, .literal ':', .zero .minute, .literal ':', .zero .second,
      .literal ' ', .text .upperAmPm]
  | 't' => some [.literal '\t']
  | 'v' => some [.number .day .space, .literal '-', .text .shortMonth, .literal '-', .zero .year]
  | 'x' => some [.zero .month, .literal '/', .zero .day, .literal '/', .zero .yearOfCentury]
  | 'z' => some [.text .zoneOffset]
  | '+' => some [.text .rfc3339]
  | '%' => some [.literal '%']
  | c => (numberItem? c).map fun (n, fill) => [.number n fill]

/-- A number that is filled up as the pattern says. Nothing but a number can be. -/
def filledItem? (fill : Fill) (c : Char) : Option Item :=
  (numberItem? c).map fun (n, _) => .number n fill

/-- The items of a pattern; fails on an unknown or unfinished specifier. -/
def items? : List Char → Option (List Item)
  | [] => some []
  | '%' :: '-' :: c :: rest => do some ((← filledItem? .none c) :: (← items? rest))
  | '%' :: '0' :: c :: rest => do some ((← filledItem? .zero c) :: (← items? rest))
  | '%' :: '_' :: c :: rest => do some ((← filledItem? .space c) :: (← items? rest))
  | '%' :: '#' :: 'z' :: rest => (items? rest).map (.text .zoneLenient :: ·)
  | '%' :: ':' :: ':' :: ':' :: 'z' :: rest => (items? rest).map (.text .zoneTripleColon :: ·)
  | '%' :: ':' :: ':' :: 'z' :: rest => (items? rest).map (.text .zoneDoubleColon :: ·)
  | '%' :: ':' :: 'z' :: rest => (items? rest).map (.text .zoneColon :: ·)
  | '%' :: '.' :: 'f' :: rest => (items? rest).map (.text .decimals :: ·)
  | '%' :: '.' :: '3' :: 'f' :: rest => (items? rest).map (.text .decimals3 :: ·)
  | '%' :: '.' :: '6' :: 'f' :: rest => (items? rest).map (.text .decimals6 :: ·)
  | '%' :: '.' :: '9' :: 'f' :: rest => (items? rest).map (.text .decimals9 :: ·)
  | '%' :: '3' :: 'f' :: rest => (items? rest).map (.text .digits3 :: ·)
  | '%' :: '6' :: 'f' :: rest => (items? rest).map (.text .digits6 :: ·)
  | '%' :: '9' :: 'f' :: rest => (items? rest).map (.text .digits9 :: ·)
  | '%' :: c :: rest => do some ((← letterItems? c) ++ (← items? rest))
  | ['%'] => none
  | c :: rest => (items? rest).map (.literal c :: ·)

/-- A number below 256 in at least two places; its tens are written as one character. -/
def twoPlaces (n : Nat) (fill : Fill) : String :=
  let ones := Char.ofNat (48 + n % 10)
  match n / 10, fill with
  | 0, .none => String.ofList [ones]
  | 0, .space => String.ofList [' ', ones]
  | tens, _ => String.ofList [Char.ofNat (48 + tens), ones]

/-- A number with its sign, filled up to a width. Zeros stand behind the sign. -/
def places (width : Nat) (n : Int) (plus : Bool) (fill : Fill) : String :=
  let sign := if n < 0 then "-" else if plus then "+" else ""
  match fill with
  | .none => sign ++ toString n.natAbs
  | .zero => sign ++ zeroPadded (width - sign.length) n.natAbs
  | .space => pad ⟨width, none, .right, ' '⟩ (sign ++ toString n.natAbs)

/-- A year: four places, and outside the years 0 to 9999 a sign and a fifth. -/
def yearPlaces (y : Int) (fill : Fill) : String :=
  if 0 ≤ y ∧ y < 10000 then places 4 y false fill else places 5 y true fill

/-- The number that an item asks for, for what a zone shows. A century is kept as a number of eight
bits. -/
def numberText (t : Instant) (zone : Zone) (fill : Fill) : NumberItem → String
  | .year => yearPlaces t.date.year fill
  | .century => twoPlaces ((t.date.year.fdiv 100).fmod 256).toNat fill
  | .yearOfCentury => twoPlaces (t.date.year.fmod 100).toNat fill
  | .isoYear => yearPlaces t.date.isoWeek.1 fill
  | .isoYearOfCentury => twoPlaces (t.date.isoWeek.1.fmod 100).toNat fill
  | .quarter => toString t.date.quarter
  | .month => twoPlaces t.date.month fill
  | .day => twoPlaces t.date.day fill
  | .weekFromSunday => twoPlaces (t.date.weekFrom t.date.weekday) fill
  | .weekFromMonday => twoPlaces (t.date.weekFrom t.date.weekdayFromMonday) fill
  | .isoWeek => twoPlaces t.date.isoWeek.2 fill
  | .daysFromSunday => toString t.date.weekday
  | .weekdayFromMonday => toString (t.date.weekdayFromMonday + 1)
  | .ordinal => places 3 t.date.ordinal false fill
  | .hour => twoPlaces t.hour fill
  | .hour12 => twoPlaces (if t.hour % 12 = 0 then 12 else t.hour % 12) fill
  | .minute => twoPlaces t.minute fill
  | .second => twoPlaces t.second fill
  | .nanosecond => places 9 t.nanosecond false fill
  | .timestamp => places 9 (t.seconds - zone.seconds) false fill

/-- The text that an item asks for, for what a zone shows. -/
def textText? (t : Instant) (zone : Zone) : TextItem → Option String
  | .shortMonth => some (shortName (monthNames.getD (t.date.month - 1) ""))
  | .longMonth => some (monthNames.getD (t.date.month - 1) "")
  | .shortWeekday => some (shortName (weekdayNames.getD t.date.weekday ""))
  | .longWeekday => some (weekdayNames.getD t.date.weekday "")
  | .lowerAmPm => some (if t.hour < 12 then "am" else "pm")
  | .upperAmPm => some (if t.hour < 12 then "AM" else "PM")
  | .decimals => some (Instant.decimals t.nanosecond)
  | .decimals3 => some ("." ++ zeroPadded 3 (t.nanosecond / 1000000))
  | .decimals6 => some ("." ++ zeroPadded 6 (t.nanosecond / 1000))
  | .decimals9 => some ("." ++ zeroPadded 9 t.nanosecond)
  | .digits3 => some (zeroPadded 3 (t.nanosecond / 1000000))
  | .digits6 => some (zeroPadded 6 (t.nanosecond / 1000))
  | .digits9 => some (zeroPadded 9 t.nanosecond)
  | .zoneName => some zone.name
  | .zoneOffset => some (zone.offset "")
  | .zoneColon => some (zone.offset ":")
  | .zoneDoubleColon => some zone.exactOffset
  | .zoneTripleColon => some zone.hours
  | .zoneLenient => none
  | .rfc3339 => some (t.rfc3339 (zone.offset ":"))

/-- The text of one item. -/
def Item.render? (t : Instant) (zone : Zone) : Item → Option String
  | .literal c => some (String.ofList [c])
  | .number n fill => some (numberText t zone fill n)
  | .text x => textText? t zone x

/-- The text of a list of items. -/
def renderItems? (t : Instant) (zone : Zone) : List Item → Option String
  | [] => some ""
  | i :: rest => do some ((← i.render? t zone) ++ (← renderItems? t zone rest))

/-- The pattern with the instant put in, as the zone shows it. -/
def format? (pattern : String) (t : Instant) (zone : Zone) : Option String := do
  renderItems? (zone.shown t) zone (← items? pattern.toList)

/-- The pattern with the local time put in. -/
def fill? (pattern : String) (r : Reading) : Option String := format? pattern r.instant r.zone

end Logging.Time
