/-!
# Bytes as text

* `lossy`: the text of bytes in UTF-8. Each longest beginning of a character that does not go on as
  one, and each byte that begins none, becomes the replacement character.
-/

namespace Logging.Text

/-- The replacement character. -/
def replacement : Char := '\uFFFD'

/-- Whether a byte may follow in a character. -/
def isContinuation (b : UInt8) : Bool := 0x80 ≤ b && b ≤ 0xBF

/-- Whether a byte may stand second behind that first byte. -/
def isSecond (first b : UInt8) : Bool :=
  if first = 0xE0 then 0xA0 ≤ b && b ≤ 0xBF
  else if first = 0xED then 0x80 ≤ b && b ≤ 0x9F
  else if first = 0xF0 then 0x90 ≤ b && b ≤ 0xBF
  else if first = 0xF4 then 0x80 ≤ b && b ≤ 0x8F
  else isContinuation b

/-- How many bytes a character has that begins with that byte. -/
def characterLength? (first : UInt8) : Option Nat :=
  if first < 0x80 then some 1
  else if 0xC2 ≤ first && first ≤ 0xDF then some 2
  else if 0xE0 ≤ first && first ≤ 0xEF then some 3
  else if 0xF0 ≤ first && first ≤ 0xF4 then some 4
  else none

/-- How many of the bytes behind the first belong to the character, or to its beginning. -/
def following (first : UInt8) (length : Nat) (rest : List UInt8) : Nat :=
  match rest with
  | [] => 0
  | b :: more =>
    if length ≤ 1 ∨ !isSecond first b then 0
    else 1 + ((more.take (length - 2)).takeWhile isContinuation).length

/-- The code point that the bytes of a character spell. -/
def codePoint (first : UInt8) (length : Nat) (rest : List UInt8) : Nat :=
  let lead := if length = 1 then first.toNat else first.toNat % (1 <<< (7 - length))
  rest.foldl (fun n b => n * 64 + b.toNat % 64) lead

/-- The first character of some bytes, and how many of the bytes behind the first it takes. -/
def firstCharacter (first : UInt8) (rest : List UInt8) : Char × Nat :=
  match characterLength? first with
  | none => (replacement, 0)
  | some length =>
    let n := following first length rest
    if n + 1 = length then (Char.ofNat (codePoint first length (rest.take n)), n)
    else (replacement, n)

/-- The characters of bytes. -/
def lossyChars : List UInt8 → List Char
  | [] => []
  | b :: rest =>
    let (c, n) := firstCharacter b rest
    c :: lossyChars (rest.drop n)
termination_by bs => bs.length
decreasing_by simp only [List.length_drop, List.length_cons]; omega

/-- The text of bytes. -/
def lossy (b : ByteArray) : String := String.ofList (lossyChars b.toList)

end Logging.Text
