import Logging.Pattern.Template

/-!
# Replacing every match

* `Pattern`: a pattern that is ready to be matched.
* `Pattern.compile?`: the pattern that a text spells.
* `Pattern.allMatches`: the matches in a text, one behind the other, none empty at the end of the
  one before.
* `Pattern.replaceAll?`: the text with every match replaced, if there is any.
-/

namespace Logging

/-- A pattern that is ready to be matched. -/
structure Pattern where
  text : String
  term : Pattern.Term
  names : List (String × Nat)
  deriving Repr, Inhabited

namespace Pattern

/-- The pattern that a text spells. -/
def compile? (text : String) : Option Pattern :=
  (parse? text).map fun p => ⟨text, p.expr.term, p.names⟩

/-- The next match from a spot on, where the match before ended at the spot or there was none. An
empty match at the end of the match before does not count. -/
def next? (t : Term) (s : Spot) (after : Bool) : Option (Spot × Spot) :=
  match t.find? s with
  | none => none
  | some (a, b) =>
    if after && b.index = s.index then
      match s.rest with
      | [] => none
      | c :: rest => t.find? (s.take c rest)
    else some (a, b)

/-- The matches from a spot on. Each ends behind the one before, so that there is at most one more
than there are characters. -/
def matchesFrom (t : Term) : Nat → Spot → (after : Bool) → List (Spot × Spot)
  | 0, _, _ => []
  | fuel + 1, s, after =>
    match next? t s after with
    | none => []
    | some (a, b) => (a, b) :: matchesFrom t fuel b true

/-- The matches in a text. -/
def allMatches (t : Term) (text : List Char) : List (Spot × Spot) :=
  matchesFrom t (text.length + 2) (.start text) false

/-- Puts replacements in the place of matches, copying what stands between them. -/
def splice (text : List Char) (replacement : Spot → Spot → List Char) :
    (start : Nat) → List (Spot × Spot) → List Char
  | n, [] => text.drop n
  | n, (a, b) :: rest =>
    (text.drop n).take (a.index - n) ++ replacement a b ++ splice text replacement b.index rest

/-- The text with every match replaced, if there is any. -/
def replaceAll? (p : Pattern) (template text : String) : Option String :=
  let cs := text.toList
  match allMatches p.term cs with
  | [] => none
  | ms =>
    let parts := Template.parse template
    some (String.ofList (splice cs (fun a b => Template.fill p.names cs a b parts) 0 ms))

end Pattern

end Logging
