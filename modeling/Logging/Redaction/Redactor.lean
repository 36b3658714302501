import Logging.Fault
import Logging.Pattern.Replace

/-!
# Redactors

* `Rewrite`: what a redactor makes of a text: a text of its own, or one that it only points to.
* `Redactor`: a rule by pattern, a list of redactors, or any function of the text.
* `Redactor.redactAll`: a text after a list of redactors. What a redactor only points to is left
  aside, and the next one gets the text that this one was given.
-/

namespace Logging

/-- What a redactor makes of a text. -/
inductive Rewrite where
  /-- A text of its own. -/
  | owned (text : String)
  /-- A text that it points to, such as the given one or a part of it. -/
  | borrowed (text : String)
  deriving DecidableEq, Repr, Inhabited

namespace Rewrite

/-- The text, whichever way it is given. -/
def text : Rewrite → String
  | owned t => t
  | borrowed t => t

/-- The text that the next redactor gets. -/
def after (given : String) : Rewrite → String
  | owned t => t
  | borrowed _ => given

end Rewrite

/-- What masks parts of a text. -/
inductive Redactor where
  /-- Replaces every match of a pattern. -/
  | rule (pattern : Pattern) (replacement : String)
  | chain (redactors : List Redactor)
  | custom (rewrite : String → Rewrite)

namespace Redactor

/-- Replaces the matches of a pattern; a text without a match is only pointed to. -/
def replace (p : Pattern) (replacement text : String) : Rewrite :=
  match p.replaceAll? replacement text with
  | some t => .owned t
  | none => .borrowed text

mutual

/-- What a redactor makes of a text. -/
def rewrite : Redactor → String → Rewrite
  | rule p replacement, text => replace p replacement text
  | chain rs, text => .owned (redactAll rs text)
  | custom f, text => f text

/-- A text after a list of redactors, each given what the one before made. -/
def redactAll : List Redactor → String → String
  | [], text => text
  | r :: rs, text => redactAll rs ((rewrite r text).after text)

end

end Redactor

end Logging
