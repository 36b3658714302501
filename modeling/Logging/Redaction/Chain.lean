import Logging.Redaction.Redactor

/-!
# Chains of redactors

* `RedactorChain`: redactors in the order in which they are applied.
* `RedactorChain.addRule`: adds a rule by pattern, unless the pattern cannot be read.
* `RedactorChain.commonSecrets`: the rules for passwords and tokens.
-/

namespace Logging

/-- Redactors in the order in which they are applied. -/
structure RedactorChain where
  redactors : List Redactor

namespace RedactorChain

def empty : RedactorChain := ⟨[]⟩

def size (c : RedactorChain) : Nat := c.redactors.length

def isEmpty (c : RedactorChain) : Bool := c.redactors.isEmpty

/-- Adds a redactor. -/
def push (c : RedactorChain) (r : Redactor) : RedactorChain := ⟨c.redactors ++ [r]⟩

/-- The redactor that replaces every match of a pattern. -/
def rule (pattern replacement : String) : Except Fault Redactor :=
  match Pattern.compile? pattern with
  | some p => .ok (.rule p replacement)
  | none => .error (.pattern pattern "not a pattern")

/-- Adds a rule. -/
def addRule (c : RedactorChain) (pattern replacement : String) : Except Fault RedactorChain :=
  (rule pattern replacement).map c.push

/-- A text after every redactor. -/
def redact (c : RedactorChain) (text : String) : String :=
  Redactor.redactAll c.redactors text

/-- The chain as one redactor. -/
def asRedactor (c : RedactorChain) : Redactor := .chain c.redactors

/-- The chain with the number of its redactors. -/
def shown (c : RedactorChain) : String :=
  "RedactorChain \x7b rules: " ++ toString c.size ++ " \x7d"

/-- Values that are assigned to the usual names of secrets. -/
def assignedSecret : String :=
  "(?i)\\b(password|passwd|pwd|secret|token|api[_-]?key)=\\S+"

/-- Tokens behind the word `bearer`. -/
def bearerToken : String :=
  "(?i)\\bbearer\\s+[A-Za-z0-9\\-._~+/]+=*"

/-- Access keys that begin with `AKIA`. -/
def accessKey : String :=
  "\\bAKIA[0-9A-Z]\x7b16\x7d\\b"

/-- The rules for common secrets, in order. -/
def secretRules : List (String × String) :=
  [(assignedSecret, "$1=***"), (bearerToken, "Bearer ***"), (accessKey, "AKIA****************")]

/-- A chain that masks common secrets. -/
def commonSecrets : Except Fault RedactorChain :=
  secretRules.foldlM (fun c r => c.addRule r.1 r.2) empty

end RedactorChain

end Logging
