import Logging.Fault

/-!
# Outcomes

* `Failure`: a fault, or the payload of something that broke off.
* `Failure.followedBy`: a failure after which something else was still done.
* `Outcome`: how an operation ended.
* `Outcome.first`: of two outcomes, the first that is a failure.
* `Outcome.both`: the outcome of two steps of which the second is taken even after a fault.
-/

namespace Logging

/-- Why an operation did not end well. -/
inductive Failure where
  /-- It failed. -/
  | fault (f : Fault)
  /-- It broke off. -/
  | panic (p : PanicPayload)
  deriving DecidableEq, Repr, Inhabited

/-- How an operation ended. -/
abbrev Outcome := Except Failure Unit

/-- A failure after which something else was still done. If that broke off, it takes a fault
along. -/
def Failure.followedBy : Failure → Outcome → Failure
  | .fault _, .error (.panic p) => .panic p
  | e, _ => e

namespace Outcome

/-- The outcome of an operation that failed. -/
def fault (f : Fault) : Outcome := .error (.fault f)

/-- The outcome of an operation that broke off. -/
def panic (p : PanicPayload) : Outcome := .error (.panic p)

/-- The first failure of two outcomes. -/
def first : Outcome → Outcome → Outcome
  | .ok (), b => b
  | .error e, _ => .error e

/-- The outcome of two steps of which the second is taken even after a fault: the first failure,
except that a second step that breaks off takes the fault before it along. -/
def both : Outcome → Outcome → Outcome
  | .ok (), b => b
  | .error (.fault _), .error (.panic p) => .error (.panic p)
  | .error e, _ => .error e

/-- The outcome of a step that refused for some reason or did its work. -/
def ofExcept {ε : Type} (fault : ε → Fault) : Except ε Unit → Outcome
  | .ok () => .ok ()
  | .error e => .error (.fault (fault e))

end Outcome

end Logging
