import Logging.Fault
import Logging.Time.Duration

/-!
# What becomes of faults in the background

* `Policy`: what a worker does with the fault of an item that it could not handle.
* `Policy.text`: the policy's name with its parameters.
-/

namespace Logging.Worker

/-- What a worker does with faults. -/
inductive Policy where
  /-- Nothing. -/
  | drop
  /-- Puts them into a channel that holds so many, as long as somebody may read it. -/
  | forward (capacity : Nat) (connected : Bool)
  /-- Hands them to a callback, which may break off afterwards. -/
  | callback (breaks : Option PanicPayload)
  /-- Tries the item again up to so many times, waiting longer each time. -/
  | retry (times : Nat) (backoff : Time.Duration)
  deriving DecidableEq, Repr, Inhabited

namespace Policy

/-- The policy of a worker that sets none. -/
def default : Policy := drop

/-- The policy's name with its parameters. -/
def text : Policy → String
  | drop => "Drop"
  | forward .. => "Forward"
  | callback .. => "Callback"
  | retry times backoff => "Retry(" ++ toString times ++ " x " ++ backoff.text ++ ")"

/-- How many times a failed item is tried again. -/
def retries : Policy → Nat
  | retry times _ => times
  | _ => 0

end Policy

end Logging.Worker
