import Logging.Context
import Logging.Outcome
import Logging.Record

/-!
# Events

What the parts of a program that are not of this library tell when they are called.

* `Event`: a hook, a callback, an observer, a handler or a factory was called.
-/

namespace Logging

/-- A part of the program was called. -/
inductive Event where
  /-- An item was handled. -/
  | item (label : String)
  /-- A callback was given a fault. -/
  | callback (f : Fault)
  /-- A worker's hook ran. -/
  | hook
  /-- A factory registered for one kind was asked for a sink of the other. -/
  | factory (registered kind : String)
  /-- An observer saw a record on its way. -/
  | before (observer : String) (record : Record) (context : Context)
  /-- An observer saw how the way of a record of that level ended. -/
  | after (observer : String) (level : Level) (outcome : Outcome)
  /-- A record came to the end of its way. -/
  | terminal (record : Record)
  | note (text : String)
  deriving Repr

/-- A state in which events are kept. -/
class EventLog (σ : Type) where
  emit : Event → σ → σ

end Logging
