import Logging.Event

/-!
# Middleware that programs bring along

A program may put functions of its own on the way of a record. Such a function is given the record
and the rest of the way. It may call the rest as often as it likes, with any record, and answer what
it likes; it may tell of what it does, and remember things from one record to the next.

* `Course`: what such a function does with a record, move by move.
* `Custom`: such a function, with what it remembers.
-/

namespace Logging

/-- What a function of the program does with a record, move by move. -/
inductive Course where
  /-- It ends with that outcome. -/
  | answer (o : Outcome)
  /-- It calls the rest of the way, and goes on with how that ended. -/
  | call (c : Context) (r : Record) (next : Outcome → Course)
  | tell (e : Event) (next : Course)
  /-- It goes on with what it remembers. -/
  | consult (next : Fields → Course)
  /-- It remembers something else. -/
  | remember (memory : Fields) (next : Course)

/-- Tells an event, if it is wanted. -/
def Course.tellIf (wanted : Bool) (e : Event) (next : Course) : Course :=
  if wanted then .tell e next else next

/-- A function of the program, as it stands on the way of records. -/
structure Custom where
  act : Context → Record → Course
  /-- What it remembers, under names. -/
  memory : Fields := .empty

end Logging
