import Logging.Event
import Logging.Worker.Machine

/-!
# Workers for trying out

* `Item`: an item that fails or breaks off for the first few tries.
* `Bench`: a worker for such items, which can be held before each try.
-/

namespace Logging.Worker

/-- An item for trying out. -/
structure Item where
  /-- Tells items apart. -/
  number : Nat
  label : String
  /-- How many tries do not succeed; none does, if there is no number. -/
  failures : Option Nat := some 0
  /-- What those tries leave behind, if they break off. -/
  panic : Option PanicPayload := none
  deriving DecidableEq, Repr, Inhabited

namespace Item

/-- Whether the try after so many others succeeds. -/
def succeeds (x : Item) (tries : Nat) : Bool :=
  match x.failures with
  | some n => n ≤ tries
  | none => false

/-- The outcome of the try after so many others. -/
def outcome (x : Item) (tries : Nat) : Outcome :=
  if x.succeeds tries then .ok ()
  else match x.panic with
    | some p => Outcome.panic p
    | none => Outcome.fault (.other ("item " ++ x.label ++ " failed"))

end Item

/-- A worker for items. -/
structure Bench where
  machine : Machine Item
  /-- Whether the worker has to wait before it tries an item. -/
  held : Bool := false
  /-- The number of the next item. -/
  next : Nat := 0
  /-- The numbers of the items that were tried, once for each try. -/
  tries : List Nat := []
  deriving Repr, Inhabited

/-- A state with events that may come from the background. -/
class BackgroundLog (σ : Type) where
  emitBehind : Event → σ → σ

namespace Bench

variable {σ : Type} [BackgroundLog σ]

open BackgroundLog

/-- What the worker does with items. -/
def work : Work Item (List Nat × σ) where
  process x s :=
    (x.outcome (s.1.count x.number), x.number :: s.1, emitBehind (.item x.label) s.2)
  notify f s := (s.1, emitBehind (.callback f) s.2)
  finish h s := (s.1, if h = .runs then emitBehind .hook s.2 else s.2)

/-- One step of the worker, unless there is nothing to do or the worker has to wait. -/
def advance? (b : Bench) (s : σ) : Option (Bench × σ) :=
  if b.held ∧ b.machine.inHand.isSome then none
  else
    match b.machine.step work (b.tries, s) with
    | some (m, tries, s) => some ({ b with machine := m, tries }, s)
    | none => none

/-- So many steps of the worker, or fewer. -/
def advance : Nat → Bench → σ → Bench × σ
  | 0, b, s => (b, s)
  | n + 1, b, s =>
    match b.advance? s with
    | some (b, s) => advance n b s
    | none => (b, s)

/-- The worker does what there is to do. -/
def settle (b : Bench) (s : σ) : Bench × σ := advance b.machine.remaining b s

/-- Offers an item, with a number of its own. -/
def submit (b : Bench) (x : Item) : Submission × Bench :=
  let (r, m) := b.machine.submit { x with number := b.next }
  (r.submission, { b with machine := m, next := b.next + 1 })

/-- Refuses an item that waited for room until the worker closed. -/
def refuse (b : Bench) : Bench := { b with machine := b.machine.count .rejected }

/-- Stops the worker. -/
def stop (b : Bench) (s : σ) : Outcome × Bench × σ :=
  let (o, m, tries, s) := b.machine.stop work (b.tries, s)
  (o, { b with machine := m, held := false, tries }, s)

end Bench

end Logging.Worker
