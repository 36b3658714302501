import Logging.Outcome
import Logging.Text.Quoted
import Logging.Worker.Counters
import Logging.Worker.Policy

/-!
# Workers

A worker handles the items of a queue in the background, one at a time and in the order in which
they came. What becomes of an item that cannot be handled is up to the worker's policy.

* `Machine.submit`: puts an item into the queue, unless it is full or closed; a refusal hands it
  back.
* `Machine.step`: one step of the background: it takes the oldest item in hand, handles the item in
  hand, or ends when the queue is closed and everything is done.
* `Machine.stop`: closes the queue and lets the background come to its end.
* `attempts`: an item is tried until it succeeds or the policy allows no further try.
-/

namespace Logging.Worker

/-- Whether items are taken, and whether somebody has waited for the end. -/
inductive Phase where
  | accepting | closing | stopped
  deriving DecidableEq, Repr, Inhabited

/-- What the background does. -/
inductive Activity where
  | running
  | finished
  /-- It broke off, outside of the handling of an item. -/
  | crashed (p : PanicPayload)
  deriving DecidableEq, Repr, Inhabited

/-- What runs in the background when everything is done. -/
inductive Hook where
  | none
  | runs
  | breaks (p : PanicPayload)
  deriving DecidableEq, Repr, Inhabited

/-- The effects of a worker on what is around it. -/
structure Work (α σ : Type) where
  /-- Handles an item. -/
  process : α → σ → Outcome × σ
  /-- A callback is given a fault. -/
  notify : Fault → σ → σ
  /-- The hook runs, and perhaps breaks off after that. -/
  finish : Hook → σ → σ

/-- A worker with its queue. -/
structure Machine (α : Type) where
  name : String
  /-- The length of the queue. -/
  capacity : Nat
  policy : Policy
  hook : Hook
  /-- The items that wait, the oldest first. -/
  queue : List α := []
  /-- The item that was taken out of the queue and is not handled yet. -/
  inHand : Option α := none
  phase : Phase := .accepting
  activity : Activity := .running
  /-- Whether somebody has waited for the end. -/
  joined : Bool := false
  counters : Counters := .zero
  /-- The faults in the channel of the policy, the oldest first. -/
  channel : List Fault := []
  deriving Repr, Inhabited

/-- What became of an item that was offered. -/
inductive Submission where
  | accepted | full | closed
  deriving DecidableEq, Repr, Inhabited

/-- How a refusal is shown. -/
def Submission.text : Submission → String
  | accepted => "Ok"
  | full => "Full(..)"
  | closed => "Closed(..)"

/-- The answer to somebody who offers an item. A refusal hands it back. -/
inductive Answer (α : Type) where
  | accepted
  | full (item : α)
  | closed (item : α)
  deriving DecidableEq, Repr, Inhabited

/-- What became of the item, without the item. -/
def Answer.submission {α : Type} : Answer α → Submission
  | accepted => .accepted
  | full _ => .full
  | closed _ => .closed

/-- The name of a worker that sets none. -/
def defaultName : String := "log-worker"

variable {α σ : Type}

/-- One try of an item. One that breaks off fails with a fault that names the worker. -/
def attempt (w : Work α σ) (name : String) (x : α) (s : σ) : Except Fault Unit × σ :=
  match w.process x s with
  | (.ok (), s) => (.ok (), s)
  | (.error (.fault f), s) => (.error f, s)
  | (.error (.panic p), s) => (.error (.workerPanicked name p.text), s)

/-- An item is tried, and so many times again while it fails. Gives the fault of the last try if
none succeeded. -/
def attempts (w : Work α σ) (name : String) (x : α) :
    Nat → Counters → σ → Option Fault × Counters × σ
  | retries, c, s =>
    match attempt w name x s with
    | (.ok (), s) => (none, c.bump .processed, s)
    | (.error f, s) =>
      match retries with
      | 0 => (some f, c.bump .failed, s)
      | n + 1 => attempts w name x n (c.bump .retries) s

namespace Machine

/-- A queue that is longer does not fit into memory. -/
def capacityLimit : Nat := 1 <<< 58

/-- A worker with an empty queue. -/
def new (name : String) (capacity : Nat) (policy : Policy) (hook : Hook) :
    Except Failure (Machine α) :=
  if capacity = 0 then
    .error (.fault (.configuration "BoundedWorker" "queue capacity must be at least 1"))
  else if capacityLimit ≤ capacity then .error (.panic (.message "capacity overflow"))
  else .ok { name, capacity, policy, hook }

def count (m : Machine α) (k : Counter) : Machine α := { m with counters := m.counters.bump k }

def isClosed (m : Machine α) : Bool := m.phase ≠ .accepting

def isStopped (m : Machine α) : Bool := m.phase = .stopped

/-- Whether there is no room in the queue. -/
def isFull (m : Machine α) : Bool := m.capacity ≤ m.queue.length

/-- Whether somebody who is ready to wait for room has to. -/
def mustWait (m : Machine α) : Bool := m.isFull && !m.isClosed

/-- Offers an item. -/
def submit (m : Machine α) (x : α) : Answer α × Machine α :=
  if m.isClosed then (.closed x, m.count .rejected)
  else if m.isFull then (.full x, m.count .rejected)
  else (.accepted, { m with queue := m.queue ++ [x] }.count .submitted)

/-- What becomes of the fault of an item, by the policy. -/
def dispose (w : Work α σ) (m : Machine α) (f : Fault) (s : σ) : Machine α × σ :=
  match m.policy with
  | .drop => (m.count .dropped, s)
  | .retry _ _ => (m.count .dropped, s)
  | .forward capacity connected =>
    if connected ∧ m.channel.length < capacity then
      ({ m with channel := m.channel ++ [f] }.count .reported, s)
    else (m.count .dropped, s)
  | .callback none => (m.count .reported, w.notify f s)
  | .callback (some p) => ({ m with activity := .crashed p }, w.notify f s)

/-- Handles an item. -/
def handle (w : Work α σ) (m : Machine α) (x : α) (s : σ) : Machine α × σ :=
  match attempts w m.name x m.policy.retries m.counters s with
  | (none, c, s) => ({ m with counters := c }, s)
  | (some f, c, s) => dispose w { m with counters := c } f s

/-- The background ends: the hook runs. -/
def finish (w : Work α σ) (m : Machine α) (s : σ) : Machine α × σ :=
  match m.hook with
  | .none => ({ m with activity := .finished }, s)
  | .runs => ({ m with activity := .finished }, w.finish .runs s)
  | .breaks p => ({ m with activity := .crashed p }, w.finish (.breaks p) s)

/-- One step of the background, if there is something to do. -/
def step (w : Work α σ) (m : Machine α) (s : σ) : Option (Machine α × σ) :=
  if m.activity ≠ .running then none
  else
    match m.inHand, m.queue with
    | some x, _ => some (handle w { m with inHand := none } x s)
    | none, x :: rest => some ({ m with inHand := some x, queue := rest }, s)
    | none, [] => if m.isClosed then some (finish w m s) else none

/-- The most steps that are left to do: two for each item that waits, one for the item in hand and
one for the end. -/
def remaining (m : Machine α) : Nat := 2 * m.queue.length + m.inHand.toList.length + 1

/-- So many steps of the background, or fewer if there is nothing left to do. -/
def steps (w : Work α σ) : Nat → Machine α → σ → Machine α × σ
  | 0, m, s => (m, s)
  | n + 1, m, s =>
    match m.step w s with
    | some (m, s) => steps w n m s
    | none => (m, s)

/-- The background does everything that there is to do. -/
def drain (w : Work α σ) (m : Machine α) (s : σ) : Machine α × σ :=
  m.steps w m.remaining s

/-- No further items are taken. -/
def close (m : Machine α) : Machine α :=
  match m.phase with
  | .accepting => { m with phase := .closing }
  | _ => m

/-- The fault of a worker whose background broke off. -/
def crash? (m : Machine α) : Option PanicPayload :=
  match m.activity with
  | .crashed p => some p
  | _ => none

/-- Closes the queue and waits for the end of the background. Only the first one who waits is told
that it broke off. -/
def stop (w : Work α σ) (m : Machine α) (s : σ) : Outcome × Machine α × σ :=
  let m := m.close
  if m.joined then (.ok (), m, s)
  else
    let (m, s) := m.drain w s
    let o := match m.crash? with
      | some p => Outcome.fault (.workerPanicked m.name p.text)
      | none => .ok ()
    (o, { m with joined := true, phase := .stopped }, s)

/-- Empties the channel of the policy. -/
def takeForwarded (m : Machine α) : List Fault × Machine α :=
  (m.channel, { m with channel := [] })

/-- The worker with its name, its queue and its state. -/
def shown (m : Machine α) : String :=
  "BoundedWorker \x7b name: " ++ Text.quoted m.name ++ ", capacity: " ++ toString m.capacity ++
    ", queued: " ++ toString m.queue.length ++ ", closed: " ++
    (if m.isClosed then "true" else "false") ++ " \x7d"

end Machine

end Logging.Worker
