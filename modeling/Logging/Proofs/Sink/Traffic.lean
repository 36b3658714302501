import Logging.Proofs.Worker.Steps
import Logging.Sink.Queue

/-!
# What passes through a queue in front of a sink

Payloads come to the sink behind a queue by two ways: the worker takes them from the queue, and
those that find the queue full are written at once. The history lists what is offered to the queue,
what is written to the sink behind, and who is closed.

* `Destination.recorded`: the same sink, with a history of what is written to it by one way.
* `Line.run`: a queue with the sink behind it, where writes, steps of the worker and closing come in
  any order.
-/

namespace Logging.Sink

open Worker

variable {σ : Type}

/-- The way by which a payload comes to the sink behind a queue. -/
inductive Way where
  | atOnce
  | throughQueue
  deriving DecidableEq

/-- A payload that was written to a queue, how many others waited there, and the outcome. -/
structure Offer where
  payload : ByteArray
  waiting : ℕ
  outcome : Outcome

/-- What passes between somebody who writes, a queue, and the sink behind it. -/
inductive Traffic where
  | offered (x : Offer)
  /-- A payload was written to the sink behind. -/
  | written (way : Way) (p : ByteArray)
  /-- The sink behind was closed. -/
  | closedBehind
  /-- The queue was closed. -/
  | closed (o : Outcome)

namespace Traffic

def offer? : Traffic → Option Offer
  | offered x => some x
  | _ => none

def write? : Traffic → Option (Way × ByteArray)
  | written way p => some (way, p)
  | _ => none

def isClosing : Traffic → Bool
  | closedBehind => true
  | closed _ => true
  | _ => false

/-- What may come after what: a sink behind that was closed is left alone, and a queue that was
closed refuses everything and passes nothing on. -/
def Follows : Traffic → Traffic → Prop
  | closedBehind, b => b.write? = none ∧ b ≠ closedBehind
  | closed _, b => b.write? = none ∧ b ≠ closedBehind ∧
      ∀ x, b = offered x → x.outcome = closedOutcome Queue.name
  | _, _ => True

end Traffic

def offers (h : List Traffic) : List Offer := h.filterMap Traffic.offer?

/-- The writes to the sink behind. -/
def writes (h : List Traffic) : List (Way × ByteArray) := h.filterMap Traffic.write?

/-- The payloads that came to the sink behind by one way. -/
def writtenBy (way : Way) (h : List Traffic) : List ByteArray :=
  ((writes h).filter (·.1 = way)).map Prod.snd

/-- The offers that were taken. -/
def takes (h : List Traffic) : List Offer := (offers h).filter (·.outcome = .ok ())

/-- The payloads that were taken while the queue of that length was full. -/
def takenFull (n : ℕ) (h : List Traffic) : List ByteArray :=
  ((takes h).filter (·.waiting = n)).map Offer.payload

/-- The payloads that were taken while the queue of that length had room. -/
def takenFree (n : ℕ) (h : List Traffic) : List ByteArray :=
  ((takes h).filter (·.waiting ≠ n)).map Offer.payload

/-- How many writes found the queue of that length full. -/
def foundFull (n : ℕ) (h : List Traffic) : ℕ := (offers h).countP (·.waiting = n)

/-- The same sink, with a history of what is written to it by one way. -/
def Destination.recorded (way : Way) (d : Destination σ) : Destination (List Traffic × σ) where
  name s := d.name s.2
  write p s :=
    let (o, t) := d.write p s.2
    (o, s.1 ++ [.written way p], t)
  flush s :=
    let (o, t) := d.flush s.2
    (o, s.1, t)
  close s :=
    let (o, t) := d.close s.2
    (o, s.1 ++ [.closedBehind], t)

/-- The sink accepts every write in such states, and stays in such a state. -/
def Destination.Accepts (d : Destination σ) (Ready : σ → Prop) : Prop :=
  ∀ p s, Ready s → (d.write p s).1 = .ok () ∧ Ready (d.write p s).2

/-- What stands around a queue: the sink behind it, and the effects of its policy and its hook. -/
structure Surroundings (σ : Type) where
  inner : Destination σ
  notify : Fault → σ → σ
  finish : Hook → σ → σ

/-- The worker's effects, with a history. -/
def Surroundings.work (e : Surroundings σ) : Work ByteArray (List Traffic × σ) :=
  Queue.work (e.inner.recorded .throughQueue) (fun f s => (s.1, e.notify f s.2))
    fun h s => (s.1, e.finish h s.2)

/-- A queue, everything that has passed, and what is around it. -/
structure Line (σ : Type) where
  queue : Queue
  history : List Traffic := []
  state : σ

/-- A move of somebody who writes, of the worker, or of somebody who closes the queue. -/
inductive Line.Move where
  | write (p : ByteArray)
  /-- The worker takes a step, if there is something to do. -/
  | deliver
  | close

namespace Line

/-- One move. -/
def move (e : Surroundings σ) (c : Line σ) : Move → Line σ
  | .write p =>
    let (o, q, h, s) := c.queue.write (e.inner.recorded .atOnce) p (c.history, c.state)
    ⟨q, h ++ [.offered ⟨p, c.queue.machine.queue.length, o⟩], s⟩
  | .deliver =>
    match c.queue.machine.step e.work (c.history, c.state) with
    | some (m, h, s) => ⟨{ c.queue with machine := m }, h, s⟩
    | none => c
  | .close =>
    let (o, q, h, s) := c.queue.close (e.inner.recorded .atOnce) e.work (c.history, c.state)
    ⟨q, h ++ [.closed o], s⟩

/-- Several moves. -/
def run (e : Surroundings σ) (c : Line σ) (ms : List Move) : Line σ := ms.foldl (move e) c

end Line

section Lists

variable (h k : List Traffic)

@[simp] theorem offers_append : offers (h ++ k) = offers h ++ offers k := by simp [offers]

@[simp] theorem writes_append : writes (h ++ k) = writes h ++ writes k := by simp [writes]

@[simp] theorem writtenBy_append (way : Way) :
    writtenBy way (h ++ k) = writtenBy way h ++ writtenBy way k := by
  simp [writtenBy]

@[simp] theorem takenFull_append (n : ℕ) :
    takenFull n (h ++ k) = takenFull n h ++ takenFull n k := by
  simp [takenFull, takes]

@[simp] theorem takenFree_append (n : ℕ) :
    takenFree n (h ++ k) = takenFree n h ++ takenFree n k := by
  simp [takenFree, takes]

@[simp] theorem foundFull_append (n : ℕ) :
    foundFull n (h ++ k) = foundFull n h + foundFull n k := by
  simp [foundFull]

end Lists

section Single

variable {b : Traffic} {n : ℕ}

/-- An item of the history that is no offer and no write leaves the lists as they are. -/
theorem lists_other (ho : b.offer? = none) (hw : b.write? = none) :
    (∀ way, writtenBy way [b] = []) ∧ takenFull n [b] = [] ∧ takenFree n [b] = [] ∧
      foundFull n [b] = 0 := by
  simp [offers, writtenBy, writes, takenFull, takenFree, takes, foundFull, ho, hw]

theorem writtenBy_written (v way : Way) (p : ByteArray) :
    writtenBy way [.written v p] = if v = way then [p] else [] := by
  by_cases hv : v = way <;> simp [writtenBy, writes, Traffic.write?, hv]

theorem offers_written (way : Way) (p : ByteArray) : offers [.written way p] = [] := rfl

theorem foundFull_written (way : Way) (p : ByteArray) : foundFull n [.written way p] = 0 := rfl

theorem takenFull_written (way : Way) (p : ByteArray) : takenFull n [.written way p] = [] := by
  simp [takenFull, takes, offers_written]

theorem takenFree_written (way : Way) (p : ByteArray) : takenFree n [.written way p] = [] := by
  simp [takenFree, takes, offers_written]

theorem offers_offered (x : Offer) : offers [.offered x] = [x] := rfl

theorem writtenBy_offered (way : Way) (x : Offer) : writtenBy way [.offered x] = [] := rfl

theorem takenFull_offered (x : Offer) : takenFull n [.offered x] =
    if x.outcome = .ok () ∧ x.waiting = n then [x.payload] else [] := by
  by_cases h₁ : x.outcome = .ok () <;> by_cases h₂ : x.waiting = n <;>
    simp [takenFull, takes, offers_offered, h₁, h₂]

theorem takenFree_offered (x : Offer) : takenFree n [.offered x] =
    if x.outcome = .ok () ∧ x.waiting ≠ n then [x.payload] else [] := by
  by_cases h₁ : x.outcome = .ok () <;> by_cases h₂ : x.waiting = n <;>
    simp [takenFree, takes, offers_offered, h₁, h₂]

theorem foundFull_offered (x : Offer) :
    foundFull n [.offered x] = if x.waiting = n then 1 else 0 := by
  by_cases h : x.waiting = n <;> simp [foundFull, offers_offered, h]

end Single

/-- Everything that came to the sink behind came by one of the two ways. -/
theorem writes_perm (h : List Traffic) :
    (writtenBy .atOnce h ++ writtenBy .throughQueue h).Perm ((writes h).map Prod.snd) := by
  have hway : ∀ x : Way × ByteArray, decide (x.1 = .throughQueue) = !decide (x.1 = .atOnce) := by
    rintro ⟨_ | _, p⟩ <;> rfl
  have := List.filter_append_perm (fun x : Way × ByteArray => decide (x.1 = .atOnce)) (writes h)
  simpa [writtenBy, hway] using this.map Prod.snd

/-- Everything that was taken was taken while the queue was full or while it was not. -/
theorem takes_perm (n : ℕ) (h : List Traffic) :
    (takenFull n h ++ takenFree n h).Perm ((takes h).map Offer.payload) := by
  have := List.filter_append_perm (fun x : Offer => decide (x.waiting = n)) (takes h)
  simpa [takenFull, takenFree] using this.map Offer.payload

end Logging.Sink
