import Logging.Proofs.Worker.Steps

/-!
# What happens to a worker and its items

A history lists the answers that were given to those who offered items, the tries of items, the
hook, and what became of those who closed or stopped the worker.

* `Work.recorded`: the same work, with a history of the tries and of the hook.
* `Collapses`: the items behind a list of tries, where the tries of one item count once.
* `Scene.run`: the moves of those around the worker and of the background, in any order.
-/

namespace Logging.Worker

variable {α σ : Type}

/-- Something that happens to a worker. -/
inductive Happening (α : Type) where
  /-- An item was offered, and this was the answer. -/
  | answered (x : α) (a : Answer α)
  /-- Somebody closed the queue. -/
  | closed
  /-- The worker tried an item. -/
  | tried (x : α) (o : Outcome)
  /-- The hook ran. -/
  | hook
  /-- Somebody waited for the end, with this outcome. -/
  | stopped (o : Outcome)

namespace Happening

def accepted? : Happening α → Option α
  | answered x .accepted => some x
  | _ => none

def tried? : Happening α → Option (α × Outcome)
  | tried x o => some (x, o)
  | _ => none

def isHook : Happening α → Bool
  | hook => true
  | _ => false

end Happening

/-- The items that were accepted, in the order of acceptance. -/
def accepted (h : List (Happening α)) : List α := h.filterMap Happening.accepted?

/-- The tries of items, in order. -/
def tries (h : List (Happening α)) : List (α × Outcome) := h.filterMap Happening.tried?

/-- How often the hook ran. -/
def hooks (h : List (Happening α)) : ℕ := h.countP Happening.isHook

/-- The outcomes of all tries of one item that may be tried again so many times: all but the last
fail, and the last succeeds or is the last that is allowed. -/
inductive Handling : ℕ → List Outcome → Prop
  | success (n : ℕ) : Handling n [.ok ()]
  | failure (e : Failure) : Handling 0 [.error e]
  | again {n : ℕ} {os : List Outcome} (e : Failure) :
      Handling n os → Handling (n + 1) (.error e :: os)

/-- **The items behind a list of tries**: every item stands once for all its tries, which follow
each other. -/
inductive Collapses (n : ℕ) : List (α × Outcome) → List α → Prop
  | nil : Collapses n [] []
  | item {l : List (α × Outcome)} {xs : List α} {os : List Outcome} (x : α) :
      Collapses n l xs → Handling n os → Collapses n (l ++ os.map (x, ·)) (xs ++ [x])

/-- What may come after what. Once the queue was closed nothing is accepted. Once the hook ran or
somebody has waited for the end, no item is tried and no hook runs. -/
def Follows : Happening α → Happening α → Prop
  | .closed, b => b.accepted? = none
  | .hook, b => b.accepted? = none ∧ b.tried? = none ∧ b.isHook = false
  | .stopped _, b => b.accepted? = none ∧ b.tried? = none ∧ b.isHook = false
  | _, _ => True

/-- The same work, with a history of the tries and of the hook. -/
def Work.recorded (w : Work α σ) : Work α (List (Happening α) × σ) where
  process x s :=
    let (o, t) := w.process x s.2
    (o, s.1 ++ [.tried x o], t)
  notify f s := (s.1, w.notify f s.2)
  finish h s := (s.1 ++ [.hook], w.finish h s.2)

/-- A worker, what has happened to it, and what is around it. -/
structure Scene (α σ : Type) where
  machine : Machine α
  history : List (Happening α) := []
  state : σ

/-- A move of somebody around a worker, or of the background. -/
inductive Move (α : Type) where
  /-- Somebody offers an item. -/
  | offer (x : α)
  /-- Somebody offers an item and is ready to wait for room. -/
  | wait (x : α)
  /-- The background takes a step, if there is something to do. -/
  | advance
  /-- Somebody closes the queue, as the first thing in stopping or giving up the worker. -/
  | close
  /-- Somebody stops the worker: closes the queue and waits for the end. -/
  | stop

namespace Scene

/-- An item is offered and the answer is given. -/
def offer (x : α) (c : Scene α σ) : Scene α σ :=
  let (a, m) := c.machine.submit x
  { c with machine := m, history := c.history ++ [.answered x a] }

/-- One move. Somebody who has to wait for room gets no answer. -/
def move (w : Work α σ) (c : Scene α σ) : Move α → Scene α σ
  | .offer x => c.offer x
  | .wait x => if c.machine.mustWait then c else c.offer x
  | .advance =>
    match c.machine.step w.recorded (c.history, c.state) with
    | some (m, h, s) => ⟨m, h, s⟩
    | none => c
  | .close => { c with machine := c.machine.close, history := c.history ++ [.closed] }
  | .stop =>
    let (o, m, h, s) := c.machine.stop w.recorded (c.history ++ [.closed], c.state)
    ⟨m, h ++ [.stopped o], s⟩

/-- Several moves. -/
def run (w : Work α σ) (c : Scene α σ) (ms : List (Move α)) : Scene α σ := ms.foldl (move w) c

end Scene

@[simp] theorem accepted_append (h k : List (Happening α)) :
    accepted (h ++ k) = accepted h ++ accepted k := by
  simp [accepted]

@[simp] theorem tries_append (h k : List (Happening α)) :
    tries (h ++ k) = tries h ++ tries k := by
  simp [tries]

@[simp] theorem hooks_append (h k : List (Happening α)) : hooks (h ++ k) = hooks h + hooks k := by
  simp [hooks]

@[simp] theorem accepted_tried (x : α) (os : List Outcome) :
    accepted (os.map (Happening.tried x)) = [] := by
  simp [accepted, List.filterMap_map, Function.comp_def, Happening.accepted?]

@[simp] theorem tries_tried (x : α) (os : List Outcome) :
    tries (os.map (Happening.tried x)) = os.map (x, ·) := by
  induction os with
  | nil => rfl
  | cons o os ih => simpa [tries, Happening.tried?] using ih

@[simp] theorem hooks_tried (x : α) (os : List Outcome) :
    hooks (os.map (Happening.tried x)) = 0 := by
  simp [hooks, Happening.isHook, List.countP_eq_zero]

@[simp] theorem accepted_single (e : Happening α) : accepted [e] = e.accepted?.toList := by
  simp only [accepted, List.filterMap_cons, List.filterMap_nil]
  cases e.accepted? <;> rfl

@[simp] theorem tries_single (e : Happening α) : tries [e] = e.tried?.toList := by
  simp only [tries, List.filterMap_cons, List.filterMap_nil]
  cases e.tried? <;> rfl

@[simp] theorem hooks_single (e : Happening α) : hooks [e] = if e.isHook then 1 else 0 := by
  simp [hooks, List.countP_cons]

end Logging.Worker
