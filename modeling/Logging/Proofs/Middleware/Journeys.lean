import Mathlib.Logic.Function.Iterate
import Logging.Middleware.Chain

/-!
# Records on their ways, step by step

`Chain.handle` takes a record from its first stage to its end at once. Here a record goes one step
at a time, so that others may go through the same stages in between.

* `Stage.meet`: what a stage does when a record comes to it: it ends the way, lets a record go on,
  or takes a course of its own around the rest of the way.
* `onward_meet`: **a stage is its meeting around the rest of the way.**
* `Journey`: a record on its way through a chain; `Journey.step`: the next thing that happens.
* `comes_handle`: **a journey that nothing comes in between of ends as the chain handles the
  record.**
-/

namespace Logging

/-- What a stage makes of a record. -/
inductive Answer where
  /-- The way ends here. -/
  | stop (o : Outcome)
  /-- A record goes on, and nothing is left to do afterwards. -/
  | pass (c : Context) (r : Record)
  /-- There is a course to follow. -/
  | start (course : Course)

/-- Whether a record does not end here at once. -/
def Answer.passes : Answer → Bool
  | stop _ => false
  | pass .. | start _ => true

/-- The course of an observer: it tells, lets the record go on, and tells how that ended, unless it
broke off. -/
def Course.observing (name : String) (before after : Bool) (c : Context) (r : Record) : Course :=
  tellIf before (.before name r c) <| call c r fun o =>
    tellIf (after && !(Outcome.isPanic o)) (.after name r.level o) (answer o)

/-- What a stage of that number does when a record comes to it. -/
def Stage.meet (draws : Draws) (id : Nat) (c : Context) (r : Record) (st : Stages) :
    Stage → Answer × Stages
  | levelFilter lowest => (if r.level < lowest then .stop (.ok ()) else .pass c r, st)
  | timestamp clock => (.pass c { r with timestamp := some (r.timestamp.getD clock) }, st)
  | contextKeys keys => (.pass c (withContext keys c r), st)
  | staticFields fields => (.pass c { r with fields := r.fields.mergeMissing fields }, st)
  | redact chain => (.pass c (masked chain r), st)
  | sampler x =>
    (if (x.decide r.level).1 then .pass c r else .stop (.ok ()),
      st.setIfInBounds id (.sampler (x.decide r.level).2))
  | random x =>
    (if (x.decide (draws id) r.level).1 then .pass c r else .stop (.ok ()),
      st.setIfInBounds id (.random (x.decide (draws id) r.level).2))
  | observer name before after => (.start (.observing name before after c r), st)
  | custom m => (.start (m.act c r), st)

section Ways

variable {σ : Type} [EventLog σ]

/-- Goes on with what the stage of that number made of a record. -/
def Answer.around (id : Nat) (next : Way σ) (st : Stages) (s : σ) : Answer → Outcome × Stages × σ
  | stop o => (o, st, s)
  | pass c r => next c r st s
  | start course => course.follow id next st s

variable (draws : Draws) (arrive : Record → σ → Outcome × σ) {st : Stages} {id : ℕ}

theorem onward_absent (h : st[id]? = none) (rest : List ℕ) (c : Context) (r : Record) (s : σ) :
    onward draws arrive (id :: rest) c r st s = onward draws arrive rest c r st s := by
  simp only [onward, Stage.handle, h]

theorem follow_tellIf (next : Way σ) (wanted : Bool) (e : Event) (course : Course) (s : σ) :
    (Course.tellIf wanted e course).follow id next st s =
      course.follow id next st (Stage.tell wanted e s) := by
  cases wanted <;> rfl

/-- **A stage is its meeting around the rest of the way.** -/
theorem onward_meet {x : Stage} (h : st[id]? = some x) (rest : List ℕ) (c : Context) (r : Record)
    (s : σ) :
    onward draws arrive (id :: rest) c r st s =
      (x.meet draws id c r st).1.around id (onward draws arrive rest) (x.meet draws id c r st).2
        s := by
  simp only [onward, Stage.handle, h]
  cases x with
  | levelFilter lowest =>
    simp only [Stage.meet]
    split <;> rfl
  | sampler x =>
    simp only [Stage.meet]
    split <;> rfl
  | random x =>
    simp only [Stage.meet]
    split <;> rfl
  | observer name before after =>
    simp only [Stage.meet, Answer.around, Course.observing, follow_tellIf, Course.follow]
  | _ => rfl

end Ways

/-! ## Journeys -/

/-- Where a journey is: in front of stages, on the course of a stage, or at an end. -/
inductive Place where
  | facing (ids : List Nat) (c : Context) (r : Record)
  /-- The stage of that number is on its course, with these stages behind it. -/
  | amid (id : Nat) (course : Course) (behind : List Nat)
  | ended (o : Outcome)

/-- What a stage has still to do when the way behind it has ended. -/
structure Task where
  id : Nat
  go : Outcome → Course
  behind : List Nat

/-- A record on its way through a chain. -/
structure Journey where
  chain : Chain
  place : Place
  /-- What is left to do at the stages it went through, the last one first. -/
  tasks : List Task := []

namespace Journey

/-- A journey with the stages and sinks that it finds. -/
abbrev Scene := Journey × Stages × Network

def start (chain : Chain) (c : Context) (r : Record) : Journey :=
  { chain, place := .facing chain.stages c r }

/-- Where a journey is after what a stage made of a record. -/
def after (id : Nat) (behind : List Nat) : Answer → Place
  | .stop o => .ended o
  | .pass c r => .facing behind c r
  | .start course => .amid id course behind

/-- The next thing that happens on a journey. -/
def step (draws : Draws) : Scene → Scene
  | (j, st, w) =>
    match j.place with
    | .facing [] _ r =>
      let (o, w) := j.chain.arrival.handle (j.chain.attach r) w
      ({ j with place := .ended o }, st, w)
    | .facing (id :: rest) c r =>
      match st[id]? with
      | none => ({ j with place := .facing rest c r }, st, w)
      | some x =>
        let (answer, st) := x.meet draws id c r st
        ({ j with place := after id rest answer }, st, w)
    | .amid id course behind =>
      match course with
      | .answer o => ({ j with place := .ended o }, st, w)
      | .call c r go =>
        ({ j with place := .facing behind c r, tasks := ⟨id, go, behind⟩ :: j.tasks }, st, w)
      | .tell e go => ({ j with place := .amid id go behind }, st, w.emit e)
      | .consult go =>
        ({ j with place := .amid id (go ((st[id]?.map Stage.memory).getD .empty)) behind }, st, w)
      | .remember memory go =>
        ({ j with place := .amid id go behind }, st.modify id (Stage.remembering memory), w)
    | .ended o =>
      match j.tasks with
      | [] => (j, st, w)
      | ⟨id, go, behind⟩ :: tasks => ({ j with place := .amid id (go o) behind, tasks }, st, w)

variable (draws : Draws)

/-- One scene comes to another if nothing comes in between. -/
def Comes (x y : Scene) : Prop := ∃ k, (step draws)^[k] x = y

variable {draws}

theorem Comes.refl (x : Scene) : Comes draws x x := ⟨0, rfl⟩

theorem Comes.step {x y : Scene} (h : Comes draws (step draws x) y) : Comes draws x y := by
  obtain ⟨k, hk⟩ := h
  exact ⟨k + 1, hk⟩

theorem Comes.trans {x y z : Scene} (h : Comes draws x y) (h' : Comes draws y z) :
    Comes draws x z := by
  obtain ⟨k, rfl⟩ := h
  obtain ⟨k', rfl⟩ := h'
  exact ⟨k' + k, Function.iterate_add_apply _ _ _ _⟩

/-- A journey that ended, up to these tasks. -/
def arrived (chain : Chain) (tasks : List Task) (e : Outcome × Stages × Network) : Scene :=
  (⟨chain, .ended e.1, tasks⟩, e.2.1, e.2.2)

/-- A course is followed as the stage follows it, if the stages behind are gone through as they
should be. -/
theorem comes_follow {chain : Chain} {behind : List ℕ} {next : Way Network}
    (hbehind : ∀ c r tasks st w, Comes draws (⟨chain, .facing behind c r, tasks⟩, st, w)
      (arrived chain tasks (next c r st w)))
    (id : ℕ) (course : Course) (tasks : List Task) (st : Stages) (w : Network) :
    Comes draws (⟨chain, .amid id course behind, tasks⟩, st, w)
      (arrived chain tasks (course.follow id next st w)) := by
  induction course generalizing st w with
  | answer o => exact .step (.refl _)
  | call c r go ih =>
    -- the rest of the way with one more task, and then that task
    have hrest := hbehind c r (⟨id, go, behind⟩ :: tasks) st w
    refine .step (hrest.trans (.step ?_))
    exact ih _ _ _
  | tell e go ih => exact .step (ih st (w.emit e))
  | consult go ih => exact .step (ih _ st w)
  | remember memory go ih => exact .step (ih (st.modify id (Stage.remembering memory)) w)

/-- Stages that a record faces are gone through as the chain goes through them, whatever tasks are
left in front of them. A stage may send records through the stages behind it again and again; so the
induction is on the stages, for all records. -/
theorem comes_onward (chain : Chain) (ids : List ℕ) (c : Context) (r : Record) (tasks : List Task)
    (st : Stages) (w : Network) :
    Comes draws (⟨chain, .facing ids c r, tasks⟩, st, w)
      (arrived chain tasks
        (onward draws (fun r w => chain.arrival.handle (chain.attach r) w) ids c r st w)) := by
  induction ids generalizing c r tasks st w with
  | nil => exact ⟨1, rfl⟩
  | cons id rest ih =>
    refine .step ?_
    cases hx : st[id]? with
    | none =>
      rw [onward_absent _ _ hx]
      simp only [step, hx]
      exact ih c r tasks st w
    | some x =>
      rw [onward_meet _ _ hx]
      simp only [step, hx]
      generalize x.meet draws id c r st = met
      obtain ⟨o | ⟨c, r⟩ | course, st⟩ := met
      · exact .refl _
      · exact ih c r tasks st w
      · exact comes_follow ih id course tasks st w

/-- **A journey that nothing comes in between of ends as the chain handles the record.** -/
theorem comes_handle (draws : Draws) (chain : Chain) (c : Context) (r : Record) (st : Stages)
    (w : Network) :
    Comes draws (start chain c r, st, w) (arrived chain [] (chain.handle draws c r st w)) :=
  comes_onward chain chain.stages c r [] st w

end Journey

end Logging
