import Logging.Middleware.Course
import Logging.Middleware.Sampling
import Logging.Redaction.Chain

/-!
# Stages

A stage stands on the way of a record. It lets the record go on, changed or not, or holds it back. A
stage keeps counts, and one stage may stand on several ways; so stages have numbers, and the counts
are kept under them.

* `Stage`: the kinds of stages.
* `Draws`: what random samplers draw.
* `Course.follow`: what a function of the program does, given the rest of the way.
* `Stage.handle`: what a stage does, given the rest of the way.
* `onward`: the way through a list of stages to the end.
-/

namespace Logging

/-- What stands on the way of a record. -/
inductive Stage where
  /-- Holds back what is below a level. -/
  | levelFilter (lowest : Level)
  /-- Sets the timestamp, unless there is one. -/
  | timestamp (clock : Time.Instant)
  /-- Adds the values of these names from the context, as far as fields are absent. -/
  | contextKeys (keys : List String)
  /-- Adds fields that are absent. -/
  | staticFields (fields : Fields)
  /-- Masks the message. -/
  | redact (chain : RedactorChain)
  | sampler (s : Sampler)
  | random (s : RandomSampler)
  /-- Tells what comes by and how it ends. -/
  | observer (name : String) (before after : Bool)
  /-- A function of the program. -/
  | custom (m : Custom)

/-- Stages, by number. -/
abbrev Stages := Array Stage

/-- The way that a record goes: through stages, to an end in the rest of the state. -/
abbrev Way (σ : Type) := Context → Record → Stages → σ → Outcome × Stages × σ

/-- What random samplers draw: for the stage of each number, one draw after the other. -/
abbrev Draws := Nat → Nat → Number.Double

/-- Whether an operation broke off. -/
def Outcome.isPanic : Outcome → Bool
  | .error (.panic _) => true
  | _ => false

namespace Stage

def shownFlag (b : Bool) : String := if b then "true" else "false"

/-- How a stage is shown that masks or tells. -/
def shown? : Stage → Option String
  | redact chain => some ("Redact \x7b chain: " ++ chain.shown ++ " \x7d")
  | observer _ before after =>
    some ("Observer \x7b before: " ++ shownFlag before ++ ", after: " ++ shownFlag after ++ " \x7d")
  | _ => none

variable {σ : Type} [EventLog σ]

/-- Tells an event, if it is wanted. -/
def tell (wanted : Bool) (e : Event) (s : σ) : σ := if wanted then EventLog.emit e s else s

/-- A record with the values of these names from the context, as far as fields are absent. -/
def withContext (keys : List String) (c : Context) (r : Record) : Record :=
  { r with fields := keys.foldl (fun f k =>
      match c.get? k with
      | some v => f.insertIfAbsent k v
      | none => f) r.fields }

/-- A record whose message is masked. -/
def masked (chain : RedactorChain) (r : Record) : Record :=
  if chain.isEmpty then r else { r with message := chain.redact r.message }

/-- What the stage remembers, if it is a function of the program. -/
def memory : Stage → Fields
  | custom m => m.memory
  | _ => .empty

/-- A stage that remembers something else. -/
def remembering (memory : Fields) : Stage → Stage
  | custom m => custom { m with memory }
  | x => x

end Stage

section Ways

variable {σ : Type} [EventLog σ]

/-- Follows the course that the stage of that number takes, given the rest of the way. -/
def Course.follow (id : Nat) (next : Way σ) : Course → Stages → σ → Outcome × Stages × σ
  | answer o, st, s => (o, st, s)
  | call c r go, st, s =>
    let (o, st, s) := next c r st s
    (go o).follow id next st s
  | tell e go, st, s => go.follow id next st (EventLog.emit e s)
  | consult go, st, s => (go ((st[id]?.map Stage.memory).getD .empty)).follow id next st s
  | remember memory go, st, s => go.follow id next (st.modify id (Stage.remembering memory)) s

/-- What the stage of that number does with a record, given the rest of the way. -/
def Stage.handle (draws : Draws) (id : Nat) (next : Way σ) : Way σ := fun c r st s =>
  match st[id]? with
  | none => next c r st s
  | some (.levelFilter lowest) => if r.level < lowest then (.ok (), st, s) else next c r st s
  | some (.timestamp clock) =>
    next c { r with timestamp := some (r.timestamp.getD clock) } st s
  | some (.contextKeys keys) => next c (withContext keys c r) st s
  | some (.staticFields fields) => next c { r with fields := r.fields.mergeMissing fields } st s
  | some (.redact chain) => next c (masked chain r) st s
  | some (.sampler x) =>
    let (kept, x) := x.decide r.level
    let st := st.setIfInBounds id (.sampler x)
    if kept then next c r st s else (.ok (), st, s)
  | some (.random x) =>
    let (kept, x) := x.decide (draws id) r.level
    let st := st.setIfInBounds id (.random x)
    if kept then next c r st s else (.ok (), st, s)
  | some (.observer name before after) =>
    let (o, st, s) := next c r st (tell before (.before name r c) s)
    (o, st, tell (after && !(Outcome.isPanic o)) (.after name r.level o) s)
  | some (.custom m) => (m.act c r).follow id next st s

/-- The way through stages, the first one first, to an end. -/
def onward (draws : Draws) (arrive : Record → σ → Outcome × σ) : List Nat → Way σ
  | [] => fun _ r st s =>
    let (o, s) := arrive r s
    (o, st, s)
  | id :: rest => Stage.handle draws id (onward draws arrive rest)

end Ways

end Logging
