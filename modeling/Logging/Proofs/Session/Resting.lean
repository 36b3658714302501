import Logging.Proofs.Network.Open
import Logging.Session.Loggers

/-!
# Sessions at rest

After each operation of a session the background comes to rest. That changes sinks as the background
does, and workers; the other objects stay as they are.

* `Session.bare`: the objects of a session, but for what workers have done.
* `Session.SameObjects`: the same objects, and the same sinks for all families.
* `Session.settle_goesOn`, `Session.openGates_goesOn`: **coming to rest and opening gates leave the
  objects as they are**, and the network goes on.
* `Session.actWithStages_goesOn`: so does an operation that lets the network go on.
-/

namespace Logging

open Sink Worker

/-! ## Workers for trying out -/

namespace Worker.Bench

/-- A worker for trying out does nothing to sinks. -/
theorem advance?_cells {b b' : Bench} {w w' : Network} (h : b.advance? w = some (b', w')) :
    w'.cells = w.cells := by
  have hbehind : ∀ (e : Event) {v : Network}, v.cells = w.cells →
      (BackgroundLog.emitBehind e v).cells = w.cells := by
    intro e v hv
    exact Network.inBackground_keeps (I := fun v => v.cells = w.cells) (fun h hc => hc.trans h) _
      (Network.emit_keeps (I := fun v => v.cells = w.cells) (fun h hc => hc.trans h) e) hv
  unfold advance? at h
  split at h
  · cases h
  · split at h
    · rename_i m tries v hstep
      cases h
      refine Machine.step_around (I := fun s : List ℕ × Network => s.2.cells = w.cells)
        (fun x s hs => hbehind (.item x.label) hs) (fun f s hs => hbehind (.callback f) hs)
        (fun k s hs => ?_) rfl hstep
      unfold work
      dsimp only
      split
      · exact hbehind _ hs
      · exact hs
    · cases h

theorem settle_cells (b : Bench) (w : Network) : (b.settle w).2.cells = w.cells := by
  suffices hadvance : ∀ (n : ℕ) (b : Bench) (w : Network), (advance n b w).2.cells = w.cells from
    hadvance _ b w
  intro n
  induction n with
  | zero => exact fun b w => rfl
  | succ n ih =>
    intro b w
    unfold advance
    split
    · rename_i hs
      exact (ih _ _).trans (advance?_cells hs)
    · rfl

end Worker.Bench

/-! ## Objects -/

/-- An object, but for what a worker has done. -/
def Object.bare : Object → Object
  | worker _ => worker default
  | o => o

theorem Object.eq_logger {o : Object} {l : Logger} (h : o.bare = .logger l) : o = .logger l := by
  cases o with
  | worker => cases h
  | _ => exact h

namespace Session

variable {s t u : Session}

/-- The objects of a session by name, but for what workers have done. -/
def bare (s : Session) : List (String × Object) := s.objects.map fun e => (e.1, e.2.bare)

/-- The same objects, but for what workers have done, and the same sinks for all families. -/
structure SameObjects (s t : Session) : Prop where
  objects : t.bare = s.bare
  roots : ∀ f : ℕ, (t.families[f]?).map Family.root = (s.families[f]?).map Family.root

namespace SameObjects

theorem refl (s : Session) : SameObjects s s := ⟨rfl, fun _ => rfl⟩

theorem trans (h : SameObjects s t) (h' : SameObjects t u) : SameObjects s u :=
  ⟨h'.objects.trans h.objects, fun f => (h'.roots f).trans (h.roots f)⟩

end SameObjects

theorem lookup_bare (name : String) : ∀ os : List (String × Object),
    (os.map fun e => (e.1, e.2.bare)).lookup name = (os.lookup name).map Object.bare := by
  intro os
  induction os with
  | nil => rfl
  | cons e os ih =>
    obtain ⟨k, o⟩ := e
    simp only [List.map_cons, List.lookup_cons]
    split
    · rfl
    · exact ih

theorem object?_bare (s : Session) (name : String) :
    (s.object? name).map Object.bare = s.bare.lookup name :=
  (lookup_bare name s.objects).symm

theorem logger?_eq_some {name : String} {l : Logger} :
    s.logger? name = some l ↔ s.bare.lookup name = some (.logger l) := by
  rw [← object?_bare, logger?]
  cases s.object? name with
  | none => simp
  | some o => cases o <;> simp [Object.bare]

theorem hasFamily_bare (s : Session) (f : ℕ) :
    s.hasFamily f = s.bare.any fun e =>
      match e.2 with
      | .logger l => l.family = f
      | _ => false := by
  rw [bare, List.any_map]
  refine List.any_congr rfl fun e => ?_
  cases h : e.2 <;> simp [Object.bare, h]

theorem held_bare (s : Session) : s.held = s.bare.flatMap fun e => s.references e.2 := by
  rw [bare, List.flatMap_map]
  refine List.flatMap_congr fun e _ => ?_
  cases e.2 <;> simp [Object.bare, references]

namespace SameObjects

theorem logger? (h : SameObjects s t) (name : String) : t.logger? name = s.logger? name := by
  refine Option.ext fun l => ?_
  rw [logger?_eq_some, logger?_eq_some, h.objects]

theorem hasFamily (h : SameObjects s t) (f : ℕ) : t.hasFamily f = s.hasFamily f := by
  rw [hasFamily_bare, hasFamily_bare, h.objects]

theorem held (h : SameObjects s t) : t.held = s.held := by
  rw [held_bare, held_bare, h.objects]
  refine List.flatMap_congr fun e _ => ?_
  cases e.2 <;> simp [references, h.roots]

end SameObjects

/-! ## Coming to rest -/

theorem settleWorkers_objects : ∀ (os : List (String × Object)) (w : Network),
    ((settleWorkers os w).1.map fun e => (e.1, e.2.bare)) = os.map fun e => (e.1, e.2.bare) := by
  intro os
  induction os with
  | nil => exact fun w => rfl
  | cons e os ih =>
    intro w
    obtain ⟨name, o⟩ := e
    cases o with
    | worker b => exact congrArg (_ :: ·) (ih _)
    | _ => exact congrArg (_ :: ·) (ih _)

theorem settleWorkers_cells : ∀ (os : List (String × Object)) (w : Network),
    (settleWorkers os w).2.cells = w.cells := by
  intro os
  induction os with
  | nil => exact fun w => rfl
  | cons e os ih =>
    intro w
    obtain ⟨name, o⟩ := e
    cases o with
    | worker b => exact (ih _).trans (b.settle_cells w)
    | _ => exact ih w

/-- **The session went on**: with the same objects, and the network went on. -/
structure GoesOn (s t : Session) : Prop where
  objects : SameObjects s t
  network : Logging.GoesOn s.network t.network

theorem GoesOn.trans (h : GoesOn s t) (h' : GoesOn t u) : GoesOn s u :=
  ⟨h.objects.trans h'.objects, h.network.trans h'.network⟩

/-- What the sinks of a session at rest are. -/
theorem settle_cells (s : Session) : s.settle.network.cells = s.network.settle.cells :=
  settleWorkers_cells _ _

/-- **Coming to rest** lets the session go on. -/
theorem settle_goesOn (s : Session) : GoesOn s s.settle :=
  ⟨⟨settleWorkers_objects _ _, fun _ => rfl⟩, s.network.settle_goesOn.congr s.settle_cells⟩

/-- **Opening gates** lets the session go on. -/
theorem openGates_goesOn (s : Session) : GoesOn s s.openGates := by
  have hobjects : ({ s with objects := s.objects.map fun e => (e.1, released e.2) } :
      Session).bare = s.bare := by
    simp only [bare, List.map_map]
    refine List.map_congr_left fun e _ => ?_
    obtain ⟨name, o⟩ := e
    cases o <;> rfl
  have hopened : GoesOn s { s with
      network := s.network.openGates
      objects := s.objects.map fun e => (e.1, released e.2) } :=
    ⟨⟨hobjects, fun _ => rfl⟩, s.network.openGates_goesOn⟩
  exact hopened.trans (settle_goesOn _)

/-- An operation on the network, and then rest. -/
theorem act_rests {α : Type} (f : Network → α × Network) (s : Session) :
    GoesOn { s with network := (f s.network).2 } (s.act f).2 :=
  settle_goesOn _

/-- An operation leaves the objects as they are. -/
theorem actWithStages_same {α : Type} (f : Stages → Network → α × Stages × Network) (s : Session) :
    SameObjects s (s.actWithStages f).2 :=
  have h := settle_goesOn { s with
    stages := (f s.stages s.network).2.1
    network := (f s.stages s.network).2.2 }
  ⟨h.objects.objects, h.objects.roots⟩

/-- An operation that lets the network go on lets the session go on. -/
theorem actWithStages_goesOn {α : Type} {f : Stages → Network → α × Stages × Network}
    (h : Logging.GoesOn s.network (f s.stages s.network).2.2) :
    GoesOn s (s.actWithStages f).2 := by
  have hdone : GoesOn s { s with
      stages := (f s.stages s.network).2.1
      network := (f s.stages s.network).2.2 } :=
    ⟨⟨rfl, fun _ => rfl⟩, h⟩
  exact hdone.trans (settle_goesOn _)

end Session

end Logging
