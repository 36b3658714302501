import Logging.Proofs.Middleware.Journeys

/-!
# Stages last

Records that are handled change what stages count and remember and nothing else, whatever stands on
their way.

* `Stage.bare`: a stage without its counts and without what it remembers.
* `SameStages`: the same stages, up to that.
* `onward_same`: **a way keeps the stages the same**, whatever stands on it.
* `Lasts`: every stage is still there, and there may be more.
* `Since`: the stages later in a program, after others were added and records were handled.
* `Since.lasts`: **stages last** in every program.
-/

namespace Logging

variable {st st' st'' : Stages} {id : Nat} {x y : Stage}

/-- A stage without its counts and without what it remembers. -/
def Stage.bare : Stage → Stage
  | sampler s => sampler { s with seen := 0, counts := {} }
  | random s => random { s with drawn := 0, counts := {} }
  | custom m => custom { m with memory := .empty }
  | x => x

theorem Stage.bare_remembering (memory : Fields) (x : Stage) :
    (x.remembering memory).bare = x.bare := by
  cases x <;> rfl

/-- The same stages, up to what they count and remember. -/
def SameStages (st st' : Stages) : Prop :=
  ∀ id : Nat, (st'[id]?).map Stage.bare = (st[id]?).map Stage.bare

theorem SameStages.refl (st : Stages) : SameStages st st := fun _ => rfl

theorem SameStages.trans (h : SameStages st st') (h' : SameStages st' st'') : SameStages st st'' :=
  fun id => (h' id).trans (h id)

/-- A stage that was counted on is the same. -/
theorem SameStages.set (hx : st[id]? = some x) (hbare : y.bare = x.bare) :
    SameStages st (st.setIfInBounds id y) := by
  intro j
  by_cases hj : id = j
  · subst hj
    have hlt : id < st.size := (Array.getElem?_eq_some_iff.1 hx).1
    rw [Array.getElem?_setIfInBounds_self_of_lt hlt, hx, Option.map_some, Option.map_some, hbare]
  · rw [Array.getElem?_setIfInBounds_ne hj]

/-- A stage that remembers something else is the same, and so are the others. -/
theorem SameStages.remember (st : Stages) (id : Nat) (memory : Fields) :
    SameStages st (st.modify id (Stage.remembering memory)) := by
  intro j
  rw [Array.getElem?_modify]
  split
  · cases st[j]? with
    | none => rfl
    | some x => exact congrArg some (x.bare_remembering memory)
  · rfl

/-- A function of the program does the same as before, whatever it remembers. -/
theorem SameStages.custom {m : Custom} (h : SameStages st st')
    (hget : st'[id]? = some (.custom m)) :
    ∃ m', st[id]? = some (.custom m') ∧ m'.act = m.act := by
  have hbare := h id
  rw [hget] at hbare
  obtain ⟨y, hy, hyx⟩ := Option.map_eq_some_iff.1 hbare.symm
  cases y with
  | custom m' =>
    simp only [Stage.bare, Stage.custom.injEq, Custom.mk.injEq, and_true] at hyx
    exact ⟨m', hy, hyx⟩
  | _ => cases hyx

/-- Every stage is still there, up to what it counts and remembers. -/
def Lasts (st st' : Stages) : Prop :=
  ∀ (id : Nat) (x : Stage), st[id]? = some x → ∃ y : Stage, st'[id]? = some y ∧ y.bare = x.bare

theorem Lasts.refl (st : Stages) : Lasts st st := fun _ x hx => ⟨x, hx, rfl⟩

theorem Lasts.trans (h : Lasts st st') (h' : Lasts st' st'') : Lasts st st'' := by
  intro id x hx
  obtain ⟨y, hy, hbare⟩ := h id x hx
  obtain ⟨z, hz, hbare'⟩ := h' id y hy
  exact ⟨z, hz, hbare'.trans hbare⟩

theorem Lasts.append (st new : Stages) : Lasts st (st ++ new) := by
  intro id x hx
  have hlt : id < st.size := (Array.getElem?_eq_some_iff.1 hx).1
  exact ⟨x, (Array.getElem?_append_left hlt).trans hx, rfl⟩

theorem SameStages.lasts (h : SameStages st st') : Lasts st st' := by
  intro id x hx
  have hbare := h id
  rw [hx] at hbare
  exact Option.map_eq_some_iff.1 hbare

/-! ## Records on their way -/

section Ways

variable {σ : Type} [EventLog σ]

/-- A way on which stages stay the same. -/
def Way.KeepsStages (way : Way σ) : Prop := ∀ c r st s, SameStages st (way c r st s).2.1

/-- The course of a stage and the rest of the way. Whatever it sends, and however often, it adds to
what the rest does only what it remembers itself. -/
theorem Course.follow_same {next : Way σ} (hnext : next.KeepsStages) (id : Nat) (course : Course)
    (st : Stages) (s : σ) : SameStages st (course.follow id next st s).2.1 := by
  induction course generalizing st s with
  | answer o => exact .refl st
  | call c r go ih => exact (hnext c r st s).trans (ih _ _ _)
  | tell e go ih => exact ih st _
  | consult go ih => exact ih _ st s
  | remember memory go ih => exact (SameStages.remember st id memory).trans (ih _ s)

/-- A stage that a record comes to counts it, at most. -/
theorem Stage.meet_same (hx : st[id]? = some x) (draws : Draws) (c : Context) (r : Record) :
    SameStages st (x.meet draws id c r st).2 := by
  cases x with
  | sampler x => exact .set hx rfl
  | random x => exact .set hx rfl
  | _ => exact .refl st

theorem onward_same (draws : Draws) (arrive : Record → σ → Outcome × σ) (ids : List Nat) :
    Way.KeepsStages (onward draws arrive ids) := by
  induction ids with
  | nil => exact fun c r st s => .refl st
  | cons id rest ih =>
    intro c r st s
    cases hx : st[id]? with
    | none =>
      rw [onward_absent _ _ hx]
      exact ih c r st s
    | some x =>
      rw [onward_meet _ _ hx]
      refine (x.meet_same hx draws c r).trans ?_
      cases (x.meet draws id c r st).1 with
      | stop o => exact .refl _
      | pass c r => exact ih c r _ s
      | start course => exact course.follow_same ih id _ s

end Ways

/-! ## Programs -/

/-- **The stages later in a program**, after others were added and records were handled by any
chains. -/
inductive Since (st : Stages) : Stages → Prop
  | same : Since st st
  | added {st' : Stages} (new : Stages) (h : Since st st') : Since st (st' ++ new)
  | handled {st' : Stages} (draws : Draws) (chain : Chain) (c : Context) (r : Record) (w : Network)
      (h : Since st st') : Since st (chain.handle draws c r st' w).2.1

/-- **Stages last** in every program. -/
theorem Since.lasts (h : Since st st') : Lasts st st' := by
  induction h with
  | same => exact .refl st
  | added new _ ih => exact ih.trans (.append _ new)
  | handled draws chain c r w _ ih =>
    exact ih.trans (onward_same draws _ chain.stages c r _ w).lasts

end Logging
