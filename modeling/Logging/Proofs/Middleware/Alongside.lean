import Logging.Proofs.Middleware.Journeys

/-!
# Ways side by side

Two ways through the same stages, to ends that keep different states. As long as the ends answer
alike, the stages cannot tell them apart.

* `Alongside`: two results with the same answers, in states that are related.
* `onward_simulates`: **ways to ends that answer alike end alike.**
* `onward_keeps`: **what telling and the end keep, a way keeps.**
-/

namespace Logging

variable {σ τ : Type} [EventLog σ] [EventLog τ]

/-- Two results with the same answers, in states that are related. -/
structure Alongside {α β : Type} (P : σ → τ → Prop) (e : α × β × σ) (e' : α × β × τ) : Prop where
  first : e.1 = e'.1
  second : e.2.1 = e'.2.1
  states : P e.2.2 e'.2.2

section Simulation

variable {P : σ → τ → Prop} {s : σ} {t : τ}
  (hemit : ∀ (e : Event) {s : σ} {t : τ}, P s t → P (EventLog.emit e s) (EventLog.emit e t))

include hemit

/-- A course around two ways that end alike. -/
theorem Course.follow_simulates {next : Way σ} {next' : Way τ}
    (hnext : ∀ (c : Context) (r : Record) (st : Stages) {s : σ} {t : τ}, P s t →
      Alongside P (next c r st s) (next' c r st t))
    (id : ℕ) (course : Course) (st : Stages) (h : P s t) :
    Alongside P (course.follow id next st s) (course.follow id next' st t) := by
  induction course generalizing st s t with
  | answer o => exact ⟨rfl, rfl, h⟩
  | call c r go ih =>
    obtain ⟨ho, hst, hs⟩ := hnext c r st h
    simp only [follow]
    generalize next c r st s = ended at *
    generalize next' c r st t = ended' at *
    obtain ⟨o, st, s⟩ := ended
    obtain ⟨o', st', t⟩ := ended'
    obtain rfl : o = o' := ho
    obtain rfl : st = st' := hst
    exact ih o st hs
  | tell e go ih => exact ih st (hemit e h)
  | consult go ih => exact ih _ st h
  | remember memory go ih => exact ih _ h

variable {arrive : Record → σ → Outcome × σ} {note : Record → τ → Outcome × τ}
  (harrive : ∀ (r : Record) {s : σ} {t : τ}, P s t →
    (arrive r s).1 = (note r t).1 ∧ P (arrive r s).2 (note r t).2)

include harrive

/-- **Ways through the same stages, to ends that answer alike**, end alike. A stage may send records
through all stages behind it again and again; so the induction is on the stages, for all records. -/
theorem onward_simulates (draws : Draws) (ids : List ℕ) (c : Context) (r : Record) (st : Stages)
    {s : σ} {t : τ} (h : P s t) :
    Alongside P (onward draws arrive ids c r st s) (onward draws note ids c r st t) := by
  induction ids generalizing c r st s t with
  | nil => exact ⟨(harrive r h).1, rfl, (harrive r h).2⟩
  | cons id rest ih =>
    cases hx : st[id]? with
    | none =>
      rw [onward_absent _ _ hx, onward_absent _ _ hx]
      exact ih c r st h
    | some x =>
      rw [onward_meet _ _ hx, onward_meet _ _ hx]
      generalize x.meet draws id c r st = met
      obtain ⟨o | ⟨c, r⟩ | course, st⟩ := met
      · exact ⟨rfl, rfl, h⟩
      · exact ih c r st h
      · exact Course.follow_simulates hemit (fun c r st _ _ h => ih c r st h) id course st h

end Simulation

/-- **What telling and the end keep, a way keeps.** -/
theorem onward_keeps {σ : Type} [EventLog σ] {I : σ → Prop} {arrive : Record → σ → Outcome × σ}
    (hemit : ∀ (e : Event) {s : σ}, I s → I (EventLog.emit e s))
    (harrive : ∀ (r : Record) {s : σ}, I s → I (arrive r s).2) (draws : Draws) (ids : List ℕ)
    (c : Context) (r : Record) (st : Stages) {s : σ} (h : I s) :
    I (onward draws arrive ids c r st s).2.2 := by
  -- the way beside itself
  have halong := onward_simulates (P := fun s t => s = t ∧ I s)
    (fun e _ _ h => ⟨congrArg _ h.1, hemit e h.2⟩)
    (fun r _ _ h => ⟨by rw [h.1], by rw [h.1], harrive r h.2⟩) draws ids c r st ⟨rfl, h⟩
  exact halong.states.2

end Logging
