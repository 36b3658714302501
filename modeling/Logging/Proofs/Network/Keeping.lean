import Logging.Network.Background
import Logging.Proofs.Sink.Keeping

/-!
# What the background keeps

A property that only looks at the sinks of a network is kept when something is told, printed or put
off. So what every write keeps, a worker keeps, and the background until it comes to rest.

* `Network.OfCells`: the property only looks at the sinks.
* `Network.makeUp_keeps`, `Network.goOn_keeps`: a delivery that had to wait goes on.
* `Network.deliver?_keeps`: **a step of a worker keeps what writes keep.**
* `Network.settle_keeps`: **the background keeps what every step keeps**, until it comes to rest.
-/

namespace Logging.Network

open Sink Worker

variable {I : Network → Prop} {w w' : Network} {id : SinkId}

/-- The property only looks at the sinks. -/
def OfCells (I : Network → Prop) : Prop :=
  ∀ {v v' : Network}, I v → v'.cells = v.cells → I v'

/-! ## What is told -/

section Told

variable (hI : OfCells I)

include hI

theorem report_keeps (line : String) {w : Network} (h : I w) : I (report line w) := hI h rfl

theorem reportAll_keeps (lines : List String) : ∀ {w : Network}, I w → I (w.reportAll lines) := by
  induction lines with
  | nil => exact fun h => h
  | cons line lines ih => exact fun h => ih (report_keeps hI line h)

theorem emit_keeps (e : Event) (h : I w) : I (w.emit e) := by
  unfold emit
  split
  · exact hI h rfl
  · exact hI h rfl

theorem inBackground_keeps {α : Type} (act : Network → α × Network)
    (hact : ∀ {v}, I v → I (act v).2) (h : I w) : I (inBackground act w).2 := by
  have hbegun : I { w with background := true } := hI h rfl
  exact hI (hact hbegun) rfl

theorem notify_keeps (d : Destination Network) (f : Fault) (h : I w) : I ((work d).notify f w) :=
  inBackground_keeps hI (fun w => ((), w.emit (.callback f))) (emit_keeps hI _) h

theorem finish_keeps (d : Destination Network) (k : Hook) (h : I w) : I ((work d).finish k w) := by
  unfold work
  dsimp only
  split
  · exact inBackground_keeps hI (fun w => ((), w.emit .hook)) (emit_keeps hI _) h
  · exact h

theorem contained_keeps (x : LateWrite) (o : Outcome) (h : I w) : I (x.contained o w).2 := by
  unfold LateWrite.contained
  split
  · exact FanOut.contain_keeps (report_keeps hI) _ _ _ o h
  · exact h

end Told

/-! ## Deliveries -/

section Deliveries

variable (hI : OfCells I)
  (hpatient : ∀ (n : ℕ) (id : SinkId) (p : ByteArray) {v : Network}, I v →
    I ((patient n id).write p v).2)

include hI hpatient

/-- Writes that were left are made. -/
theorem makeUp_keeps (xs : List LateWrite) : ∀ (o : Outcome) {w : Network}, I w →
    I (makeUp xs o w).2 := by
  induction xs with
  | nil => exact fun o {w} h => h
  | cons x rest ih =>
    intro o w h
    have hmade := hpatient w.cells.size x.sink x.payload h
    unfold makeUp
    dsimp only
    split
    · exact ih _ (contained_keeps hI x _ hmade)
    · exact hI hmade rfl

/-- A delivery goes on. -/
theorem goOn_keeps {q : Queue} {inner : SinkId}
    (hset : ∀ (m : Machine ByteArray) {v : Network}, I v →
      I (v.set id (.queued { q with machine := m } inner))) (x : PausedDelivery) (h : I w) :
    I (w.goOn id q inner x) := by
  have hstart : I { w with paused := w.paused.filter fun e => e.1 ≠ id } := hI h rfl
  unfold goOn
  dsimp only
  split
  · exact hstart
  · rename_i done k o v hstep
    have hv : I v := by
      refine Machine.step_around (I := fun s => I s.2.2) (fun p s h => ?_) (fun f s h => ?_)
        (fun k s h => ?_) hstart hstep
      · have hmade : ∀ xs o, I (inBackground (makeUp xs o) s.2.2).2 := fun xs o =>
          inBackground_keeps hI _ (makeUp_keeps hI hpatient xs o) h
        unfold lateWork
        dsimp only
        split
        · exact h
        split
        · exact h
        split
        · split
          · exact hmade x.writes x.outcome
          · exact hmade x.writes x.outcome
        · split
          · exact hmade [⟨inner, p, none⟩] (.ok ())
          · exact hmade [⟨inner, p, none⟩] (.ok ())
      · exact notify_keeps hI .absent f h
      · exact finish_keeps hI .absent k h
    split
    · exact hset done hv
    · exact hset _ (hI hv rfl)

/-- **A step of a worker keeps what writes keep**, if it may put its own queue anew. -/
theorem deliver?_keeps
    (hwrite : ∀ (n : ℕ) (id : SinkId) (p : ByteArray) {v : Network}, I v →
      I ((destination n id).write p v).2)
    (hset : ∀ {q : Queue} {inner : SinkId}, w.cell id = .queued q inner →
      ∀ (m : Machine ByteArray) {v : Network}, I v →
        I (v.set id (.queued { q with machine := m } inner)))
    (hs : w.deliver? id = some w') (h : I w) : I w' := by
  unfold deliver? at hs
  split at hs
  · rename_i q inner hcell
    split at hs
    · split at hs
      · cases hs
      · cases hs
        exact goOn_keeps hI hpatient (hset hcell) _ h
    · split at hs
      · cases hs
      · rename_i m v hstep
        have hv : I v := Machine.step_around (I := I)
          (fun p _ h => inBackground_keeps hI _ (hwrite _ inner p) h)
          (fun f _ h => notify_keeps hI _ f h) (fun k _ h => finish_keeps hI _ k h) h hstep
        split at hs
        · obtain ⟨p, -, rfl⟩ := Option.map_eq_some_iff.1 hs
          exact goOn_keeps hI hpatient (hset hcell) _ h
        · cases hs
          exact hset hcell m hv
  · cases hs

end Deliveries

/-! ## Coming to rest -/

section Rest

variable (hstep : ∀ {id : SinkId} {v v' : Network}, v.deliver? id = some v' → I v → I v')

include hstep

theorem deliver_keeps (id : SinkId) : ∀ (n : ℕ) {w : Network}, I w → I (deliver id n w) := by
  intro n
  induction n with
  | zero => exact fun h => h
  | succ n ih =>
    intro w h
    unfold deliver
    split
    · rename_i hs
      exact ih (hstep hs h)
    · exact h

theorem sweep_keeps (h : I w) : I w.sweep :=
  List.foldlRecOn _ _ h fun _ h id _ => deliver_keeps hstep id _ h

/-- **The background keeps what every step of a worker keeps**, until it comes to rest. -/
theorem settle_keeps (h : I w) : I w.settle :=
  List.foldlRecOn _ _ h fun _ h _ _ => sweep_keeps hstep h

end Rest

end Logging.Network
