import Logging.Network.Registry
import Logging.Proofs.Network.Offering

/-!
# Sinks that nobody has used

A sink that was just made holds nothing back, and its worker has nothing to do. Giving it up can
fail but does not break off, whatever stands behind it, as long as that was just made as well.

* `Machine.Idle`: a worker without work. `Machine.Idle.stop`: it stops.
* `Cell.Calm`, `Network.Fresh`: every sink from a number on is unused.
* `Fresh.close`, `Fresh.abandon`: closing it returns, and giving it up works.
* `Fresh.releaseWithin`: **sinks that were just made are given up without trouble.**
-/

namespace Logging

open Sink

namespace Worker.Machine

variable {α σ : Type} {m : Machine α}

/-- A worker that has nothing to do and has not broken off. -/
structure Idle (m : Machine α) : Prop where
  queue : m.queue = []
  inHand : m.inHand = none
  hook : m.hook = .none
  uncrashed : m.crash? = none

theorem Idle.close (h : m.Idle) : m.close.Idle := by
  obtain ⟨p, hclose⟩ := m.close_eq
  rw [hclose]
  exact ⟨h.queue, h.inHand, h.hook, h.uncrashed⟩

/-- All that is left to do without work is to end. -/
theorem Idle.drain (h : m.Idle) (w : Work α σ) (s : σ) :
    ∃ m', m.drain w s = (m', s) ∧ m'.Idle := by
  have hremaining : m.remaining = 1 := by simp [remaining, h.queue, h.inHand]
  have hfinish : m.finish w s = ({ m with activity := .finished }, s) := by
    simp only [finish, h.hook]
  rw [Machine.drain, hremaining, steps]
  by_cases hrunning : m.activity = .running
  · by_cases hclosed : m.isClosed = true
    · refine ⟨{ m with activity := .finished }, ?_, h.queue, h.inHand, h.hook, rfl⟩
      simp [step, hrunning, h.inHand, h.queue, hclosed, hfinish, steps]
    · refine ⟨m, ?_, h⟩
      simp [step, hrunning, h.inHand, h.queue, hclosed]
  · refine ⟨m, ?_, h⟩
    simp [step, hrunning]

/-- A worker without work stops, and nothing else happens. -/
theorem Idle.stop (h : m.Idle) (w : Work α σ) (s : σ) :
    ∃ m', m.stop w s = (.ok (), m', s) ∧ m'.Idle := by
  unfold Machine.stop
  dsimp only
  split
  · exact ⟨_, rfl, h.close⟩
  · obtain ⟨m', hdrain, hm'⟩ := h.close.drain w s
    rw [hdrain]
    dsimp only
    rw [hm'.uncrashed]
    exact ⟨_, rfl, hm'.queue, hm'.inHand, hm'.hook, hm'.uncrashed⟩

end Worker.Machine

/-- A sink that holds nothing back and has nothing to do. -/
def Cell.Calm : Cell → Prop
  | console _ | file _ | rotating _ | gone => True
  | buffered b _ => b.pending.isEmpty = true
  | queued q _ => q.machine.Idle
  | _ => False

namespace Network

/-- Every sink from a number on is calm, and stands in front of such sinks only. -/
structure Fresh (base : ℕ) (w : Network) : Prop where
  size : base ≤ w.cells.size
  calm : ∀ id, base ≤ id → (w.cell id).Calm
  inside : ∀ id, base ≤ id → ∀ r ∈ (w.cell id).references, base ≤ r

variable {base id : ℕ} {w w' : Network} {c : Cell}

theorem fresh_start (w : Network) : Fresh w.cells.size w := by
  refine ⟨Nat.le_refl _, fun id hid => ?_, fun id hid => ?_⟩
  · rw [cell_of_size_le hid]
    trivial
  · rw [cell_of_size_le hid]
    simp [Cell.references]

theorem cell_add_cases (w : Network) (c : Cell) (x : ℕ) :
    (w.add c).2.cell x = c ∨ (w.add c).2.cell x = w.cell x := by
  by_cases hx : x = w.cells.size
  · exact .inl (by simp [add, cell, hx])
  · exact .inr (by simp [add, cell, Array.getElem?_push, hx])

namespace Fresh

/-- A sink is replaced, or a new one is there. -/
theorem replace (h : w.Fresh base) (hsize : base ≤ w'.cells.size)
    (hcells : ∀ x, w'.cell x = c ∨ w'.cell x = w.cell x) (hcalm : c.Calm)
    (hinside : ∀ r ∈ c.references, base ≤ r) : w'.Fresh base := by
  refine ⟨hsize, fun x hx => ?_, fun x hx => ?_⟩
  · rcases hcells x with hc | hc
    · exact hc ▸ hcalm
    · exact hc ▸ h.calm x hx
  · rcases hcells x with hc | hc
    · exact hc ▸ hinside
    · exact hc ▸ h.inside x hx

theorem set (h : w.Fresh base) (id : ℕ) (hcalm : c.Calm) (hinside : ∀ r ∈ c.references, base ≤ r) :
    (w.set id c).Fresh base :=
  h.replace (by simpa [Network.set] using h.size)
    (fun x => (cell_set_cases w id c x).imp_left And.right) hcalm hinside

theorem add (h : w.Fresh base) (hcalm : c.Calm) (hinside : ∀ r ∈ c.references, base ≤ r) :
    (w.add c).2.Fresh base :=
  h.replace (by simpa [Network.add] using Nat.le_succ_of_le h.size) (cell_add_cases w c) hcalm
    hinside

theorem congr (h : w.Fresh base) (hcells : w'.cells = w.cells) : w'.Fresh base := by
  have hcell : ∀ id, w'.cell id = w.cell id := fun id => by rw [cell, cell, hcells]
  exact ⟨hcells ▸ h.size, fun id hid => hcell id ▸ h.calm id hid,
    fun id hid => hcell id ▸ h.inside id hid⟩

theorem report (h : w.Fresh base) (line : String) : (Logging.report line w).Fresh base :=
  h.congr rfl

theorem disk (h : w.Fresh base) (d : Disk) : ({ w with disk := d } : Network).Fresh base :=
  h.congr rfl

theorem stopTimer (h : w.Fresh base) (t : Timer) : (Buffer.stopTimer t w).Fresh base := by
  unfold Buffer.stopTimer
  split
  · exact h.report _
  · exact h

end Fresh

/-! ## Closing -/

/-- An operation on such sinks returns, and leaves them as calm as they were. -/
structure Eases (base : ℕ) (r : Outcome × Network) : Prop where
  returns : r.1.Returns
  fresh : r.2.Fresh base

theorem closes_buffer (h : w.Fresh base) (inner : Destination Network)
    (hinner : ∀ {w : Network}, w.Fresh base → Eases base (inner.close w)) {b : Buffer}
    (hb : b.pending.isEmpty = true) :
    Eases base ((b.close inner w).1, (b.close inner w).2.2) ∧
      (b.close inner w).2.1.pending.isEmpty = true := by
  unfold Buffer.close
  split
  · exact ⟨⟨Outcome.returns_ok, h⟩, hb⟩
  · have hpass : Buffer.pass inner { b with closed := true, armed := false, timer := .ended }
        (Buffer.stopTimer b.timer w) =
          (.ok (), { b with closed := true, armed := false, timer := .ended },
            Buffer.stopTimer b.timer w) := if_pos hb
    have hclose := hinner (h.stopTimer b.timer)
    dsimp only
    rw [hpass]
    exact ⟨⟨hclose.returns, hclose.fresh⟩, hb⟩

theorem closes_queue (h : w.Fresh base) (inner : Destination Network)
    (hinner : ∀ {w : Network}, w.Fresh base → Eases base (inner.close w))
    (wk : Worker.Work ByteArray Network) {q : Queue} (hq : q.machine.Idle) :
    Eases base ((q.close inner wk w).1, (q.close inner wk w).2.2) ∧
      (q.close inner wk w).2.1.machine.Idle := by
  unfold Queue.close
  split
  · exact ⟨⟨Outcome.returns_ok, h⟩, hq⟩
  · obtain ⟨m', hstop, hm'⟩ := hq.stop wk w
    have hclose := hinner h
    rw [hstop]
    exact ⟨⟨hclose.returns, hclose.fresh⟩, hm'⟩

theorem returns_ofExcept {ε : Type} (fault : ε → Fault) (o : Except ε Unit) :
    (Outcome.ofExcept fault o).Returns := by
  cases o with
  | ok => exact Outcome.returns_ok
  | error e => exact Outcome.returns_fault _

theorem file_close_returns (f : File) (d : Disk) : (f.close d).1.Returns := by
  show (f.flush d).1.Returns
  unfold File.flush
  split
  · exact Outcome.returns_ok
  · exact returns_ofExcept _ _

theorem rotating_close_returns (r : RotatingFile) (d : Disk) : (r.close d).1.Returns := by
  unfold RotatingFile.close
  split
  · exact Outcome.returns_ok
  · exact returns_ofExcept _ _

/-- Closing a sink that nobody has used returns. -/
theorem Fresh.close (n : ℕ) {id : ℕ} (hid : base ≤ id) {w : Network} (h : w.Fresh base) :
    Eases base ((destination n id).close w) := by
  -- the induction goes along the sinks that stand behind it, which were just made as well
  induction n generalizing id w with
  | zero => exact ⟨Outcome.returns_ok, h⟩
  | succ n ih =>
    have hcalm := h.calm id hid
    have hinside := h.inside id hid
    show Eases base (closeCell (destination n) id w)
    unfold closeCell
    cases hcell : w.cell id with
    | console c =>
      exact ⟨Outcome.returns_ok, h.set (c := .console c.close) id trivial (List.forall_mem_nil _)⟩
    | file f =>
      have hclosed := (h.disk (f.close w.disk).2.2).set (c := .file (f.close w.disk).2.1) id trivial
        (List.forall_mem_nil _)
      exact ⟨file_close_returns f w.disk, hclosed⟩
    | rotating r =>
      have hclosed := (h.disk (r.close w.disk).2.2).set (c := .rotating (r.close w.disk).2.1) id
        trivial (List.forall_mem_nil _)
      exact ⟨rotating_close_returns r w.disk, hclosed⟩
    | buffered b inner =>
      rw [hcell] at hcalm hinside
      obtain ⟨heases, hb⟩ := closes_buffer h (destination n inner)
        (fun hw => ih (hinside inner (by simp [Cell.references])) hw) hcalm
      exact ⟨heases.returns, heases.fresh.set id hb hinside⟩
    | queued q inner =>
      rw [hcell] at hcalm hinside
      obtain ⟨heases, hq⟩ := closes_queue h (destination n inner)
        (fun hw => ih (hinside inner (by simp [Cell.references])) hw)
        (work (destination n inner)) hcalm
      exact ⟨heases.returns, heases.fresh.set id hq hinside⟩
    | gone => exact ⟨Outcome.returns_ok, h⟩
    | _ =>
      rw [hcell] at hcalm
      exact hcalm.elim

/-! ## Giving up -/

theorem returns_cases {o : Outcome} (h : o.Returns) : o = .ok () ∨ ∃ f, o = Outcome.fault f := by
  rcases o with (f | p) | _
  · exact .inr ⟨f, rfl⟩
  · exact absurd rfl (h p)
  · exact .inl rfl

theorem reportFault_works {o : Outcome} (ho : o.Returns) (h : w.Fresh base)
    (line : Fault → String) :
    (w.reportFault line o).1 = .ok () ∧ (w.reportFault line o).2.Fresh base := by
  rcases returns_cases ho with rfl | ⟨f, rfl⟩
  · exact ⟨rfl, h⟩
  · exact ⟨rfl, h.report _⟩

theorem abandons_buffer (h : w.Fresh base) {inner : Destination Network}
    (hinner : ∀ {w : Network}, w.Fresh base → Eases base (inner.close w)) {b : Buffer}
    (hb : b.pending.isEmpty = true) :
    (b.abandon inner w).1 = .ok () ∧ (b.abandon inner w).2.2.Fresh base := by
  obtain ⟨⟨hreturns, hfresh⟩, -⟩ := closes_buffer h inner hinner hb
  rcases hclose : b.close inner w with ⟨o, b', w'⟩
  rw [hclose] at hreturns hfresh
  rw [Buffer.abandon, hclose]
  rcases returns_cases hreturns with rfl | ⟨f, rfl⟩
  · exact ⟨rfl, hfresh⟩
  · exact ⟨rfl, hfresh.report _⟩

theorem abandons_queue (h : w.Fresh base) {inner : Destination Network}
    (hinner : ∀ {w : Network}, w.Fresh base → Eases base (inner.close w))
    (wk : Worker.Work ByteArray Network) {q : Queue} (hq : q.machine.Idle) :
    (q.abandon inner wk w).1 = .ok () ∧ (q.abandon inner wk w).2.2.Fresh base := by
  obtain ⟨⟨hreturns, hfresh⟩, -⟩ := closes_queue h inner hinner wk hq
  rcases hclose : q.close inner wk w with ⟨o, q', w'⟩
  rw [hclose] at hreturns hfresh
  rw [Queue.abandon, hclose]
  rcases returns_cases hreturns with rfl | ⟨f, rfl⟩
  · exact ⟨rfl, hfresh⟩
  · exact ⟨rfl, hfresh.report _⟩

/-- A sink that nobody has used is given up: a fault is reported, and nothing breaks off. -/
theorem Fresh.abandon (h : w.Fresh base) (hid : base ≤ id) :
    (w.abandon id).1 = .ok () ∧ (w.abandon id).2.Fresh base := by
  have hcalm := h.calm id hid
  have hinside := h.inside id hid
  unfold Network.abandon
  cases hcell : w.cell id with
  | buffered b inner =>
    rw [hcell] at hcalm hinside
    exact abandons_buffer h
      (fun hw => hw.close _ (hinside inner (by simp [Cell.references]))) hcalm
  | queued q inner =>
    rw [hcell] at hcalm hinside
    exact abandons_queue h
      (fun hw => hw.close _ (hinside inner (by simp [Cell.references]))) _ hcalm
  | file f => exact reportFault_works (file_close_returns f w.disk) (h.disk _) _
  | rotating r => exact reportFault_works (rotating_close_returns r w.disk) (h.disk _) _
  | _ => exact ⟨rfl, h⟩

/-- **Sinks that were just made are given up without trouble**, together with those behind them. -/
theorem Fresh.releaseWithin (program : List SinkId) (n : ℕ) {ids : List SinkId} {w : Network}
    (h : w.Fresh base) (hids : ∀ id ∈ ids, base ≤ id) :
    (releaseWithin program n ids w).1 = .ok () ∧
      (Network.releaseWithin program n ids w).2.Fresh base := by
  induction n generalizing ids w with
  | zero => exact ⟨rfl, h⟩
  | succ n ih =>
    cases ids with
    | nil => exact ⟨rfl, h⟩
    | cons id rest =>
      have hid := hids id List.mem_cons_self
      have hrest : ∀ x ∈ rest, base ≤ x := fun x hx => hids x (List.mem_cons_of_mem _ hx)
      rw [Network.releaseWithin]
      split
      · exact ih h hrest
      · obtain ⟨hok, hfresh⟩ := h.abandon hid
        rcases habandon : w.abandon id with ⟨o, w'⟩
        rw [habandon] at hok hfresh
        obtain rfl : o = .ok () := hok
        exact ih (hfresh.set id trivial (List.forall_mem_nil _))
          (List.forall_mem_append.2 ⟨h.inside id hid, hrest⟩)

/-- What could not be made fails as it did, and what was made for it goes. -/
theorem Fresh.makeNone {α : Type} (h : w.Fresh base) (program ids : List SinkId)
    (hids : ∀ id ∈ ids, base ≤ id) (e : Failure) :
    ((w.makeNone program ids e : Except Failure α × Network)).1 = .error e ∧
      (w.makeNone program ids e : Except Failure α × Network).2.Fresh base := by
  obtain ⟨hok, hfresh⟩ := h.releaseWithin program (ids.length + w.holdings) hids
  rw [Network.makeNone, release]
  rcases hrelease : Network.releaseWithin program (ids.length + w.holdings) ids w with ⟨o, w'⟩
  rw [hrelease] at hok hfresh
  obtain rfl : o = .ok () := hok
  refine ⟨?_, hfresh⟩
  cases e <;> rfl

end Network

end Logging
