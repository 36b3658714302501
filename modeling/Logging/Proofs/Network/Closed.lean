import Logging.Proofs.Network.Evolving
import Logging.Proofs.Network.Shutdown

/-!
# Closed sinks

* `Network.close_closes`: a close leaves a sink closed, whatever it returned.
* `Network.Deed`: what can happen in a network.
* `Network.deed_keeps`: **no deed opens a sink again**, as long as somebody holds it.
* `Network.closed_stays_closed`: **a closed sink takes no payload any more and is not closed a second
  time**, whatever happened in between.
-/

namespace Logging

open Sink

/-- A sink of that name, closed. -/
structure Cell.ClosedAs (name : String) (c : Cell) : Prop where
  closed : c.Closed
  name : c.name = name

theorem Cell.ClosedAs.becomes {name : String} {c c' : Cell} (h : c.ClosedAs name)
    (hc : c.Becomes c') : c'.ClosedAs name :=
  ⟨hc.closed h.closed, hc.name.trans h.name⟩

namespace Network

variable {w v : Network} {x : SinkId} {name : String}

/-! ## One sink -/

theorem Closed.lt (h : (w.cell x).Closed) : x < w.cells.size :=
  cell_lt rfl fun hgone => by simp [hgone, Cell.Closed] at h

/-- **A close leaves the sink closed**, whatever it returned. -/
theorem close_closes (h : (w.cell x).Provided) :
    ((w.close x).2.cell x).ClosedAs (w.cell x).name := by
  have hlt : x < w.cells.size := cell_lt rfl fun hgone => by simp [hgone, Cell.Provided] at h
  obtain ⟨n, hn⟩ := Nat.exists_eq_add_one_of_ne_zero (Nat.ne_zero_of_lt hlt)
  obtain ⟨v, c, he, hv, hbecomes, hclosed⟩ :=
    closeCell_closes (fun j => destination_evolves n j) x w h
  have hclose : (w.close x).2 = v.set x c := by
    simpa [close, near, hn, destination] using he
  rw [hclose, cell_set_self (hv.size ▸ hlt)]
  exact ⟨hclosed, hbecomes.name⟩

/-- **A closed sink takes no payload**, and nothing changes. -/
theorem closed_write (h : (w.cell x).ClosedAs name) (p : ByteArray) :
    w.write x p = (closedOutcome name, w) := by
  obtain ⟨hclosed, rfl⟩ := h
  obtain ⟨n, hn⟩ := Nat.exists_eq_add_one_of_ne_zero (Nat.ne_zero_of_lt (Closed.lt hclosed))
  have hsame : w.set x (w.cell x) = w := set_same rfl
  rw [write, near, hn]
  show writeCell (destination n) x p w = _
  unfold writeCell
  cases hcell : w.cell x with
  | memory m =>
    rw [hcell] at hclosed hsame
    simp [Memory.write, show m.closed = true from hclosed, hsame, Cell.name]
  | console c =>
    rw [hcell] at hclosed
    simp [Console.write, show c.closed = true from hclosed, Cell.name]
  | file f =>
    rw [hcell] at hclosed hsame
    simp [f.closed_write p w.disk hclosed, hsame, Cell.name]
  | rotating r =>
    rw [hcell] at hclosed hsame
    simp [r.closed_write p w.disk hclosed, hsame, reportAll, Cell.name]
  | buffered b inner =>
    rw [hcell] at hclosed hsame
    simp [Buffer.write, show b.closed = true from hclosed, hsame, Cell.name]
  | queued q inner =>
    rw [hcell] at hclosed hsame
    simp [Queue.write, show q.closed = true from hclosed, hsame, Cell.name]
  | fanOut f =>
    rw [hcell] at hclosed
    simp [FanOut.write, show f.closed = true from hclosed, Cell.name]
  | _ =>
    rw [hcell] at hclosed
    exact hclosed.elim

/-- **A closed sink is not closed again**: at most it counts the call. -/
theorem closed_close (h : (w.cell x).Closed) :
    ((∀ m, w.cell x ≠ .memory m) → w.close x = (.ok (), w)) ∧
      ∀ m, w.cell x = .memory m →
        w.close x = (.ok (), w.set x (.memory { m with closeCalls := m.closeCalls + 1 })) := by
  obtain ⟨n, hn⟩ := Nat.exists_eq_add_one_of_ne_zero (Nat.ne_zero_of_lt (Closed.lt h))
  have hsame : w.set x (w.cell x) = w := set_same rfl
  rw [close, near, hn]
  show (_ → closeCell (destination n) x w = _) ∧ ∀ m, _ → closeCell (destination n) x w = _
  unfold closeCell
  cases hcell : w.cell x with
  | memory m =>
    rw [hcell] at h
    refine ⟨fun hno => absurd rfl (hno m), fun m' hm' => ?_⟩
    cases hm'
    simp [Memory.close, show m.closed = true from h]
  | console c =>
    rw [hcell] at h hsame
    have hclose : c.close = c := by
      rw [Console.close, ← show c.closed = true from h]
    exact ⟨fun _ => by simp [hclose, hsame], fun m hm => by cases hm⟩
  | file f =>
    rw [hcell] at h hsame
    have hclose : f.close w.disk = (.ok (), f, w.disk) := by
      rw [File.close, f.closed_flush w.disk h]
      cases f
      cases h
      rfl
    exact ⟨fun _ => by simp [hclose, hsame], fun m hm => by cases hm⟩
  | rotating r =>
    rw [hcell] at h hsame
    exact ⟨fun _ => by simp [RotatingFile.close, show r.closed = true from h, hsame],
      fun m hm => by cases hm⟩
  | buffered b inner =>
    rw [hcell] at h hsame
    exact ⟨fun _ => by simp [Buffer.close, show b.closed = true from h, hsame],
      fun m hm => by cases hm⟩
  | queued q inner =>
    rw [hcell] at h hsame
    exact ⟨fun _ => by simp [Queue.close, show q.closed = true from h, hsame],
      fun m hm => by cases hm⟩
  | fanOut f =>
    rw [hcell] at h hsame
    exact ⟨fun _ => by simp [FanOut.close, show f.closed = true from h, hsame],
      fun m hm => by cases hm⟩
  | _ =>
    rw [hcell] at h
    exact h.elim

/-! ## What happens in a network -/

/-- A fan-out gets other members. -/
def setMembers (id : SinkId) (ms : List SinkId) (w : Network) : Network :=
  match w.cell id with
  | .fanOut f => w.set id (.fanOut { f with members := ms })
  | _ => w

/-- The channel of a queue's policy is emptied. -/
def takeForwarded (id : SinkId) (w : Network) : Network :=
  match w.cell id with
  | .queued q inner => w.set id (.queued { q with machine := q.machine.takeForwarded.2 } inner)
  | _ => w

/-- **What can happen in a network.** -/
inductive Deed where
  | write (id : SinkId) (p : ByteArray)
  | flush (id : SinkId)
  | close (id : SinkId)
  /-- The worker of a queue takes a step. -/
  | deliver (id : SinkId)
  /-- The waiting time of a buffer ends. -/
  | expire (id : SinkId)
  | holdGate (id : SinkId) (held : Bool)
  | openGates
  /-- A sink is made. -/
  | add (c : Cell)
  | setMembers (id : SinkId) (ms : List SinkId)
  | takeForwarded (id : SinkId)
  /-- Holders let go of sinks; the program still holds some. -/
  | release (program ids : List SinkId)
  /-- Somebody else changes the disk. -/
  | disk (d : Disk)
  | emit (e : Event)
  | report (line : String)

/-- One deed. -/
def deed (w : Network) : Deed → Network
  | .write id p => (w.write id p).2
  | .flush id => (w.flush id).2
  | .close id => (w.close id).2
  | .deliver id => (w.deliver? id).getD w
  | .expire id => w.expire id
  | .holdGate id held => w.holdGate id held
  | .openGates => w.openGates
  | .add c => (w.add c).2
  | .setMembers id ms => w.setMembers id ms
  | .takeForwarded id => w.takeForwarded id
  | .release program ids => (w.release program ids).2
  | .disk d => { w with disk := d }
  | .emit e => w.emit e
  | .report line => report line w

/-- Deeds, one after the other. -/
def deeds (ds : List Deed) (w : Network) : Network := ds.foldl deed w

/-- Whoever lets go of sinks, the program still holds that one. -/
def Deed.Spares (x : SinkId) : Deed → Prop
  | .release program _ => x ∈ program
  | _ => True

/-- Another sink is put anew, or this one as a sink that was closed. -/
theorem set_closed {c : Cell} {id : SinkId} (h : (v.cell x).ClosedAs name)
    (hc : id = x → c.ClosedAs name) : ((v.set id c).cell x).ClosedAs name := by
  by_cases hx : x = id
  · subst hx
    rw [cell_set_self (Closed.lt h.closed)]
    exact hc rfl
  · rw [(alters_set id c [] v).cells x (by simpa using hx)]
    exact h

/-- What holders let go of is not what the program holds. -/
theorem releaseWithin_closed {program : List SinkId} (hx : x ∈ program) : ∀ (n : ℕ)
    (ids : List SinkId) {w : Network}, (w.cell x).ClosedAs name →
      ((releaseWithin program n ids w).2.cell x).ClosedAs name := by
  intro n
  induction n with
  | zero => exact fun ids {w} h => h
  | succ n ih =>
    intro ids w h
    cases ids with
    | nil => exact h
    | cons id rest =>
      unfold releaseWithin
      split
      · exact ih rest h
      · rename_i hno
        have hid : id ≠ x := fun he => hno (.inl (he ▸ hx))
        have habandoned := h.becomes ((abandon_evolves id w).becomes x)
        exact ih _ (set_closed habandoned fun he => absurd he hid)

/-- A gate is nobody's to close. -/
theorem holdGate_closed (id : SinkId) (held : Bool) (h : (w.cell x).ClosedAs name) :
    ((w.holdGate id held).cell x).ClosedAs name := by
  unfold holdGate
  split
  · rename_i g inner hcell
    refine set_closed h fun he => ?_
    have hclosed := h.closed
    rw [← he, hcell] at hclosed
    exact hclosed.elim
  · exact h

theorem openGates_closed (h : (w.cell x).ClosedAs name) :
    (w.openGates.cell x).ClosedAs name := by
  have hopened : w.openGates.cell x = w.cell x := by
    have hlt := Closed.lt h.closed
    have hclosed := h.closed
    simp only [openGates, cell, Array.getD_eq_getD_getElem?, Array.getElem?_map,
      Array.getElem?_eq_getElem hlt, Option.map_some, Option.getD_some] at hclosed ⊢
    split
    · rename_i hcell
      rw [hcell] at hclosed
      exact hclosed.elim
    · rfl
  exact hopened ▸ h

theorem add_closed (c : Cell) (h : (w.cell x).ClosedAs name) :
    ((w.add c).2.cell x).ClosedAs name := by
  have hadded : (w.add c).2.cell x = w.cell x := by
    simp [add, cell, Array.getElem?_push, Nat.ne_of_lt (Closed.lt h.closed)]
  exact hadded ▸ h

theorem setMembers_closed (id : SinkId) (ms : List SinkId) (h : (w.cell x).ClosedAs name) :
    ((w.setMembers id ms).cell x).ClosedAs name := by
  unfold setMembers
  split
  · rename_i f hcell
    refine set_closed h fun he => ?_
    rw [← he, hcell] at h
    exact ⟨h.closed, h.name⟩
  · exact h

theorem takeForwarded_closed (id : SinkId) (h : (w.cell x).ClosedAs name) :
    ((w.takeForwarded id).cell x).ClosedAs name := by
  unfold takeForwarded
  split
  · rename_i q inner hcell
    refine set_closed h fun he => ?_
    rw [← he, hcell] at h
    exact ⟨h.closed, h.name⟩
  · exact h

/-- **No deed opens a sink again.** -/
theorem deed_keeps {d : Deed} (hd : d.Spares x) (h : (w.cell x).ClosedAs name) :
    ((w.deed d).cell x).ClosedAs name := by
  have hevolves : ∀ {v : Network}, Evolves w v → (v.cell x).ClosedAs name :=
    fun hv => h.becomes (hv.becomes x)
  cases d with
  | write id p => exact hevolves (write_evolves id p w)
  | flush id => exact hevolves (flush_evolves id w)
  | close id => exact hevolves (close_evolves id w)
  | deliver id =>
    show (((w.deliver? id).getD w).cell x).ClosedAs name
    cases hs : w.deliver? id with
    | none => exact h
    | some v => exact hevolves (deliver?_evolves hs)
  | expire id => exact hevolves (expire_evolves id w)
  | holdGate id held => exact holdGate_closed id held h
  | openGates => exact openGates_closed h
  | add c => exact add_closed c h
  | setMembers id ms => exact setMembers_closed id ms h
  | takeForwarded id => exact takeForwarded_closed id h
  | release program ids => exact releaseWithin_closed hd _ ids h
  | disk d => exact h
  | emit e => exact hevolves (emit_evolves e (.refl w))
  | report line => exact hevolves (report_evolves line (.refl w))

/-- **Whatever happens, a closed sink stays closed.** -/
theorem deeds_keep : ∀ {ds : List Deed} {w : Network}, (∀ d ∈ ds, d.Spares x) →
    (w.cell x).ClosedAs name → ((w.deeds ds).cell x).ClosedAs name := by
  intro ds
  induction ds with
  | nil => exact fun _ h => h
  | cons d ds ih =>
    intro w hds h
    exact ih (fun d' hd' => hds d' (.tail _ hd')) (deed_keeps (hds d List.mem_cons_self) h)

/-- **Closed sinks stay closed.** Whatever the close of a sink returned, and whatever happened after
it, the sink refuses every payload by its name and changes nothing then; and a further close goes
well and changes nothing, but for the count of a memory sink. -/
theorem closed_stays_closed (w : Network) (x : SinkId) (h : (w.cell x).Provided) (ds : List Deed)
    (hds : ∀ d ∈ ds, d.Spares x) :
    let v := (w.close x).2.deeds ds
    (∀ p, v.write x p = (closedOutcome (w.cell x).name, v)) ∧
      ((∀ m, v.cell x ≠ .memory m) → v.close x = (.ok (), v)) ∧
      ∀ m, v.cell x = .memory m →
        v.close x = (.ok (), v.set x (.memory { m with closeCalls := m.closeCalls + 1 })) := by
  intro v
  have hclosed : (v.cell x).ClosedAs (w.cell x).name := deeds_keep hds (close_closes h)
  exact ⟨fun p => closed_write hclosed p, closed_close hclosed.closed⟩

/-- A buffer in front of a queue for a memory sink. What runs at the end of the worker breaks off. -/
def uneasyNetwork : Network where
  cells := #[.memory {}, .queued { machine :=
      { name := Queue.workerName, capacity := 1, policy := .drop, hook := .breaks .unreadable } } 0,
    .buffered { threshold := 4 } 1]
  disk := { nodes := [], files := #[] }

theorem closed_stays_closed_uneasy :
    let w := (uneasyNetwork.write 2 ⟨#[1, 2]⟩).2
    let ds : List Deed := [.write 2 ⟨#[3]⟩, .flush 2, .setMembers 2 [0], .close 1, .deliver 1,
      .release [2] [1], .expire 2, .openGates]
    let v := (w.close 2).2.deeds ds
    (w.cell 2).Provided ∧ (w.close 2).1 ≠ .ok () ∧ (∀ d ∈ ds, d.Spares 2) ∧
      (∀ p, v.write 2 p = (closedOutcome (w.cell 2).name, v)) ∧
      ((∀ m, v.cell 2 ≠ .memory m) → v.close 2 = (.ok (), v)) ∧
      ∀ m, v.cell 2 = .memory m →
        v.close 2 = (.ok (), v.set 2 (.memory { m with closeCalls := m.closeCalls + 1 })) := by
  intro w ds v
  have hsink : (w.cell 2).Provided := trivial
  have hspares : ∀ d ∈ ds, d.Spares 2 := by simp [ds, Deed.Spares]
  refine ⟨hsink, ?_, hspares, closed_stays_closed w 2 hsink ds hspares⟩
  decide

end Network

end Logging
