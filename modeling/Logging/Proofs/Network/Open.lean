import Logging.Proofs.Network.Evolving
import Logging.Proofs.Network.Recasting

/-!
# Sinks stay open

A sink is closed by a close, and by nothing else: whatever is written, and whatever the background
does, no sink is closed by it, however the sinks stand behind one another.

* `Cell.closings`: how often a sink was closed.
* `SameClosings`: no sink was closed in between.
* `GoesOn`: and every sink became what it may become.
* `Network.destination_closesNone`, `Network.deliver?_sameClosings`: **writes and workers close no
  sink.**
* `Network.write_goesOn`, `Network.settle_goesOn`: **writes and the background let a network go
  on.**
-/

namespace Logging

open Sink Worker

/-- How often the sink was closed, as far as it tells; most sinks tell only whether they were. -/
def Cell.closings : Cell → ℕ
  | memory m => m.closeCalls
  | console c => c.closed.toNat
  | file f => f.writer.isNone.toNat
  | rotating r => r.closed.toNat
  | buffered b _ => b.closed.toNat
  | queued q _ => q.closed.toNat
  | fanOut f => f.closed.toNat
  | scripted s => s.closings
  | _ => 0

/-! ## Files -/

namespace Sink

theorem File.isNone_write (p : ByteArray) (f : File) (d : Disk) :
    (f.write p d).2.1.writer.isNone = f.writer.isNone := by
  unfold File.write
  split
  · rfl
  · rename_i hw
    rw [hw]
    rfl

namespace RotatingFile

theorem isClosed_append (p : ByteArray) (r : RotatingFile) (d : Disk) :
    (r.append p d).2.1.closed = r.closed := by
  unfold append
  split
  · rfl
  · split <;> rfl

theorem isClosed_flushWriter (r : RotatingFile) (d : Disk) :
    (r.flushWriter d).2.1.closed = r.closed := by
  unfold flushWriter
  split <;> rfl

theorem isClosed_nextPath (r : RotatingFile) (d : Disk) (p : Disk.Path) :
    (r.nextPath d p).2.closed = r.closed := by
  unfold nextPath
  split
  · rfl
  · dsimp only
    split <;> rfl

theorem isClosed_rotate (r : RotatingFile) (d : Disk) : (r.rotate d).2.1.closed = r.closed := by
  have hflush := r.isClosed_flushWriter d
  unfold rotate
  split
  · rename_i he
    rwa [he] at hflush
  · rename_i f d hf
    rw [hf] at hflush
    split
    · exact hflush
    · rename_i p d _
      have hnext := (f.isClosed_nextPath d p).trans hflush
      dsimp only
      split
      · exact hnext
      · exact hnext

/-- A write leaves a rotating file open, also one that begins a new file. -/
theorem isClosed_write (p : ByteArray) (r : RotatingFile) (d : Disk) :
    (r.write p d).2.1.closed = r.closed := by
  have hrotate := r.isClosed_rotate d
  unfold write
  split
  · rfl
  · split
    · split
      · rename_i he
        rwa [he] at hrotate
      · rename_i f lines d hf
        rw [hf] at hrotate
        exact (f.isClosed_append p d).trans hrotate
    · exact r.isClosed_append p d

end RotatingFile

end Sink

/-! ## Networks -/

/-- **No sink was closed in between.** -/
def SameClosings (w w' : Network) : Prop := ∀ id, (w'.cell id).closings = (w.cell id).closings

namespace SameClosings

variable {w w' w'' : Network} {id : SinkId} {c : Cell}

theorem refl (w : Network) : SameClosings w w := fun _ => rfl

theorem trans (h : SameClosings w w') (h' : SameClosings w' w'') : SameClosings w w'' :=
  fun id => (h' id).trans (h id)

/-- Nothing but the sinks matters. -/
theorem congr (h : SameClosings w w') (hcells : w''.cells = w'.cells) : SameClosings w w'' := by
  intro id
  have hcell : w''.cell id = w'.cell id := by rw [Network.cell, hcells, Network.cell]
  rw [hcell]
  exact h id

theorem ofCells (w : Network) : Network.OfCells (SameClosings w) :=
  fun h hcells => h.congr hcells

/-- A sink is put anew that was closed as often as at the beginning. -/
theorem set (h : SameClosings w w') (hc : c.closings = (w.cell id).closings) :
    SameClosings w (w'.set id c) := by
  intro j
  obtain ⟨rfl, hcell⟩ | hcell := w'.cell_set_cases id c j
  · rw [hcell]
    exact hc
  · rw [hcell]
    exact h j

end SameClosings

namespace Sink.Destination

/-- The sink as one that is only written to. -/
def onlyWritten {σ : Type} (d : Destination σ) : Destination σ :=
  { d with
    flush := fun s => (.ok (), s)
    close := fun s => (.ok (), s) }

/-- **Writes to the sink close none.** -/
def ClosesNone (d : Destination Network) : Prop := ∀ p w, SameClosings w (d.write p w).2

theorem ClosesNone.keeps {d : Destination Network} (h : d.ClosesNone) (w : Network) :
    d.onlyWritten.Keeps (SameClosings w) :=
  ⟨fun p {v} hv => hv.trans (h p v), fun hv => hv, fun hv => hv⟩

end Sink.Destination

namespace Network

variable {near : SinkId → Destination Network} {d : Destination Network} {w w' : Network}
  {id : SinkId}

/-! ## The write of one sink -/

theorem writeCell_closesNone (hnear : ∀ j, (near j).ClosesNone) (id : SinkId) (p : ByteArray)
    (w : Network) : SameClosings w (writeCell near id p w).2 := by
  have hkeeps : ∀ j, (near j).onlyWritten.Keeps (SameClosings w) := fun j => (hnear j).keeps w
  have hstart := SameClosings.refl w
  unfold writeCell
  split
  · rename_i m hcell
    refine hstart.set ?_
    rw [hcell]
    show (m.write p).2.closeCalls = m.closeCalls
    unfold Memory.write
    split <;> rfl
  · rename_i c _
    unfold Console.write
    split
    · exact hstart
    · have hprint : (Terminal.print c.stream p w).cells = w.cells := by cases c.stream <;> rfl
      exact hstart.congr hprint
  · rename_i f hcell
    have hafter : SameClosings w { w with disk := (f.write p w.disk).2.2 } := hstart.congr rfl
    refine hafter.set ?_
    rw [hcell]
    exact congrArg Bool.toNat (f.isNone_write p w.disk)
  · rename_i r hcell
    have hafter : SameClosings w { w with disk := (r.write p w.disk).2.2.2 } := hstart.congr rfl
    refine reportAll_keeps (SameClosings.ofCells w) _ (hafter.set ?_)
    rw [hcell]
    exact congrArg Bool.toNat (r.isClosed_write p w.disk)
  · rename_i b inner hcell
    refine (Buffer.write_keeps (hkeeps inner) p b hstart).set ?_
    rw [hcell]
    exact congrArg Bool.toNat (b.closed_write (near inner) p w)
  · rename_i q inner hcell
    refine (Queue.write_keeps (hkeeps inner) p q hstart).set ?_
    rw [hcell]
    exact congrArg Bool.toNat (q.closed_write (near inner) p w)
  · rename_i f _
    unfold FanOut.write
    split
    · exact hstart
    · exact FanOut.visit_keeps (report_keeps (SameClosings.ofCells w)) "write"
        (fun m {_} h => h.trans (hnear m p _)) f.members 0 hstart
  · rename_i f inner hcell
    have hset : SameClosings w (w.set id (.failing f.nextWrite.2 inner)) := by
      refine hstart.set ?_
      rw [hcell]
      rfl
    dsimp only
    split
    · exact hset
    · split
      · exact hset.trans (hnear _ p _)
      · exact hset
  · exact hstart
  · rename_i s hcell
    refine hstart.set ?_
    rw [hcell]
    exact Scripted.closings_answer (.write p)
  · split
    · exact hstart.congr rfl
    · exact hnear _ p w
  · exact hstart

theorem destination_closesNone : ∀ (n : ℕ) (id : SinkId), (destination n id).ClosesNone := by
  intro n
  induction n with
  | zero => exact fun id p w => .refl w
  | succ n ih => exact fun id p w => writeCell_closesNone ih id p w

/-! ## The background -/

theorem patientMember_closesNone (hd : d.ClosesNone) (place : ℕ) (m : SinkId) :
    (patientMember place m d).ClosesNone := by
  intro p w
  unfold patientMember
  dsimp only
  split
  · exact (hd p w).congr rfl
  · exact (SameClosings.refl w).congr rfl

theorem patient_closesNone : ∀ (n : ℕ) (id : SinkId), (patient n id).ClosesNone := by
  intro n
  induction n with
  | zero => exact fun id p w => .refl w
  | succ n ih =>
    intro id p w
    have hstart := SameClosings.refl w
    unfold patient
    dsimp only
    split
    · split
      · exact hstart.congr rfl
      · exact ih _ p w
    · unfold FanOut.write
      split
      · exact hstart
      · have hmember : ∀ (m : SinkId × ℕ) {v : Network}, SameClosings w v →
            SameClosings w ((patientMember m.2 m.1 (patient n m.1)).write p v).2 :=
          fun m _ h => h.trans (patientMember_closesNone (ih m.1) m.2 m.1 p _)
        exact FanOut.visit_keeps (report_keeps (SameClosings.ofCells w)) "write" hmember _ 0 hstart
    · exact writeCell_closesNone ih id p w

/-- **A step of a worker closes no sink.** -/
theorem deliver?_sameClosings (h : w.deliver? id = some w') : SameClosings w w' := by
  refine deliver?_keeps (SameClosings.ofCells w)
    (fun n id p _ h => h.trans (patient_closesNone n id p _))
    (fun n id p _ h => h.trans (destination_closesNone n id p _)) (fun hcell m v h => ?_) h
    (.refl w)
  refine h.set ?_
  rw [hcell]
  rfl

/-! ## Gates -/

/-- Opening every gate closes no sink, and no sink becomes another one. -/
theorem openGates_cell (w : Network) (id : SinkId) :
    (w.cell id).Becomes (w.openGates.cell id) ∧
      (w.openGates.cell id).closings = (w.cell id).closings := by
  simp only [openGates, cell, Array.getD_eq_getD_getElem?, Array.getElem?_map]
  cases w.cells[id]? with
  | none => exact ⟨.refl _, rfl⟩
  | some c =>
    cases c with
    | gate g inner =>
      exact ⟨⟨rfl, rfl, fun h => h, fun h => h, (by cases ·), fun _ h => by cases h⟩, rfl⟩
    | _ => exact ⟨.refl _, rfl⟩

end Network

/-! ## Going on -/

/-- **The network went on**: every sink became what it may become, and none was closed. -/
structure GoesOn (w w' : Network) : Prop where
  evolves : Evolves w w'
  closings : SameClosings w w'

namespace GoesOn

variable {w w' w'' : Network}

theorem refl (w : Network) : GoesOn w w := ⟨.refl w, .refl w⟩

theorem trans (h : GoesOn w w') (h' : GoesOn w' w'') : GoesOn w w'' :=
  ⟨h.evolves.trans h'.evolves, h.closings.trans h'.closings⟩

theorem congr (h : GoesOn w w') (hcells : w''.cells = w'.cells) : GoesOn w w'' :=
  ⟨h.evolves.congr hcells, h.closings.congr hcells⟩

theorem ofCells (w : Network) : Network.OfCells (GoesOn w) := fun h hcells => h.congr hcells

end GoesOn

namespace Network

variable (w : Network)

/-- **Writes** let the network go on. -/
theorem write_goesOn (id : SinkId) (p : ByteArray) : GoesOn w (w.write id p).2 :=
  ⟨write_evolves id p w, destination_closesNone _ id p w⟩

/-- **The background** lets the network go on, until it comes to rest. -/
theorem settle_goesOn : GoesOn w w.settle :=
  settle_keeps (fun hs h => h.trans ⟨deliver?_evolves hs, deliver?_sameClosings hs⟩) (.refl w)

theorem openGates_goesOn : GoesOn w w.openGates :=
  ⟨⟨Array.size_map, fun id => (w.openGates_cell id).1⟩, fun id => (w.openGates_cell id).2⟩

end Network

end Logging
