import Logging.Network.Ownership
import Logging.Proofs.Network.Keeping
import Logging.Proofs.Network.Writing

/-!
# What operations make of sinks

Whatever is done in a network, a sink stays the same kind of sink: it keeps its name and the sinks
that it holds, and one that was closed stays closed.

* `Cell.Closed`: a sink was closed.
* `Cell.Becomes`: what one sink may become.
* `Evolves`: every sink of a network became what it may become.
* `Network.destination_evolves`: **operations of sinks let the network evolve**, whatever stands
  behind them.
* `Network.deliver?_evolves`, `Network.expire_evolves`, `Network.abandon_evolves`: so does what
  happens in the background, and what a sink does that is given up.
-/

namespace Logging

open Sink Worker

/-! ## Sinks -/

namespace Cell

/-- The sink was closed. -/
def Closed : Cell → Prop
  | memory m => m.closed = true
  | console c => c.closed = true
  | file f => f.writer = none
  | rotating r => r.closed = true
  | buffered b _ => b.closed = true
  | queued q _ => q.closed = true
  | fanOut f => f.closed = true
  | _ => False

/-- The sink is one of the library's own, and not one that a program brings along. -/
def Provided : Cell → Prop
  | memory _ => True
  | console _ => True
  | file _ => True
  | rotating _ => True
  | buffered _ _ => True
  | queued _ _ => True
  | fanOut _ => True
  | _ => False

/-- **What a sink may become.** -/
structure Becomes (c c' : Cell) : Prop where
  name : c'.name = c.name
  references : c'.references = c.references
  closed : c.Closed → c'.Closed
  provided : c.Provided → c'.Provided
  gone : c = .gone → c' = .gone
  /-- A sink that keeps its calls goes on with its script. -/
  script : ∀ s, c = .scripted s → ∃ calls, c' = .scripted { s with calls }

theorem Becomes.refl (c : Cell) : c.Becomes c :=
  ⟨rfl, rfl, fun h => h, fun h => h, fun h => h, fun s h => ⟨s.calls, h⟩⟩

theorem Becomes.trans {c c' c'' : Cell} (h : c.Becomes c') (h' : c'.Becomes c'') :
    c.Becomes c'' := by
  refine ⟨h'.name.trans h.name, h'.references.trans h.references, fun hc => h'.closed (h.closed hc),
    fun hc => h'.provided (h.provided hc), fun hc => h'.gone (h.gone hc), fun s hs => ?_⟩
  obtain ⟨calls, hcalls⟩ := h.script s hs
  obtain ⟨calls', hcalls'⟩ := h'.script _ hcalls
  exact ⟨calls', hcalls'⟩

variable {id : SinkId}

theorem becomes_buffered {b b' : Buffer} (h : b.closed = true → b'.closed = true) :
    (buffered b id).Becomes (buffered b' id) :=
  ⟨rfl, rfl, h, fun h => h, nofun, fun _ hs => by cases hs⟩

theorem becomes_queued {q q' : Queue} (h : q.closed = true → q'.closed = true) :
    (queued q id).Becomes (queued q' id) :=
  ⟨rfl, rfl, h, fun h => h, nofun, fun _ hs => by cases hs⟩

theorem becomes_file {f f' : File} (h : f.writer = none → f'.writer = none) :
    (file f).Becomes (file f') :=
  ⟨rfl, rfl, h, fun h => h, nofun, fun _ hs => by cases hs⟩

theorem becomes_rotating {r r' : RotatingFile} (h : r.closed = true → r'.closed = true) :
    (rotating r).Becomes (rotating r') :=
  ⟨rfl, rfl, h, fun h => h, nofun, fun _ hs => by cases hs⟩

theorem becomes_answer (s : Scripted) (c : Call) :
    (scripted s).Becomes (scripted (s.answer c).2) := by
  refine ⟨rfl, rfl, fun h => h, fun h => h, nofun, fun s' hs' => ?_⟩
  cases hs'
  exact ⟨_, rfl⟩

end Cell

namespace Sink

/-- A file sink that was closed writes nothing more. -/
theorem File.closed_write (p : ByteArray) (f : File) (d : Disk) (h : f.writer = none) :
    f.write p d = (closedOutcome File.name, f, d) := by
  unfold File.write
  rw [h]

theorem File.closed_flush (f : File) (d : Disk) (h : f.writer = none) :
    f.flush d = (.ok (), f, d) := by
  unfold File.flush
  rw [h]

theorem RotatingFile.closed_write (p : ByteArray) (r : RotatingFile) (d : Disk)
    (h : r.closed = true) : r.write p d = (closedOutcome RotatingFile.name, r, [], d) := by
  unfold RotatingFile.write
  rw [if_pos h]

theorem RotatingFile.closed_flush (r : RotatingFile) (d : Disk) :
    (r.flush d).2.1.closed = r.closed := by
  unfold RotatingFile.flush RotatingFile.flushWriter
  cases r.writer <;> rfl

theorem RotatingFile.closed_close (r : RotatingFile) (d : Disk) :
    (r.close d).2.1.closed = true := by
  unfold RotatingFile.close
  split
  · assumption
  · rfl

theorem Memory.closed_write (p : ByteArray) (m : Memory) : (m.write p).2.closed = m.closed := by
  unfold Memory.write
  split <;> rfl

end Sink

/-! ## Networks -/

/-- **Every sink became what it may become**, and none is new. -/
structure Evolves (w w' : Network) : Prop where
  size : w'.cells.size = w.cells.size
  becomes : ∀ id, (w.cell id).Becomes (w'.cell id)

namespace Evolves

variable {w w' w'' : Network} {id : SinkId} {c : Cell}

theorem refl (w : Network) : Evolves w w := ⟨rfl, fun _ => .refl _⟩

theorem trans (h : Evolves w w') (h' : Evolves w' w'') : Evolves w w'' :=
  ⟨h'.size.trans h.size, fun id => (h.becomes id).trans (h'.becomes id)⟩

/-- Nothing but the sinks matters. -/
theorem congr (h : Evolves w w') (hcells : w''.cells = w'.cells) : Evolves w w'' := by
  refine ⟨hcells ▸ h.size, fun id => ?_⟩
  have hcell : w''.cell id = w'.cell id := by rw [Network.cell, hcells, Network.cell]
  rw [hcell]
  exact h.becomes id

theorem ofCells (w : Network) : Network.OfCells (Evolves w) := fun h hcells => h.congr hcells

theorem disk (h : Evolves w w') (d : Disk) : Evolves w { w' with disk := d } := h.congr rfl

/-- A sink is put anew, as what it may have become since the beginning. -/
theorem set (h : Evolves w w') (hc : (w.cell id).Becomes c) : Evolves w (w'.set id c) := by
  refine ⟨(Network.alters_set id c [] w').size.trans h.size, fun j => ?_⟩
  obtain ⟨rfl, hcell⟩ | hcell := w'.cell_set_cases id c j
  · rw [hcell]
    exact hc
  · rw [hcell]
    exact h.becomes j

end Evolves

/-- An operation lets the network evolve. -/
def Sink.Destination.Evolving (d : Destination Network) : Prop := ∀ w, d.Keeps (Evolves w)

namespace Network

variable {near : SinkId → Destination Network} {d : Destination Network} {w w' : Network}
  {id : SinkId}

theorem report_evolves (line : String) {v : Network} (h : Evolves w v) :
    Evolves w (report line v) :=
  h.congr rfl

theorem reportAll_evolves (lines : List String) {v : Network} (h : Evolves w v) :
    Evolves w (v.reportAll lines) :=
  reportAll_keeps (Evolves.ofCells w) lines h

theorem emit_evolves (e : Event) {v : Network} (h : Evolves w v) : Evolves w (v.emit e) :=
  emit_keeps (Evolves.ofCells w) e h

theorem inBackground_evolves {α : Type} {act : Network → α × Network}
    (hact : ∀ {v}, Evolves w v → Evolves w (act v).2) {v : Network} (h : Evolves w v) :
    Evolves w (inBackground act v).2 :=
  inBackground_keeps (Evolves.ofCells w) act hact h

theorem process_evolves (hd : d.Evolving) (p : ByteArray) {v : Network} (h : Evolves w v) :
    Evolves w ((work d).process p v).2 :=
  inBackground_evolves (fun h => (hd w).write p h) h

theorem notify_evolves (d : Destination Network) (f : Fault) {v : Network} (h : Evolves w v) :
    Evolves w ((work d).notify f v) :=
  notify_keeps (Evolves.ofCells w) d f h

theorem finish_evolves (d : Destination Network) (k : Hook) {v : Network} (h : Evolves w v) :
    Evolves w ((work d).finish k v) :=
  finish_keeps (Evolves.ofCells w) d k h

/-- A step of a worker. -/
theorem step_evolves (hd : d.Evolving) {m m' : Machine ByteArray}
    (hs : m.step (work d) w = some (m', w')) : Evolves w w' :=
  Machine.step_around (I := Evolves w) (fun p _ h => process_evolves hd p h)
    (fun f _ h => notify_evolves _ f h) (fun k _ h => finish_evolves _ k h) (.refl w) hs

/-- Stopping a worker. -/
theorem stop_evolves (hd : d.Evolving) (m : Machine ByteArray) (w : Network) :
    Evolves w (m.stop (work d) w).2.2 :=
  Machine.stop_around (I := Evolves w) (fun p _ h => process_evolves hd p h)
    (fun f _ h => notify_evolves _ f h) (fun k _ h => finish_evolves _ k h) (.refl w) m

/-! ## The operations of one sink -/

theorem writeCell_evolves (hnear : ∀ j, (near j).Evolving) (id : SinkId) (p : ByteArray)
    (w : Network) : Evolves w (writeCell near id p w).2 := by
  have hkeeps : ∀ j, (near j).Keeps (Evolves w) := fun j => hnear j w
  have hstart := Evolves.refl w
  unfold writeCell
  split
  · rename_i m hcell
    refine hstart.set ?_
    rw [hcell]
    exact ⟨rfl, rfl, fun h => (m.closed_write p).trans h, fun h => h, nofun,
      fun s hs => by cases hs⟩
  · rename_i c _
    unfold Console.write
    split
    · exact hstart
    · have hprint : (Terminal.print c.stream p w).cells = w.cells := by cases c.stream <;> rfl
      exact hstart.congr hprint
  · rename_i f hcell
    refine (hstart.disk (f.write p w.disk).2.2).set ?_
    rw [hcell]
    exact Cell.becomes_file fun h => by rw [f.closed_write p w.disk h]; exact h
  · rename_i r hcell
    refine reportAll_evolves _ ((hstart.disk (r.write p w.disk).2.2.2).set ?_)
    rw [hcell]
    exact Cell.becomes_rotating fun h => by rw [r.closed_write p w.disk h]; exact h
  · rename_i b inner hcell
    refine (Buffer.write_keeps (hkeeps inner) p b hstart).set ?_
    rw [hcell]
    exact Cell.becomes_buffered fun h => (b.closed_write (near inner) p w).trans h
  · rename_i q inner hcell
    refine (Queue.write_keeps (hkeeps inner) p q hstart).set ?_
    rw [hcell]
    exact Cell.becomes_queued fun h => (q.closed_write (near inner) p w).trans h
  · exact FanOut.write_keeps report_evolves hkeeps p _ hstart
  · rename_i f inner hcell
    have hset : Evolves w (w.set id (.failing f.nextWrite.2 inner)) := by
      refine hstart.set ?_
      rw [hcell]
      refine ⟨?_, rfl, fun h => h, fun h => h, nofun, fun s hs => by cases hs⟩
      unfold Failing.nextWrite
      split <;> rfl
    dsimp only
    split
    · exact hset
    · split
      · exact (hkeeps _).write p hset
      · exact hset
  · exact hstart
  · rename_i s hcell
    refine hstart.set ?_
    rw [hcell]
    exact Cell.becomes_answer s _
  · split
    · exact hstart.congr rfl
    · exact (hkeeps _).write p hstart
  · exact hstart

theorem flushCell_evolves (hnear : ∀ j, (near j).Evolving) (id : SinkId) (w : Network) :
    Evolves w (flushCell near id w).2 := by
  have hkeeps : ∀ j, (near j).Keeps (Evolves w) := fun j => hnear j w
  have hstart := Evolves.refl w
  unfold flushCell
  split
  · exact hstart
  · exact hstart
  · rename_i f hcell
    refine (hstart.disk (f.flush w.disk).2.2).set ?_
    rw [hcell]
    exact Cell.becomes_file fun h => by rw [f.closed_flush w.disk h]; exact h
  · rename_i r hcell
    refine (hstart.disk (r.flush w.disk).2.2).set ?_
    rw [hcell]
    exact Cell.becomes_rotating fun h => (r.closed_flush w.disk).trans h
  · rename_i b inner hcell
    refine (Buffer.flush_keeps (hkeeps inner) b hstart).set ?_
    rw [hcell]
    exact Cell.becomes_buffered fun h => (b.closed_flush (near inner) w).trans h
  · exact (hkeeps _).flush hstart
  · exact FanOut.visit_keeps report_evolves "flush" (fun m {_} h => (hkeeps m).flush h) _ 0 hstart
  · split
    · exact hstart
    · split
      · exact (hkeeps _).flush hstart
      · exact hstart
  · exact hstart
  · rename_i s hcell
    refine hstart.set ?_
    rw [hcell]
    exact Cell.becomes_answer s _
  · exact (hkeeps _).flush hstart
  · exact hstart

/-- **A sink that is closed is put anew, closed**, after what it does to others. -/
theorem closeCell_closes (hnear : ∀ j, (near j).Evolving) (id : SinkId) (w : Network)
    (h : (w.cell id).Provided) : ∃ v c, (closeCell near id w).2 = v.set id c ∧ Evolves w v ∧
      (w.cell id).Becomes c ∧ c.Closed := by
  have hkeeps : ∀ j, (near j).Keeps (Evolves w) := fun j => hnear j w
  have hstart := Evolves.refl w
  unfold closeCell
  cases hcell : w.cell id with
  | memory m =>
    exact ⟨w, _, rfl, hstart, ⟨rfl, rfl, fun _ => rfl, fun h => h, nofun,
      fun s hs => by cases hs⟩, rfl⟩
  | console c =>
    exact ⟨w, _, rfl, hstart, ⟨rfl, rfl, fun _ => rfl, fun h => h, nofun,
      fun s hs => by cases hs⟩, rfl⟩
  | file f =>
    exact ⟨_, _, rfl, hstart.disk _, Cell.becomes_file fun _ => rfl, rfl⟩
  | rotating r =>
    have hclosed := r.closed_close w.disk
    exact ⟨_, _, rfl, hstart.disk _, Cell.becomes_rotating fun _ => hclosed, hclosed⟩
  | buffered b inner =>
    have hclosed := b.closed_close (near inner) w
    exact ⟨_, _, rfl, Buffer.close_keeps report_evolves (hkeeps inner) b hstart,
      Cell.becomes_buffered fun _ => hclosed, hclosed⟩
  | queued q inner =>
    have hclosed := q.closed_close (near inner) (work (near inner)) w
    refine ⟨_, _, rfl, Queue.close_keeps (hkeeps inner)
      (fun p _ h => process_evolves (hnear inner) p h) (fun f _ h => notify_evolves _ f h)
      (fun k _ h => finish_evolves _ k h) q hstart, Cell.becomes_queued fun _ => hclosed, hclosed⟩
  | fanOut f =>
    refine ⟨_, _, rfl, FanOut.close_keeps report_evolves hkeeps f hstart, ?_, ?_⟩
    · rw [FanOut.closed_close]
      exact ⟨rfl, rfl, fun _ => rfl, fun h => h, nofun, fun s hs => by cases hs⟩
    · rw [FanOut.closed_close]
      rfl
  | _ =>
    rw [hcell] at h
    exact h.elim

theorem closeCell_evolves (hnear : ∀ j, (near j).Evolving) (id : SinkId) (w : Network) :
    Evolves w (closeCell near id w).2 := by
  by_cases h : (w.cell id).Provided
  · obtain ⟨v, c, he, hv, hc, -⟩ := closeCell_closes hnear id w h
    rw [he]
    exact hv.set hc
  have hkeeps : ∀ j, (near j).Keeps (Evolves w) := fun j => hnear j w
  have hstart := Evolves.refl w
  unfold closeCell
  cases hcell : w.cell id with
  | failing f inner =>
    dsimp only
    split
    · exact hstart
    · split
      · exact (hkeeps _).close hstart
      · exact hstart
  | breaking b => exact hstart
  | scripted s =>
    refine hstart.set ?_
    rw [hcell]
    exact Cell.becomes_answer s _
  | gate g inner => exact (hkeeps inner).close hstart
  | gone => exact hstart
  | _ =>
    rw [hcell] at h
    exact absurd trivial h

/-- **Operations of sinks let the network evolve**, whatever stands behind them. -/
theorem destination_evolves : ∀ (n : ℕ) (id : SinkId), (destination n id).Evolving := by
  intro n
  induction n with
  | zero => exact fun id w => Destination.keeps_absent _
  | succ n ih =>
    intro id w
    exact ⟨fun p {_} h => h.trans (writeCell_evolves ih id p _),
      fun {_} h => h.trans (flushCell_evolves ih id _),
      fun {_} h => h.trans (closeCell_evolves ih id _)⟩

theorem write_evolves (id : SinkId) (p : ByteArray) (w : Network) : Evolves w (w.write id p).2 :=
  (destination_evolves _ id w).write p (.refl w)

theorem flush_evolves (id : SinkId) (w : Network) : Evolves w (w.flush id).2 :=
  (destination_evolves _ id w).flush (.refl w)

theorem close_evolves (id : SinkId) (w : Network) : Evolves w (w.close id).2 :=
  (destination_evolves _ id w).close (.refl w)

/-! ## The background -/

theorem leave_evolves (x : LateWrite) {v : Network} (h : Evolves w v) : Evolves w (v.leave x) :=
  h.congr rfl

theorem patientMember_keeps (hd : d.Keeps (Evolves w)) (place : ℕ) (m : SinkId) :
    (patientMember place m d).Keeps (Evolves w) := by
  refine ⟨fun p v h => ?_, hd.flush, hd.close⟩
  unfold patientMember
  dsimp only
  split
  · exact (hd.write p h).congr rfl
  · exact leave_evolves _ h

theorem patient_evolves : ∀ (n : ℕ) (id : SinkId), (patient n id).Evolving := by
  intro n
  induction n with
  | zero => exact fun id w => Destination.keeps_absent _
  | succ n ih =>
    intro id w
    refine ⟨fun p v h => h.trans ?_, (destination_evolves (n + 1) id w).flush,
      (destination_evolves (n + 1) id w).close⟩
    have hstart := Evolves.refl v
    unfold patient
    dsimp only
    split
    · split
      · exact leave_evolves _ hstart
      · exact (ih _ v).write p hstart
    · exact FanOut.write_keeps report_evolves
        (fun (m : SinkId × ℕ) => patientMember_keeps (ih m.1 v) m.2 m.1) p _ hstart
    · exact writeCell_evolves ih id p v

/-- **A step of a worker** lets the network evolve. -/
theorem deliver?_evolves (h : w.deliver? id = some w') : Evolves w w' := by
  refine deliver?_keeps (Evolves.ofCells w) (fun n id p _ h => (patient_evolves n id w).write p h)
    (fun n id p _ h => (destination_evolves n id w).write p h) (fun hcell m v h => ?_) h (.refl w)
  refine h.set ?_
  rw [hcell]
  exact Cell.becomes_queued fun hq => hq

/-- **The waiting time of a buffer ends.** -/
theorem expire_evolves (id : SinkId) (w : Network) : Evolves w (w.expire id) := by
  unfold expire
  split
  · rename_i b inner hcell
    refine (inBackground_evolves (fun h => Buffer.expire_keeps report_evolves
      (destination_evolves _ inner w) b h) (.refl w)).set ?_
    rw [hcell]
    exact Cell.becomes_buffered fun h => (Buffer.closed_expire (w.near inner) b _).trans h
  · exact .refl w

/-! ## Sinks that are given up -/

/-- What a sink does that is given up. -/
theorem abandon_evolves (id : SinkId) (w : Network) : Evolves w (w.abandon id).2 := by
  have hnear : ∀ j, (w.near j).Evolving := fun j => destination_evolves _ j
  have hstart := Evolves.refl w
  have hfault : ∀ (line : Fault → String) (o : Outcome) {v : Network}, Evolves w v →
      Evolves w (v.reportFault line o).2 := by
    intro line o v h
    unfold reportFault
    split
    · exact report_evolves _ h
    · exact h
  unfold abandon
  split
  · exact Buffer.abandon_keeps report_evolves (hnear _ w) _ hstart
  · exact Queue.abandon_keeps report_evolves (hnear _ w)
      (fun p _ h => process_evolves (hnear _) p h) (fun f _ h => notify_evolves _ f h)
      (fun k _ h => finish_evolves _ k h) _ hstart
  · exact hfault _ _ (hstart.disk _)
  · exact hfault _ _ (hstart.disk _)
  · exact hstart

end Network

end Logging
