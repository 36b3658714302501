import Logging.Network.Assembly
import Logging.Proofs.Network.Settling

/-!
# Buffers, queues and fan-outs are transparent

* `Tree.Made`: the sinks of a tree as they are when they were just made.
* `Network.run`: somebody writes to the foremost sink and flushes it, waiting times end, and the
  workers come to rest after each of it.
* `Tree.Resting`: what holds whenever the workers are at rest.
* `Tree.transparent`: **whatever stands in front of them, the sinks at the ends hold everything that
  was written to the foremost sink, in order, once it is closed.** No operation fails.
-/

namespace Logging

open Sink Worker

namespace Network

/-- What happens to a tree of sinks. -/
inductive Move where
  | write (p : ByteArray)
  | flush
  /-- The waiting time of a buffer ends. -/
  | expire (id : ℕ)

/-- What a move writes. -/
def Move.payload : Move → ByteArray
  | write p => p
  | flush => .empty
  | expire _ => .empty

/-- One move; `root` is the foremost sink. -/
def perform (root : ℕ) (w : Network) : Move → Outcome × Network
  | .write p => w.write root p
  | .flush => w.flush root
  | .expire id => (.ok (), w.expire id)

/-- Several moves, with their outcomes. The workers come to rest after each. -/
def run (root : ℕ) : List Move → Network → List Outcome × Network
  | [], w => ([], w)
  | m :: ms, w =>
    let (o, w) := w.perform root m
    let (os, w) := run root ms w.settle
    (o :: os, w)

end Network

namespace Tree

variable {t : Tree} {w w' : Network} {b : ByteArray} {id n : ℕ}

/-- **Sinks that were just made.** A queue that is made from a capacity alone has no hook; one that
is given must not break off, since closing would report it. -/
def Made : Tree → Network → Prop
  | leaf id .memory, w => w.cell id = .memory {}
  | leaf id (.file n before), w => w.disk.Takes n ∧ (w.disk.file n).contents = before ∧
      ∃ path, w.cell id = .file { path, writer := some { file := n } }
  | buffered id t, w => t.Made w ∧ ∃ settings buf, Buffer.new settings = .ok buf ∧
      w.cell id = .buffered buf t.id
  | queued id t, w => t.Made w ∧ ∃ (plan : QueuePlan) (m : Machine ByteArray),
      Machine.new plan.name plan.capacity plan.policy plan.hook = .ok m ∧
      (∀ p, plan.hook ≠ .breaks p) ∧ w.cell id = .queued { machine := m } t.id
  | fanOut id ts, w => w.cell id = .fanOut { members := ts.map Tree.id } ∧ ∀ t ∈ ts, t.Made w

/-- Sinks that were just made have taken nothing. -/
theorem Made.sound : ∀ {t : Tree}, t.Made w → t.Sound .empty w := by
  refine @induction _ ?_ ?_ ?_ ?_
  · intro id l h
    cases l with
    | memory =>
      rw [Made] at h
      rw [Sound]
      exact ⟨_, h, rfl, rfl⟩
    | file n before =>
      rw [Made] at h
      rw [Sound]
      obtain ⟨ht, hb, path, hcell⟩ := h
      exact ⟨_, _, hcell, rfl, rfl, ht, by simp [Disk.Writer.total, hb]⟩
  · intro id t ih h
    rw [Made] at h
    rw [Sound]
    obtain ⟨hm, settings, buf, hnew, hcell⟩ := h
    obtain ⟨-, rfl⟩ := Buffer.new_ok hnew
    exact ⟨_, .empty, hcell, rfl, rfl, by simp, ih hm⟩
  · intro id t ih h
    rw [Made] at h
    rw [Sound]
    obtain ⟨hm, plan, m, hnew, hhook, hcell⟩ := h
    obtain ⟨hpos, rfl⟩ := Machine.new_ok hnew
    exact ⟨_, .empty, hcell, ⟨rfl, rfl, rfl, rfl, hpos, rfl, hhook⟩, by simp, ih hm⟩
  · intro id ts ih h
    rw [Made] at h
    rw [Sound]
    exact ⟨_, h.1, rfl, rfl, fun t ht => ih t ht (h.2 t ht)⟩

theorem Made.quiet : ∀ {t : Tree}, t.Made w → t.Quiet w := by
  refine @induction _ ?_ ?_ ?_ ?_
  · intro id l h x hx
    obtain rfl : x = id := by simpa [ids] using hx
    exact load_leaf h.sound
  · intro id t ih h x hx
    rw [Made] at h
    obtain ⟨hm, settings, buf, -, hcell⟩ := h
    simp only [ids, List.mem_cons] at hx
    rcases hx with rfl | hx
    · simp [Network.load, hcell]
    · exact ih hm x hx
  · intro id t ih h x hx
    rw [Made] at h
    obtain ⟨hm, plan, m, hnew, -, hcell⟩ := h
    obtain ⟨-, rfl⟩ := Machine.new_ok hnew
    simp only [ids, List.mem_cons] at hx
    rcases hx with rfl | hx
    · simp [Network.load, hcell]
    · exact ih hm x hx
  · intro id ts ih h x hx
    rw [Made] at h
    simp only [ids, List.mem_cons, List.mem_flatMap] at hx
    rcases hx with rfl | ⟨t, ht, hx⟩
    · simp [Network.load, h.1]
    · exact ih t ht (h.2 t ht) x hx

/-- **The workers are at rest**, and every sink of the tree has taken the same bytes. -/
structure Resting (b : ByteArray) (t : Tree) (w : Network) : Prop where
  placed : t.Placed w
  sound : t.Sound b w
  quiet : t.Quiet w

/-- **One move**, and the workers come to rest. -/
theorem Resting.perform (h : t.Resting b w) (m : Network.Move) :
    (w.perform t.id m).1 = .ok () ∧ t.Resting (b ++ m.payload) (w.perform t.id m).2.settle ∧
      Alters t.ids t.files w (w.perform t.id m).2.settle := by
  -- it is enough that no queue holds more than one payload
  have hsettle : ∀ {b' w'}, t.Loaded b' w' → Alters t.ids t.files w w' →
      t.Resting b' w'.settle ∧ Alters t.ids t.files w w'.settle := by
    intro b' w' hl ha
    obtain ⟨hp, hs, hq, ha'⟩ := settle_works (h.placed.alters ha) hl
    exact ⟨⟨hp, hs, hq⟩, ha.trans ha'⟩
  cases m with
  | write p =>
    obtain ⟨w', he, htaken, ha⟩ := write_works True t p h.placed.known h.placed.ordered
      h.placed.distinct ⟨h.sound, fun x hx => h.quiet x (front_subset t hx), fun _ => h.quiet⟩
    have hw : w.perform t.id (.write p) = (.ok (), w') := he
    rw [hw]
    exact ⟨rfl, hsettle ⟨htaken.sound, (htaken.written trivial).load_le htaken.sound⟩
      (ha.mono (front_subset t) (List.Subset.refl _))⟩
  | flush =>
    obtain ⟨w', he, hl, ha⟩ := flush_works t h.placed.known h.placed.ordered h.placed.distinct
      ⟨h.sound, h.quiet.written⟩
    have hw : w.perform t.id .flush = (.ok (), w') := he
    rw [hw, Network.Move.payload, ByteArray.append_empty]
    exact ⟨rfl, hsettle hl ha⟩
  | expire i =>
    obtain ⟨hl, ha⟩ := expire_works h.placed h.sound h.quiet i
    rw [Network.Move.payload, ByteArray.append_empty]
    exact ⟨rfl, hsettle hl ha⟩

/-- **Any number of moves.** -/
theorem Resting.run : ∀ (ms : List Network.Move) {b : ByteArray} {w : Network}, t.Resting b w →
    (∀ o ∈ (Network.run t.id ms w).1, o = .ok ()) ∧
      t.Resting (b ++ joined (ms.map Network.Move.payload)) (Network.run t.id ms w).2 ∧
      Alters t.ids t.files w (Network.run t.id ms w).2 := by
  intro ms
  induction ms with
  | nil =>
    intro b w h
    exact ⟨by simp [Network.run], by simpa [Network.run] using h, .refl _ _ w⟩
  | cons m ms ih =>
    intro b w h
    obtain ⟨hok, hrest, ha⟩ := h.perform m
    obtain ⟨hok', hrest', ha'⟩ := ih hrest
    refine ⟨fun o ho => ?_, ?_, ha.trans ha'⟩
    · rcases List.mem_cons.1 ho with rfl | ho
      · exact hok
      · exact hok' o ho
    · simpa [Network.run, ByteArray.append_assoc] using hrest'

/-- **Buffers, queues and fan-outs are transparent.** Whatever stands in front of them and however
it is nested, the sinks at the ends hold everything that was written to the foremost sink, in order,
once it is closed; a file holds it behind what it held before, and under the same names. Every
operation ends well. -/
theorem transparent (hp : t.Placed w) (hm : t.Made w) (ms : List Network.Move) :
    (∀ o ∈ (Network.run t.id ms w).1, o = .ok ()) ∧
      ((Network.run t.id ms w).2.close t.id).1 = .ok () ∧
      t.Ended (joined (ms.map Network.Move.payload)) ((Network.run t.id ms w).2.close t.id).2 ∧
      ((Network.run t.id ms w).2.close t.id).2.disk.nodes = w.disk.nodes := by
  obtain ⟨hok, hrest, ha⟩ := Resting.run ms ⟨hp, hm.sound, hm.quiet⟩
  obtain ⟨w', he, hend, ha'⟩ := close_works t hrest.placed.known hrest.placed.ordered
    hrest.placed.distinct ⟨hrest.sound, hrest.quiet.written⟩
  have hclose : (Network.run t.id ms w).2.close t.id = (.ok (), w') := he
  rw [hclose]
  exact ⟨hok, rfl, by simpa using hend, ha'.nodes.trans ha.nodes⟩

/-- A fan-out in front of a queue with room for one payload, a small buffer and a memory, and of
another small buffer and a file. -/
def sample : Tree :=
  .fanOut 5 [.queued 2 (.buffered 1 (.leaf 0 .memory)),
    .buffered 4 (.leaf 3 (.file 0 { plain := ⟨#[9]⟩ }))]

/-- Its sinks, just made. -/
def sampleNetwork : Network where
  cells := #[.memory {}, .buffered { threshold := 4 } 0,
    .queued { machine :=
      { name := Queue.workerName, capacity := 1, policy := .default, hook := .runs } } 1,
    .file { path := .ofText "app.log", writer := some { file := 0 } },
    .buffered { threshold := 2 } 3, .fanOut { members := [2, 4] }]
  disk := { nodes := [(["app.log"], .file 0)], files := #[{ contents := { plain := ⟨#[9]⟩ } }] }

theorem transparent_memory_and_file :
    sample.Placed sampleNetwork ∧ sample.Made sampleNetwork ∧
      ∃ w, (Network.run 5 [.write ⟨#[1, 2]⟩, .expire 4, .write ⟨#[3]⟩, .flush,
          .write ⟨#[4, 5, 6, 7]⟩] sampleNetwork).2.close 5 = (.ok (), w) ∧
        (∃ m, w.cell 0 = .memory m ∧
          m.contents = joined [⟨#[1, 2]⟩, .empty, ⟨#[3]⟩, .empty, ⟨#[4, 5, 6, 7]⟩]) ∧
        (w.disk.file 0).contents = Disk.Contents.followed { plain := ⟨#[9]⟩ }
          (joined [⟨#[1, 2]⟩, .empty, ⟨#[3]⟩, .empty, ⟨#[4, 5, 6, 7]⟩]) := by
  have hids : sample.ids = [5, 2, 1, 0, 4, 3] := by simp [sample, ids]
  have hin : ∀ id c, id ∉ sample.ids → c ≠ .gone → sampleNetwork.cell id ≠ c := by
    intro id c hid hc hcell
    have hlt : id < 6 := Network.cell_lt hcell hc
    simp only [hids, List.mem_cons, List.not_mem_nil, or_false] at hid
    omega
  have hp : sample.Placed sampleNetwork := by
    refine ⟨by simp [sample, Ordered], ⟨by simp [hids], by simp [sample, files, leaves]⟩,
      by simp [sample, sampleNetwork], fun id hid q inner => hin id _ hid (by simp),
      fun id hid buf inner => hin id _ hid (by simp), rfl, rfl⟩
  have hm : sample.Made sampleNetwork := by
    simp only [sample, Made, List.mem_cons, List.not_mem_nil, or_false, forall_eq_or_imp, forall_eq]
    refine ⟨rfl, ⟨⟨rfl, ⟨4, 1000⟩, _, rfl, rfl⟩, ⟨Queue.workerName, 1, .default, .runs⟩, _, rfl,
      by simp, rfl⟩, ⟨⟨⟨by decide, rfl⟩, rfl, _, rfl⟩, ⟨2, 1000⟩, _, rfl, rfl⟩⟩
  obtain ⟨-, hok, hend, -⟩ := transparent hp hm [.write ⟨#[1, 2]⟩, .expire 4, .write ⟨#[3]⟩, .flush,
    .write ⟨#[4, 5, 6, 7]⟩]
  exact ⟨hp, hm, _, Prod.ext hok rfl, hend 0 .memory (by simp [sample, leaves]),
    hend 3 (.file 0 _) (by simp [sample, leaves])⟩

end Tree

end Logging
