import Mathlib.Data.List.Nodup
import Logging.Network.Background
import Logging.Proofs.Disk.Files

/-!
# Trees of sinks

* `Tree`: sinks behind buffers, queues and fan-outs, by their numbers in a network.
* `Tree.Sound`: every sink of the tree has taken the same bytes; those that did not yet come to its
  end are in the buffers and queues on the way.
* `Alters`: an operation changes some sinks and some files at most.
* `Tree.sound_local`: what happens elsewhere does not matter.
-/

namespace Logging

open Sink

/-- A sink at the end of a chain. -/
inductive Leaf where
  | memory
  /-- The file of that number, which held this before. -/
  | file (n : ℕ) (before : Disk.Contents)

/-- Sinks behind buffers, queues and fan-outs, by their numbers. -/
inductive Tree where
  | leaf (id : ℕ) (l : Leaf)
  | buffered (id : ℕ) (t : Tree)
  | queued (id : ℕ) (t : Tree)
  | fanOut (id : ℕ) (ts : List Tree)

/-- A queue that takes payloads, and whose worker has nothing in hand. -/
structure Sink.Queue.Working (q : Queue) : Prop where
  isOpen : q.closed = false
  running : q.machine.activity = .running
  accepting : q.machine.phase = .accepting
  joined : q.machine.joined = false
  room : 0 < q.machine.capacity
  inHand : q.machine.inHand = none
  hook : ∀ p, q.machine.hook ≠ .breaks p

namespace Tree

/-- What holds of every tree if it holds of a tree whenever it holds of those below it. -/
theorem induction {P : Tree → Prop} (leaf : ∀ id l, P (.leaf id l))
    (buffered : ∀ id t, P t → P (.buffered id t)) (queued : ∀ id t, P t → P (.queued id t))
    (fanOut : ∀ id ts, (∀ t ∈ ts, P t) → P (.fanOut id ts)) : ∀ t, P t
  | .leaf id l => leaf id l
  | .buffered id t => buffered id t (induction leaf buffered queued fanOut t)
  | .queued id t => queued id t (induction leaf buffered queued fanOut t)
  | .fanOut id ts => fanOut id ts fun t _ => induction leaf buffered queued fanOut t

/-- The number of the foremost sink. -/
def id : Tree → ℕ
  | leaf id _ => id
  | buffered id _ => id
  | queued id _ => id
  | fanOut id _ => id

@[simp] theorem id_leaf (n : ℕ) (l : Leaf) : (leaf n l).id = n := rfl

@[simp] theorem id_buffered (n : ℕ) (t : Tree) : (buffered n t).id = n := rfl

@[simp] theorem id_queued (n : ℕ) (t : Tree) : (queued n t).id = n := rfl

@[simp] theorem id_fanOut (n : ℕ) (ts : List Tree) : (fanOut n ts).id = n := rfl

/-- The numbers of all sinks. -/
def ids : Tree → List ℕ
  | leaf id _ => [id]
  | buffered id t => id :: t.ids
  | queued id t => id :: t.ids
  | fanOut id ts => id :: ts.flatMap fun t => t.ids

/-- The sinks at the ends. -/
def leaves : Tree → List (ℕ × Leaf)
  | leaf id l => [(id, l)]
  | buffered _ t => t.leaves
  | queued _ t => t.leaves
  | fanOut _ ts => ts.flatMap fun t => t.leaves

/-- The files at the ends. -/
def files (t : Tree) : List ℕ := t.leaves.filterMap fun
  | (_, .file n _) => some n
  | (_, .memory) => none

@[simp] theorem files_buffered (id : ℕ) (t : Tree) : (buffered id t).files = t.files := by
  simp [files, leaves]

@[simp] theorem files_queued (id : ℕ) (t : Tree) : (queued id t).files = t.files := by
  simp [files, leaves]

@[simp] theorem files_fanOut (id : ℕ) (ts : List Tree) :
    (fanOut id ts).files = ts.flatMap fun t => t.files := by
  simp [files, leaves, List.filterMap_flatMap]

/-- The sinks that a write reaches at once: it ends at queues. -/
def front : Tree → List ℕ
  | leaf id _ => [id]
  | buffered id t => id :: t.front
  | queued id _ => [id]
  | fanOut id ts => id :: ts.flatMap fun t => t.front

/-- The sinks behind a sink were there before it. -/
def Ordered : Tree → Prop
  | leaf _ _ => True
  | buffered id t => t.id < id ∧ t.Ordered
  | queued id t => t.id < id ∧ t.Ordered
  | fanOut id ts => ∀ t ∈ ts, t.id < id ∧ t.Ordered

/-- **Every sink of the tree has taken these bytes**, and works. -/
def Sound : Tree → ByteArray → Network → Prop
  | leaf id .memory, b, w => ∃ m, w.cell id = .memory m ∧ m.closed = false ∧ m.contents = b
  | leaf id (.file n before), b, w => ∃ f wr, w.cell id = .file f ∧ f.writer = some wr ∧
      wr.file = n ∧ w.disk.Takes n ∧ wr.total w.disk = before.followed b
  | buffered id t, b, w => ∃ buf b', w.cell id = .buffered buf t.id ∧ buf.closed = false ∧
      buf.timer = .running ∧ b = b' ++ buf.pending ∧ t.Sound b' w
  | queued id t, b, w => ∃ q b', w.cell id = .queued q t.id ∧ q.Working ∧
      b = b' ++ joined q.machine.queue ∧ t.Sound b' w
  | fanOut id ts, b, w => ∃ f, w.cell id = .fanOut f ∧ f.closed = false ∧
      f.members = ts.map Tree.id ∧ ∀ t ∈ ts, t.Sound b w

end Tree

/-- How many payloads wait in a queue. -/
def Network.load (w : Network) (id : ℕ) : ℕ :=
  match w.cell id with
  | .queued q _ => q.machine.queue.length
  | _ => 0

/-- **An operation changes these sinks and these files at most.** -/
structure Alters (sinks fs : List ℕ) (w w' : Network) : Prop where
  size : w'.cells.size = w.cells.size
  cells : ∀ id, id ∉ sinks → w'.cell id = w.cell id
  files : w'.disk.files.size = w.disk.files.size
  file : ∀ n, n ∉ fs → w'.disk.file n = w.disk.file n
  nodes : w'.disk.nodes = w.disk.nodes
  paused : w'.paused = w.paused
  blocked : w'.blocked = w.blocked

namespace Alters

variable {s s' f f' : List ℕ} {w w' w'' : Network}

theorem refl (s f : List ℕ) (w : Network) : Alters s f w w :=
  ⟨rfl, fun _ _ => rfl, rfl, fun _ _ => rfl, rfl, rfl, rfl⟩

theorem trans (h : Alters s f w w') (h' : Alters s f w' w'') : Alters s f w w'' :=
  ⟨h'.size.trans h.size, fun id hi => (h'.cells id hi).trans (h.cells id hi),
    h'.files.trans h.files, fun n hn => (h'.file n hn).trans (h.file n hn),
    h'.nodes.trans h.nodes, h'.paused.trans h.paused, h'.blocked.trans h.blocked⟩

theorem mono (h : Alters s f w w') (hs : s ⊆ s') (hf : f ⊆ f') : Alters s' f' w w' :=
  ⟨h.size, fun id hi => h.cells id fun hm => hi (hs hm), h.files,
    fun n hn => h.file n fun hm => hn (hf hm), h.nodes, h.paused, h.blocked⟩

theorem load (h : Alters s f w w') {id : ℕ} (hi : id ∉ s) : w'.load id = w.load id := by
  unfold Network.load
  rw [h.cells id hi]

end Alters

namespace Tree

theorem mem_ids_self (t : Tree) : t.id ∈ t.ids := by
  cases t <;> simp [id, ids]

theorem front_subset : ∀ t : Tree, t.front ⊆ t.ids := by
  refine induction ?_ ?_ ?_ ?_
  · intro id l; simp [front, ids]
  · intro id t ih; simpa [front, ids] using List.cons_subset_cons id ih
  · intro id t _; simp [front, ids]
  · intro id ts ih
    -- what is reached of a member is a part of it
    simp only [front, ids]
    refine List.cons_subset_cons id fun x hx => ?_
    obtain ⟨t, ht, hx⟩ := List.mem_flatMap.1 hx
    exact List.mem_flatMap.2 ⟨t, ht, ih t ht hx⟩

/-- The foremost sink was made last. -/
theorem Ordered.le : ∀ {t : Tree}, t.Ordered → ∀ {x}, x ∈ t.ids → x ≤ t.id := by
  refine @induction _ ?_ ?_ ?_ ?_
  · intro id l _ x hx
    simp only [ids, List.mem_singleton] at hx
    exact Nat.le_of_eq hx
  · intro id t ih h x hx
    simp only [Ordered, ids, List.mem_cons] at h hx
    rcases hx with rfl | hx
    · exact Nat.le_refl _
    · have := ih h.2 hx
      show x ≤ id
      omega
  · intro id t ih h x hx
    simp only [Ordered, ids, List.mem_cons] at h hx
    rcases hx with rfl | hx
    · exact Nat.le_refl _
    · have := ih h.2 hx
      show x ≤ id
      omega
  · intro id ts ih h x hx
    simp only [Ordered, ids, List.mem_cons, List.mem_flatMap] at h hx
    rcases hx with rfl | ⟨t, ht, hx⟩
    · exact Nat.le_refl _
    · have := ih t ht (h t ht).2 hx
      have := (h t ht).1
      show x ≤ id
      omega

/-- Two networks are the same where the tree is. -/
structure Agrees (t : Tree) (w w' : Network) : Prop where
  cells : ∀ x ∈ t.ids, w'.cell x = w.cell x
  size : w'.disk.files.size = w.disk.files.size
  file : ∀ n ∈ t.files, w'.disk.file n = w.disk.file n

/-- A property of a tree that depends on nothing else in the network. -/
def Local (P : Tree → Network → Prop) : Prop :=
  ∀ {t : Tree} {w w' : Network}, t.Agrees w w' → P t w → P t w'

variable {t : Tree} {w w' : Network} {s f : List ℕ} {id : ℕ}

theorem Agrees.of_alters (h : Alters s f w w') (hs : ∀ x ∈ t.ids, x ∉ s)
    (hf : ∀ n ∈ t.files, n ∉ f) : t.Agrees w w' :=
  ⟨fun x hx => h.cells x (hs x hx), h.files, fun n hn => h.file n (hf n hn)⟩

theorem Agrees.buffered (h : (Tree.buffered id t).Agrees w w') : t.Agrees w w' :=
  ⟨fun x hx => h.cells x (by simp [ids, hx]), h.size, fun n hn => h.file n (by simpa using hn)⟩

theorem Agrees.queued (h : (Tree.queued id t).Agrees w w') : t.Agrees w w' :=
  ⟨fun x hx => h.cells x (by simp [ids, hx]), h.size, fun n hn => h.file n (by simpa using hn)⟩

theorem Agrees.fanOut {ts : List Tree} (h : (Tree.fanOut id ts).Agrees w w') (ht : t ∈ ts) :
    t.Agrees w w' :=
  ⟨fun x hx => h.cells x (by simpa [ids] using .inr ⟨t, ht, hx⟩), h.size,
    fun n hn => h.file n (by simpa using ⟨t, ht, hn⟩)⟩

theorem Agrees.self (h : t.Agrees w w') : w'.cell t.id = w.cell t.id := h.cells _ t.mem_ids_self

theorem Agrees.load (h : t.Agrees w w') {x : ℕ} (hx : x ∈ t.ids) : w'.load x = w.load x := by
  unfold Network.load
  rw [h.cells x hx]

/-- Nothing waits in a sink at an end. -/
theorem load_leaf {l : Leaf} {b : ByteArray} (h : (leaf id l).Sound b w) : w.load id = 0 := by
  cases l with
  | memory =>
    rw [Sound] at h
    obtain ⟨m, hcell, -⟩ := h
    simp [Network.load, hcell]
  | file n before =>
    rw [Sound] at h
    obtain ⟨f, wr, hcell, -⟩ := h
    simp [Network.load, hcell]

/-- **What happens elsewhere does not matter.** -/
theorem sound_local (b : ByteArray) : Local fun t w => t.Sound b w := by
  intro t w w' h
  revert b h
  refine @induction (fun t => ∀ b, t.Agrees w w' → t.Sound b w → t.Sound b w') ?_ ?_ ?_ ?_ t
  · intro id l b ha h
    have hcell := ha.self
    cases l with
    | memory => simpa only [Sound, show w'.cell id = w.cell id from hcell] using h
    | file n before =>
      have hfile := ha.file n (by simp [files, leaves])
      rw [Sound] at h ⊢
      obtain ⟨f, wr, hcell', hw, rfl, ht, htotal⟩ := h
      -- a file sink depends on its file as well
      refine ⟨f, wr, hcell.trans hcell', hw, rfl, ⟨by rw [ha.size]; exact ht.known, ?_⟩, ?_⟩
      · rw [hfile]; exact ht.room
      · rw [← htotal, Disk.Writer.total, Disk.Writer.total, hfile]
  · intro id t ih b ha h
    rw [Sound] at h ⊢
    obtain ⟨buf, b', hcell, hclosed, htimer, hb, ht⟩ := h
    exact ⟨buf, b', ha.self.trans hcell, hclosed, htimer, hb, ih b' ha.buffered ht⟩
  · intro id t ih b ha h
    rw [Sound] at h ⊢
    obtain ⟨q, b', hcell, hq, hb, ht⟩ := h
    exact ⟨q, b', ha.self.trans hcell, hq, hb, ih b' ha.queued ht⟩
  · intro id ts ih b ha h
    rw [Sound] at h ⊢
    obtain ⟨f, hcell, hclosed, hm, hts⟩ := h
    exact ⟨f, ha.self.trans hcell, hclosed, hm, fun t ht => ih t ht b (ha.fanOut ht) (hts t ht)⟩

/-! ## Distinct sinks -/

/-- No sink and no file stands twice in the tree. -/
structure Distinct (t : Tree) : Prop where
  ids : t.ids.Nodup
  files : t.files.Nodup

/-- Two trees have no sink and no file in common. -/
def Apart (t u : Tree) : Prop := (∀ x ∈ t.ids, x ∉ u.ids) ∧ ∀ n ∈ t.files, n ∉ u.files

variable {ts : List Tree}

theorem Distinct.buffered (h : (Tree.buffered id t).Distinct) : id ∉ t.ids ∧ t.Distinct := by
  have := h.ids
  simp only [Tree.ids, List.nodup_cons] at this
  exact ⟨this.1, this.2, by simpa using h.files⟩

theorem Distinct.queued (h : (Tree.queued id t).Distinct) : id ∉ t.ids ∧ t.Distinct := by
  have := h.ids
  simp only [Tree.ids, List.nodup_cons] at this
  exact ⟨this.1, this.2, by simpa using h.files⟩

/-- The members of a fan-out have nothing in common. -/
theorem Distinct.fanOut (h : (Tree.fanOut id ts).Distinct) :
    (∀ t ∈ ts, id ∉ t.ids ∧ t.Distinct) ∧ ts.Pairwise Apart := by
  have hids := h.ids
  have hfiles := h.files
  simp only [Tree.ids, files_fanOut, List.nodup_cons, List.mem_flatMap, not_exists, not_and]
    at hids hfiles
  obtain ⟨hids₁, hids₂⟩ := List.nodup_flatMap.1 hids.2
  obtain ⟨hfiles₁, hfiles₂⟩ := List.nodup_flatMap.1 hfiles
  refine ⟨fun t ht => ⟨hids.1 t ht, hids₁ t ht, hfiles₁ t ht⟩, ?_⟩
  exact (hids₂.and hfiles₂).imp fun h =>
    ⟨fun x hx hx' => h.1 hx hx', fun n hn hn' => h.2 hn hn'⟩

/-- What is done to the members of a fan-out leaves the fan-out itself alone. -/
theorem Distinct.fanOut_cell (h : (Tree.fanOut id ts).Distinct) {reach : Tree → List ℕ}
    (hr : ∀ t, reach t ⊆ t.ids) (ha : Alters (ts.flatMap reach) f w w') :
    w'.cell id = w.cell id := by
  refine ha.cells id fun hmem => ?_
  obtain ⟨t, ht, hx⟩ := List.mem_flatMap.1 hmem
  exact (h.fanOut.1 t ht).1 (hr t hx)

end Tree

end Logging
