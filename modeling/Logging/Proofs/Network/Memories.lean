import Logging.Proofs.Network.Dropping

/-!
# Trees of memory sinks that are given up

* `Tree.Filled`: a tree of memory sinks, whose buffers and queues may hold anything.
* `Network.standIns`: sinks that keep their calls in the place of memory sinks, which the memory
  sinks are recast from.
* `Tree.dropped`: **every memory sink of a tree that is given up without a close holds everything
  that was written**, and was closed once if it stands behind a buffer or a queue. With nothing but
  fan-outs in front of it, it is not closed.
-/

namespace Logging

open Sink Worker

variable {w : Network} {id x : ℕ} {program : List ℕ}

namespace Sink

/-! ## Sinks in the place of others -/

/-- A queue that takes payloads, whatever its policy is. -/
structure Queue.Taking (q : Queue) : Prop where
  isOpen : q.closed = false
  running : q.machine.activity = .running
  accepting : q.machine.phase = .accepting
  joined : q.machine.joined = false

theorem Queue.Taking.serving {q : Queue} (h : q.Taking) : (q.under .default).Serving :=
  ⟨h.isOpen, h.running, h.accepting, h.joined, fun e he => by cases he⟩

/-- Nothing closed the memory sink. -/
structure Memory.Unclosed (m : Memory) : Prop where
  isOpen : m.closed = false
  closeCalls : m.closeCalls = 0

instance (m : Memory) : Decidable m.Unclosed :=
  decidable_of_iff (m.closed = false ∧ m.closeCalls = 0)
    ⟨fun h => ⟨h.1, h.2⟩, fun h => ⟨h.isOpen, h.closeCalls⟩⟩

/-- A sink that keeps its calls and got the same writes. -/
def Memory.standIn (m : Memory) : Scripted where
  name := Memory.name
  script _ := .ok ()
  calls := m.writes.toList.map fun p => (.write p, .ok ())

theorem Memory.standIn_open (m : Memory) : ∀ c ∈ m.standIn.calls, c.1 ≠ .close := by
  intro c hc
  obtain ⟨p, -, rfl⟩ := List.mem_map.1 hc
  simp

theorem Memory.offered_standIn (m : Memory) : offered m.standIn.calls = m.writes.toList := by
  simp [standIn, offered, List.filterMap_map, Call.payload?]

theorem Memory.kept_standIn {m : Memory} (h : m.Unclosed) : m.standIn.kept = m := by
  have hclosings := Scripted.closings_eq_zero m.standIn_open
  obtain ⟨writes, closed, closeCalls⟩ := m
  obtain ⟨rfl, rfl⟩ := h
  simp [Scripted.kept, hclosings, Memory.offered_standIn]

/-- Calls of which the last ones closed the sink, so many times. -/
theorem Scripted.kept_closing {s : Scripted} {cs closing : List (Call × Outcome)} {k : ℕ}
    (hcalls : s.calls = cs ++ closing) (hcs : ∀ c ∈ cs, c.1 ≠ .close)
    (hclosing : closing.map Prod.fst = List.replicate k .close) :
    s.kept = { writes := (offered cs).toArray, closed := k != 0, closeCalls := k } := by
  have hoffered : offered closing = [] := by
    have hmap : offered closing = (closing.map Prod.fst).filterMap Call.payload? := by
      rw [List.filterMap_map]
      rfl
    rw [hmap, hclosing, List.filterMap_replicate]
    rfl
  have hcount : closing.countP (fun c => c.1.closes) = k := by
    have hmap : closing.countP (fun c => c.1.closes) =
        (closing.map Prod.fst).countP Call.closes := by
      rw [List.countP_map]
      rfl
    rw [hmap, hclosing, List.countP_replicate]
    rfl
  have hnone : cs.countP (fun c => c.1.closes) = 0 :=
    Scripted.closings_eq_zero (s := { s with calls := cs }) hcs
  have hclosings : s.closings = k := by
    rw [Scripted.closings, hcalls, List.countP_append, hnone, hcount, Nat.zero_add]
  rw [Scripted.kept, hclosings, hcalls, offered_append, hoffered, List.append_nil]

end Sink

/-- A sink that keeps its calls in the place of a memory sink, and a worker that drops what
fails. -/
def Cell.standIn : Cell → Cell
  | memory m => if m.Unclosed then scripted m.standIn else memory m
  | queued q inner => queued (q.under .default) inner
  | c => c

theorem Cell.recast_standIn (c : Cell) : c.recast c.standIn = c := by
  cases c with
  | memory m =>
    unfold standIn
    dsimp only
    split
    · rename_i h
      simp [recast, Memory.kept_standIn h]
    · rfl
  | _ => rfl

theorem Cell.recast_references (c₀ c : Cell) : (c₀.recast c).references = c.references := by
  cases c with
  | scripted s => cases c₀ <;> rfl
  | _ => rfl

namespace Network

/-- Sinks that keep their calls in the place of memory sinks, and workers that drop what fails. -/
def standIns (w : Network) : Network := { w with cells := w.cells.map Cell.standIn }

@[simp] theorem standIns_cell (id : ℕ) : w.standIns.cell id = (w.cell id).standIn := by
  simp only [standIns, cell, Array.getD_eq_getD_getElem?, Array.getElem?_map]
  cases w.cells[id]? <;> rfl

theorem standIns_size : w.standIns.cells.size = w.cells.size := by simp [standIns]

/-- **The network is recast from the one with the others in their places.** -/
theorem recast_standIns (w : Network) : w.recast w.standIns = w := by
  have hcells : (w.recast w.standIns).cells = w.cells := by
    refine Array.ext (by simp [standIns_size]) fun i hi hi' => ?_
    have hcell : (w.recast w.standIns).cell i = _ := recast_cell i
    rw [standIns_cell, Cell.recast_standIn] at hcell
    rw [show w.cell i = w.cells[i] by simp [cell, hi']] at hcell
    rw [← hcell]
    simp only [cell, Array.getD_eq_getD_getElem?, Array.getElem?_eq_getElem hi, Option.getD_some]
  calc w.recast w.standIns = { w with cells := (w.recast w.standIns).cells } := rfl
    _ = w := by rw [hcells]

theorem pieces_standIns (id : ℕ) : w.standIns.pieces id = w.pieces id := by
  unfold pieces
  rw [standIns_cell]
  cases w.cell id with
  | memory m => by_cases h : m.Unclosed <;> simp [Cell.standIn, h]
  | _ => rfl

end Network

namespace Tree

variable {t u : Tree} {ts : List Tree}

/-- A tree of memory sinks in which nothing was closed. Its buffers and queues may hold anything. -/
def Filled : Tree → Network → Prop
  | leaf id _, w => ∃ m, w.cell id = .memory m ∧ m.Unclosed
  | buffered id t, w => ∃ buf, w.cell id = .buffered buf t.id ∧ buf.closed = false ∧ t.Filled w
  | queued id t, w => ∃ q, w.cell id = .queued q t.id ∧ q.Taking ∧ t.Filled w
  | fanOut id ts, w => ∃ f, w.cell id = .fanOut f ∧ f.closed = false ∧
      f.members = ts.map Tree.id ∧ ∀ t ∈ ts, t.Filled w

theorem Filled.ends : ∀ {t : Tree}, t.Filled w → x ∈ t.ends →
    ∃ m, w.cell x = .memory m ∧ m.Unclosed := by
  refine @induction _ ?_ ?_ ?_ ?_
  · intro id l h hx
    rw [Filled] at h
    obtain rfl : x = id := by simpa using hx
    exact h
  · intro id t ih h hx
    rw [Filled] at h
    obtain ⟨-, -, -, ht⟩ := h
    exact ih ht (by simpa using hx)
  · intro id t ih h hx
    rw [Filled] at h
    obtain ⟨-, -, -, ht⟩ := h
    exact ih ht (by simpa using hx)
  · intro id ts ih h hx
    rw [Filled] at h
    obtain ⟨-, -, -, -, hts⟩ := h
    rw [ends_fanOut, List.mem_flatMap] at hx
    obtain ⟨t, ht, hx⟩ := hx
    exact ih t ht (hts t ht) hx

theorem Filled.isOpen : ∀ {t : Tree}, t.Filled w → t.Open w.standIns := by
  refine @induction _ ?_ ?_ ?_ ?_
  · intro id l h
    rw [Filled] at h
    obtain ⟨m, hcell, hm⟩ := h
    rw [Open]
    exact ⟨m.standIn, by simp [hcell, Cell.standIn, hm], fun _ => Outcome.returns_ok,
      m.standIn_open⟩
  · intro id t ih h
    rw [Filled] at h
    obtain ⟨buf, hcell, hclosed, ht⟩ := h
    rw [Open]
    exact ⟨buf, by simp [hcell, Cell.standIn], hclosed, ih ht⟩
  · intro id t ih h
    rw [Filled] at h
    obtain ⟨q, hcell, hq, ht⟩ := h
    rw [Open]
    exact ⟨q.under .default, by simp [hcell, Cell.standIn], hq.serving, ih ht⟩
  · intro id ts ih h
    rw [Filled] at h
    obtain ⟨f, hcell, hclosed, hm, hts⟩ := h
    rw [Open]
    exact ⟨f, by simp [hcell, Cell.standIn], hclosed, hm, fun t ht => ih t ht (hts t ht)⟩

theorem Filled.tame (h : t.Filled w) : t.Tame w w.standIns := by
  refine ⟨h.isOpen, fun x hx => ?_⟩
  obtain ⟨m, hcell, hm⟩ := h.ends hx
  exact ⟨⟨m, hcell⟩, m.standIn, by simp [hcell, Cell.standIn, hm], fun _ => rfl⟩

theorem Placed.standIns (h : t.Placed w) : t.Placed w.standIns := by
  have hknown : t.id < w.standIns.cells.size := Network.standIns_size.symm ▸ h.known
  refine ⟨h.ordered, h.distinct, hknown, fun id hid q inner hc => ?_,
    fun id hid buf inner hc => ?_, h.paused, h.blocked⟩
  · have hcell := congrArg (w.cell id).recast (Network.standIns_cell id ▸ hc)
    rw [Cell.recast_standIn] at hcell
    exact h.noQueue id hid _ _ hcell
  · have hcell := congrArg (w.cell id).recast (Network.standIns_cell id ▸ hc)
    rw [Cell.recast_standIn] at hcell
    exact h.noBuffer id hid _ _ hcell

/-! ## Giving up trees of memory sinks -/

/-- **A run and giving up the tree afterwards do the same** where the cast is another. Nobody else
holds what passes on in the tree. -/
theorem Tame.lifetime {v : Network} (h : t.Tame w v) (hp : t.Placed v) (hends : t.ends ⊆ program)
    (hprogram : ∀ x ∈ t.decorators, x ∉ program)
    (hothers : ∀ y ∉ t.ids, ∀ x ∈ t.decorators, x ∉ (v.cell y).references)
    (as : List Network.Act) :
    (w.recast v).lifetime t.id program as 0 = w.recast (t.giveUp (v.acts t.id as)) ∧
      t.Leaves (v.acts t.id as) (t.giveUp (v.acts t.id as)) := by
  obtain ⟨hacts, htame⟩ := acts_alike as hp h
  have ha := (acts_convey as hp h.isOpen).2
  have hknown : t.id < (v.acts t.id as).cells.size := ha.size ▸ hp.known
  obtain ⟨halike, -, hleaves⟩ := giveUp_drops w t hknown hp.ordered hp.distinct htame
  have hreferences : ∀ y, ((w.recast (v.acts t.id as)).cell y).references =
      ((v.acts t.id as).cell y).references := fun y => by
    rw [Network.recast_cell, Cell.recast_references]
  have hforsaken : t.Forsaken program [] (w.recast (v.acts t.id as)) :=
    ⟨htame.isOpen.shaped.congr fun y _ => hreferences y, hends, hprogram, by simp,
      fun y hy x hx => by rw [hreferences, ha.cells y hy]; exact hothers y hy x hx⟩
  refine ⟨?_, hleaves⟩
  rw [← halike, ← release_giveUp hforsaken hp.ordered hp.distinct, ← hacts]
  rfl

/-- The calls of a sink at an end in a run, when the tree is given up afterwards. -/
theorem Leaves.whole {v v₁ v₂ : Network} {ps : List ByteArray} (h : t.Conveys ps [] v v₁)
    (h' : t.Leaves v₁ v₂) (hx : x ∈ t.ends) : ∃ news closing,
      v₂.calls x = v.calls x ++ news ++ closing ∧ (∀ c ∈ news, c.1 ≠ .close) ∧
      Carries (offered news) (t.held x v ++ ps) ∧
      closing.map Prod.fst = if x ∈ t.bare then [] else [.close] := by
  obtain ⟨news, hcalls, hnews, hcarries⟩ := h.calls x hx
  obtain ⟨news', closing, hcalls', hnews', hcarries', hclosing⟩ := h' x hx
  refine ⟨news ++ news', closing, by rw [hcalls', hcalls, List.append_assoc (v.calls x)],
    List.forall_mem_append.2 ⟨hnews, hnews'⟩, ?_, hclosing⟩
  rw [offered_append]
  rw [List.append_nil] at hcarries
  exact (hcarries'.append_left _).trans hcarries

/-- **Every memory sink of a tree that is given up without a close holds everything that was
written.** The tree is written to and flushed in any order with what happens in the background; its
buffers and queues may hold something from the beginning. Then its foremost sink is given up by the
last who holds it. A memory sink that stands behind a buffer or a queue was closed once afterwards;
one with nothing but fan-outs in front of it was not closed. -/
theorem dropped (hp : t.Placed w) (h : t.Filled w) (hends : t.ends ⊆ program)
    (hprogram : ∀ x ∈ t.decorators, x ∉ program)
    (hothers : ∀ y ∉ t.ids, ∀ x ∈ t.decorators, x ∉ (w.cell y).references)
    (as : List Network.Act) (hx : x ∈ t.ends) :
    ∃ m m' news, w.cell x = .memory m ∧
      (w.lifetime t.id program as 0).cell x = .memory m' ∧ m'.writes = m.writes ++ news ∧
      Carries news.toList (t.held x w ++ as.flatMap Network.Act.payloads) ∧
      m'.closeCalls = (if x ∈ t.bare then 0 else 1) ∧ (m'.closed = true ↔ x ∉ t.bare) := by
  -- the same run over sinks that keep their calls
  have hpv := hp.standIns
  have hreferences : ∀ y, (w.standIns.cell y).references = (w.cell y).references := fun y => by
    rw [← Cell.recast_references (w.cell y), Network.standIns_cell, Cell.recast_standIn]
  obtain ⟨hend, hleaves⟩ := h.tame.lifetime hpv hends hprogram
    (fun y hy x hx => hreferences y ▸ hothers y hy x hx) as
  rw [w.recast_standIns] at hend
  have hopen := h.tame.isOpen
  obtain ⟨news, closing, hcalls, hnews, hcarries, hclosing⟩ :=
    hleaves.whole (acts_convey as hpv hopen).1 hx
  have hheld : t.held x w.standIns = t.held x w := held_congr fun y _ => Network.pieces_standIns y
  rw [hheld] at hcarries
  -- the sink at this end goes on as it is
  obtain ⟨m, hcell, hm⟩ := h.ends hx
  have hstart : w.standIns.calls x = m.standIn.calls := by
    simp [Network.calls, hcell, Cell.standIn, hm]
  obtain ⟨-, s, hcell₁, -⟩ := (acts_alike as hpv h.tame).2.docile x hx
  obtain ⟨calls, hcell₂⟩ := (giveUp_becomes (hp.distinct.notMem_decorators hx)).script s hcell₁
  have hall : calls = m.standIn.calls ++ news ++ closing := by
    rw [← hstart, ← hcalls]
    simp [Network.calls, hcell₂]
  have hkept := Scripted.kept_closing (s := { s with calls }) (k := if x ∈ t.bare then 0 else 1)
    hall (List.forall_mem_append.2 ⟨m.standIn_open, hnews⟩) (by rw [hclosing]; split <;> rfl)
  refine ⟨m, ({ s with calls } : Scripted).kept, (offered news).toArray, hcell, ?_, ?_, hcarries,
    ?_, ?_⟩
  · rw [hend, Network.recast_cell, hcell, hcell₂]
    rfl
  · simp [hkept, m.offered_standIn]
  · rw [hkept]
  · by_cases hb : x ∈ t.bare <;> simp [hkept, hb]

/-- Outside of a tree of all sinks there is none. -/
theorem gone_outside (hall : ∀ y < w.cells.size, y ∈ t.ids) : ∀ y ∉ t.ids, w.cell y = .gone := by
  intro y hy
  by_contra hne
  exact hy (hall y (Network.cell_lt rfl hne))

theorem placed_of_all (ho : t.Ordered) (hd : t.Distinct) (hknown : t.id < w.cells.size)
    (hall : ∀ y < w.cells.size, y ∈ t.ids) (hp : w.paused = []) (hb : w.blocked = false) :
    t.Placed w :=
  ⟨ho, hd, hknown, fun id hid q inner => by simp [gone_outside hall id hid],
    fun id hid buf inner => by simp [gone_outside hall id hid], hp, hb⟩

/-- A fan-out in front of a memory sink and of another one behind a buffer and a queue. -/
def mixed : Tree := .fanOut 4 [.leaf 0 .memory, .buffered 3 (.queued 2 (.leaf 1 .memory))]

/-- Its sinks; the buffer and the queue hold something. -/
def mixedNetwork : Network where
  cells := #[.memory {}, .memory {},
    .queued { machine :=
      { name := Queue.workerName, capacity := 1, policy := .callback (some .unreadable),
        hook := .breaks .unreadable, queue := [⟨#[1]⟩] } } 1,
    .buffered { threshold := 4, pending := ⟨#[2, 3]⟩ } 2, .fanOut { members := [0, 3] }]
  disk := { nodes := [], files := #[] }

theorem mixed_dropped :
    let as : List Network.Act := [.write ⟨#[4]⟩, .flush, .deliver 2, .write ⟨#[5]⟩]
    mixed.Placed mixedNetwork ∧ mixed.Filled mixedNetwork ∧ mixed.ends = [0, 1] ∧
      mixed.decorators = [4, 3, 2] ∧
      (∀ y ∉ mixed.ids, ∀ x ∈ [4, 3, 2], x ∉ (mixedNetwork.cell y).references) ∧
      ∀ x ∈ [0, 1], ∃ m m' news, mixedNetwork.cell x = .memory m ∧
        (mixedNetwork.lifetime 4 [0, 1] as 0).cell x = .memory m' ∧ m'.writes = m.writes ++ news ∧
        Carries news.toList (mixed.held x mixedNetwork ++ [⟨#[4]⟩, ⟨#[5]⟩]) ∧
        m'.closeCalls = (if x ∈ [0] then 0 else 1) ∧ (m'.closed = true ↔ x ∉ [0]) := by
  intro as
  have hids : mixed.ids = [4, 0, 3, 2, 1] := by simp [mixed, ids]
  have hdecorators : mixed.decorators = [4, 3, 2] := by simp [mixed, decorators]
  have hends : mixed.ends = [0, 1] := by simp [mixed]
  have hbare : mixed.bare = [0] := by simp [mixed, bare]
  have hall : ∀ y < mixedNetwork.cells.size, y ∈ mixed.ids := by
    rw [hids]
    decide
  have hgone := gone_outside hall
  have hp : mixed.Placed mixedNetwork := placed_of_all (by simp [mixed, Ordered])
    ⟨by simp [hids], by simp [mixed, files, leaves]⟩ (by simp [mixed, mixedNetwork]) hall rfl rfl
  have hfilled : mixed.Filled mixedNetwork := by
    simp only [mixed, Filled, List.mem_cons, List.not_mem_nil, or_false, forall_eq_or_imp,
      forall_eq]
    exact ⟨_, rfl, rfl, rfl, ⟨_, rfl, rfl, rfl⟩, _, rfl, rfl, _, rfl, ⟨rfl, rfl, rfl, rfl⟩, _, rfl,
      rfl, rfl⟩
  have hothers : ∀ y ∉ mixed.ids, ∀ x ∈ [4, 3, 2], x ∉ (mixedNetwork.cell y).references := by
    intro y hy x _
    simp [hgone y hy, Cell.references]
  refine ⟨hp, hfilled, hends, hdecorators, hothers, fun x hx => ?_⟩
  have hdropped := dropped hp hfilled (show mixed.ends ⊆ [0, 1] by simp [hends])
    (by simp [hdecorators]) (by simpa only [hdecorators] using hothers) as (hends ▸ hx)
  rwa [hbare] at hdropped

/-- **A fan-out that is given up without a close** leaves a memory sink open. -/
theorem fanOut_leaves_open :
    let t : Tree := .fanOut 1 [.leaf 0 .memory]
    let w : Network :=
      { cells := #[.memory {}, .fanOut { members := [0] }], disk := { nodes := [], files := #[] } }
    t.Placed w ∧ t.Filled w ∧ t.Decorates ∧ (∀ y ∉ t.ids, 1 ∉ (w.cell y).references) ∧ 0 ∈ t.ends ∧
      ∃ m, (w.lifetime 1 [0] [.write ⟨#[120]⟩] 0).cell 0 = .memory m ∧
        m.writes = #[⟨#[120]⟩] ∧ m.closed = false ∧ m.closeCalls = 0 := by
  intro t w
  have hids : t.ids = [1, 0] := by simp [t, ids]
  have hall : ∀ y < w.cells.size, y ∈ t.ids := by
    rw [hids]
    decide
  have hgone := gone_outside hall
  have hp : t.Placed w := placed_of_all (by simp [t, Ordered])
    ⟨by simp [hids], by simp [t, files, leaves]⟩ (by simp [t, w]) hall rfl rfl
  -- a fan-out does nothing when it is given up
  have hspent : Network.Spent [0] [1, 0] (w.acts 1 [.write ⟨#[120]⟩]) := by
    intro x hx hxp
    obtain rfl : x = 1 := by simpa [hxp] using hx
    exact ⟨trivial, List.subset_cons_self 1 [0]⟩
  have hkept := Network.releaseWithin_spent (1 + (w.acts 1 [.write ⟨#[120]⟩]).holdings)
    (List.cons_subset_cons 1 (List.nil_subset [0])) hspent 0 List.mem_cons_self
  refine ⟨hp, ?_, fun id l he => ?_, fun y hy => ?_, by simp [t], ?_⟩
  · simp only [t, Filled, List.mem_cons, List.not_mem_nil, or_false, forall_eq]
    exact ⟨_, rfl, rfl, rfl, _, rfl, rfl, rfl⟩
  · simp [t] at he
  · simp [hgone y hy, Cell.references]
  · exact ⟨_, hkept, rfl, rfl, rfl⟩

end Tree

end Logging
