import Logging.Proofs.Network.Serving

/-!
# Closing trees whose ends fail

* `Tree.Ends`: a close reaches the sinks at the ends, behind everything that waited on the way.
* `Tree.stop_conveys`: a worker that is stopped hands on everything that waits.
* `Tree.close_does`: **the first close closes every sink at the ends once, after its data**, whatever
  any of them answers.
* `Tree.close_again`: every further close does nothing.
-/

namespace Logging

open Sink Worker

variable {w w' w₁ : Network} {id x n : ℕ} {ks ks' : List ByteArray} {o o' : Outcome}

namespace Outcome

theorem both_returns (h : o.Returns) (h' : o'.Returns) : (o.both o').Returns := by
  rcases o with (f | p) | u
  · rcases o' with (f' | p) | u
    · exact h
    · exact absurd rfl (h' p)
    · exact h
  · exact absurd rfl (h p)
  · exact h'

/-- Two steps were well together only if both were. -/
theorem both_ok (h : o.both o' = .ok ()) : o = .ok () ∧ o' = .ok () := by
  rcases o with (f | p) | u
  · rcases o' with (f' | p) | u <;> cases h
  · cases h
  · exact ⟨rfl, h⟩

end Outcome

/-- A sink that is put anew as it was. -/
theorem Network.set_same {c : Cell} (h : w.cell id = c) : w.set id c = w := by
  have hcells : w.cells.setIfInBounds id c = w.cells := by
    refine Array.ext (by simp) fun i hi hi' => ?_
    rw [Array.getElem_setIfInBounds hi']
    split
    · rename_i he
      subst he
      rw [← h, Network.cell, Array.getD_eq_getD_getElem?, Array.getElem?_eq_getElem hi']
      rfl
    · rfl
  unfold Network.set
  rw [hcells]

namespace Tree

variable {t u : Tree} {ts : List Tree}

/-- Every buffer, queue and fan-out of the tree was closed, and every worker came to its end. -/
def Shut : Tree → Network → Prop
  | leaf _ _, _ => True
  | buffered id t, w => ∃ buf, w.cell id = .buffered buf t.id ∧ buf.closed = true ∧ t.Shut w
  | queued id t, w => ∃ q, w.cell id = .queued q t.id ∧
      (q.closed = true ∧ q.machine.activity ≠ .running) ∧ t.Shut w
  | fanOut id ts, w => ∃ f, w.cell id = .fanOut f ∧ f.closed = true ∧
      f.members = ts.map Tree.id ∧ ∀ t ∈ ts, t.Shut w

theorem shut_local : Local Shut := by
  intro t w w' h
  revert h
  refine @induction (fun t => t.Agrees w w' → t.Shut w → t.Shut w') ?_ ?_ ?_ ?_ t
  · intro id l _ _
    simp only [Shut]
  · intro id t ih ha h
    rw [Shut] at h ⊢
    obtain ⟨buf, hcell, hclosed, ht⟩ := h
    exact ⟨buf, ha.self.trans hcell, hclosed, ih ha.buffered ht⟩
  · intro id t ih ha h
    rw [Shut] at h ⊢
    obtain ⟨q, hcell, hclosed, ht⟩ := h
    exact ⟨q, ha.self.trans hcell, hclosed, ih ha.queued ht⟩
  · intro id ts ih ha h
    rw [Shut] at h ⊢
    obtain ⟨f, hcell, hclosed, hm, hts⟩ := h
    exact ⟨f, ha.self.trans hcell, hclosed, hm, fun t ht => ih t ht (ha.fanOut ht) (hts t ht)⟩

/-- **A close reaches the sinks at the ends.** Each got some more calls and then one that closes it;
what was on its way, with the pieces that waited in front of the tree, was offered before. The close
went well only if it did so everywhere. -/
structure Ends (ks : List ByteArray) (o : Outcome) (t : Tree) (w w' : Network) : Prop where
  shut : t.Shut w'
  calls : ∀ x ∈ t.ends, ∃ news res, w'.calls x = w.calls x ++ news ++ [(.close, res)] ∧
    (∀ c ∈ news, c.1 ≠ .close) ∧ Carries (offered news) (t.held x w ++ ks) ∧
    (o = .ok () → res = .ok ())

theorem ends_local : LocalStep (Ends ks) := by
  intro o t w w' v v' hw hw' h
  refine ⟨shut_local hw' h.shut, fun x hx => ?_⟩
  rw [hw.calls (t.ends_subset hx), hw'.calls (t.ends_subset hx), hw.held]
  exact h.calls x hx

/-- A close that did less well. -/
theorem Ends.weaken (h : t.Ends ks o w w') (ho : o' = .ok () → o = .ok ()) :
    t.Ends ks o' w w' := by
  refine ⟨h.shut, fun x hx => ?_⟩
  obtain ⟨news, res, hcalls, hnews, hcarries, hres⟩ := h.calls x hx
  exact ⟨news, res, hcalls, hnews, hcarries, fun h => hres (ho h)⟩

/-- First everything is handed on, then the tree is closed. -/
theorem Conveys.ends (h : t.Conveys ks ks' w w₁) (h' : t.Ends ks' o w₁ w') : t.Ends ks o w w' := by
  refine ⟨h'.shut, fun x hx => ?_⟩
  obtain ⟨news, hcalls, hnews, hcarries⟩ := h.calls x hx
  obtain ⟨news', res, hcalls', hnews', hcarries', hres⟩ := h'.calls x hx
  refine ⟨news ++ news', res, by rw [hcalls', hcalls]; simp,
    List.forall_mem_append.2 ⟨hnews, hnews'⟩, ?_, hres⟩
  rw [offered_append]
  exact (hcarries'.append_left _).trans hcarries

/-! ## The first close -/

/-- Closing the tree reaches its ends, whatever stands around it. -/
def Reaches (t : Tree) : Prop :=
  ∀ {n : ℕ} {w : Network}, t.id < n → t.Ordered → t.Distinct → t.Open w →
    t.Does (Ends []) w ((Network.destination n t.id).close w)

theorem reaches_leaf (id : ℕ) (l : Leaf) : (leaf id l).Reaches := by
  intro n w hn _ _ h
  obtain ⟨n, rfl⟩ := Nat.exists_eq_add_one_of_ne_zero (Nat.ne_zero_of_lt hn)
  rw [Open] at h
  obtain ⟨s, hcell, hs, -⟩ := h
  have hclose : (Network.destination (n + 1) id).close w =
      ((s.answer .close).1, w.set id (.scripted (s.answer .close).2)) := by
    simp [Network.destination, Network.closeCell, hcell]
  have hcell' :=
    Network.cell_set_self (Network.cell_lt hcell (by simp)) (.scripted (s.answer .close).2)
  rw [id_leaf, hclose]
  refine ⟨hs _, ⟨by simp only [Shut], fun x hx => ?_⟩, (Alters.refl _ _ w).set (by simp [ids]) _⟩
  obtain rfl : x = id := by simpa using hx
  have hold : w.calls x = s.calls := by simp [Network.calls, hcell]
  have hnew : (w.set x (.scripted (s.answer .close).2)).calls x = (s.answer .close).2.calls := by
    simp [Network.calls, hcell']
  refine ⟨[], (s.answer .close).1, ?_, by simp, ?_, fun h => h⟩
  · rw [hnew, hold, List.append_nil]
    rfl
  · simpa [held] using Carries.refl _

/-- A buffer in front of a tree passes on what it gathered, and then closes the sink behind even if
that failed. -/
theorem closeBuffer_does (ih : t.Reaches) (hn : t.id < n) (ho : t.Ordered) (hd : t.Distinct)
    (h : t.Open w) {buf : Buffer} (hopen : buf.closed = false) :
    ∃ o buf' w', buf.close (Network.destination n t.id) w = (o, buf', w') ∧ buf'.closed = true ∧
      t.Does (Ends [buf.pending]) w (o, w') := by
  -- the timer is stopped first
  have htimer : Alters [] [] w (Buffer.stopTimer buf.timer w) := by
    unfold Buffer.stopTimer
    split
    · exact Network.alters_report _ w
    · exact .refl _ _ w
  have h' := open_local (Agrees.nothing htimer) h
  obtain ⟨o, w₁, hpass, hreturns, hdone, ha⟩ := pass_does hn ho hd
    { buf with closed := true, armed := false, timer := .ended } h'
  obtain ⟨hreturns', hdone', ha'⟩ := ih hn ho hd hdone.isOpen
  obtain ⟨o', w₂, hclose⟩ : ∃ o' w₂, (Network.destination n t.id).close w₁ = (o', w₂) :=
    ⟨_, _, rfl⟩
  rw [hclose] at hreturns' hdone' ha'
  have hboth : buf.close (Network.destination n t.id) w = (o.both o',
      { buf with closed := true, armed := false, timer := .ended, pending := .empty }, w₂) := by
    rcases o with (f | p) | u
    · simp [Buffer.close, hopen, hpass, hclose]
    · exact absurd rfl (hreturns p)
    · simp [Buffer.close, hopen, hpass, hclose]
  refine ⟨_, _, _, hboth, rfl, Outcome.both_returns hreturns hreturns', ?_, ?_⟩
  · have hpassed : t.Conveys [buf.pending] [] w w₁ :=
      (hdone.before htimer).mono (.refl _) .nil_empty
    exact (hpassed.ends hdone').weaken fun hok => (Outcome.both_ok hok).2
  · exact (htimer.mono (List.nil_subset _) (List.Subset.refl _)).trans (ha.trans ha')

/-- **A worker that is stopped hands on everything that waits**, and comes to its end even if what
runs there breaks off. -/
theorem stop_conveys (hn : t.id < n) (ho : t.Ordered) (hd : t.Distinct) (h : t.Open w)
    {m : Machine ByteArray} (hr : m.policy.Returns) (hrun : m.activity = .running)
    (hj : m.joined = false) :
    ∃ o m' w', m.stop (Network.work (Network.destination n t.id)) w = (o, m', w') ∧ o.Returns ∧
      m'.activity ≠ .running ∧ t.Conveys m.waiting [] w w' ∧ Alters t.ids [] w w' := by
  set work := Network.work (Network.destination n t.id) with hwork
  obtain ⟨p, hp⟩ := m.close_eq
  have hc := m.close_isClosed
  rw [hp] at hc
  -- this holds after every step of the background
  have hsteps := Machine.steps_keep (w := work)
    (P := fun m₁ w₁ => m₁.isClosed ∧ m₁.policy = m.policy ∧
      (m₁.activity = .running ∨ m₁.waiting = []) ∧ t.Conveys m.waiting m₁.waiting w w₁ ∧
      Alters t.ids [] w w₁)
    (by
      intro m₁ w₁ m₂ w₂ hkept hstep
      obtain ⟨hc₁, hpolicy, -, hdone, ha⟩ := hkept
      obtain ⟨hdone', ha', hpolicy', hrun'⟩ :=
        step_conveys hn ho hd hdone.isOpen (hpolicy ▸ hr) hstep
      have hphase := (Machine.step_fixed hstep).1
      refine ⟨(Machine.isClosed_congr hphase).trans hc₁, hpolicy'.trans hpolicy, ?_,
        hdone.trans hdone', ha.trans ha'⟩
      exact hrun'.imp_right And.right)
    (Machine.remaining { m with phase := p }) (m := { m with phase := p }) (s := w)
    ⟨hc, rfl, .inl hrun, .still h (.refl _), .refl _ _ w⟩
  have hend := Machine.drain_ends work w hc
  obtain ⟨m₁, w₁, hdrain⟩ : ∃ m₁ w₁, Machine.drain work { m with phase := p } w = (m₁, w₁) :=
    ⟨_, _, rfl⟩
  rw [← Machine.drain, hdrain] at hsteps
  rw [hdrain] at hend
  obtain ⟨-, -, hempty, hdone, ha⟩ := hsteps
  obtain ⟨o, hstop, hreturns⟩ : ∃ o,
      m.stop work w = (o, { m₁ with joined := true, phase := .stopped }, w₁) ∧ o.Returns := by
    unfold Machine.stop
    rw [hp]
    dsimp only
    rw [if_neg (by simp [hj]), hdrain]
    refine ⟨_, rfl, ?_⟩
    cases m₁.crash? with
    | none => exact Outcome.returns_ok
    | some p => exact Outcome.returns_fault _
  refine ⟨_, _, _, hstop, hreturns, hend, ?_, ha⟩
  rw [← hempty.resolve_left hend]
  exact hdone

/-- A queue in front of a tree waits until its worker is done, and then closes the sink behind even
if the worker broke off. -/
theorem closeQueue_does (ih : t.Reaches) (hn : t.id < n) (ho : t.Ordered) (hd : t.Distinct)
    (h : t.Open w) {q : Queue} (hq : q.Serving) :
    ∃ o q' w', q.close (Network.destination n t.id) (Network.work (Network.destination n t.id)) w =
        (o, q', w') ∧ q'.closed = true ∧ q'.machine.activity ≠ .running ∧
      t.Does (Ends q.machine.waiting) w (o, w') := by
  obtain ⟨o, m', w₁, hstop, hreturns, hend, hdone, ha⟩ :=
    stop_conveys hn ho hd h hq.policy hq.running hq.joined
  obtain ⟨hreturns', hdone', ha'⟩ := ih hn ho hd hdone.isOpen
  obtain ⟨o', w₂, hclose⟩ : ∃ o' w₂, (Network.destination n t.id).close w₁ = (o', w₂) :=
    ⟨_, _, rfl⟩
  rw [hclose] at hreturns' hdone' ha'
  have hboth : q.close (Network.destination n t.id) (Network.work (Network.destination n t.id)) w =
      (o.both o', { q with machine := m', closed := true }, w₂) := by
    simp [Queue.close, hq.isOpen, hstop, hclose]
  exact ⟨_, _, _, hboth, rfl, hend, Outcome.both_returns hreturns hreturns',
    (hdone.ends hdone').weaken fun hok => (Outcome.both_ok hok).2, ha.trans ha'⟩

/-- What was closed behind a buffer was closed behind the whole. -/
theorem Ends.buffered {buf buf' : Buffer} (h : t.Ends [buf.pending] o w w')
    (hcell : w.cell id = .buffered buf t.id) (hcell' : w'.cell id = .buffered buf' t.id)
    (hclosed : buf'.closed = true) : (Tree.buffered id t).Ends [] o w w' := by
  refine ⟨?_, fun x hx => ?_⟩
  · rw [Shut]
    exact ⟨buf', hcell', hclosed, h.shut⟩
  · rw [ends_buffered] at hx
    simpa [held, hx, Network.pieces, hcell] using h.calls x hx

/-- What was closed behind a queue was closed behind the whole. -/
theorem Ends.queued {q q' : Queue} (h : t.Ends q.machine.waiting o w w')
    (hcell : w.cell id = .queued q t.id) (hcell' : w'.cell id = .queued q' t.id)
    (hclosed : q'.closed = true) (hend : q'.machine.activity ≠ .running) :
    (Tree.queued id t).Ends [] o w w' := by
  refine ⟨?_, fun x hx => ?_⟩
  · rw [Shut]
    exact ⟨q', hcell', ⟨hclosed, hend⟩, h.shut⟩
  · rw [ends_queued] at hx
    simpa [held, hx, Network.pieces, hcell] using h.calls x hx

/-- What was closed in every member was closed behind a fan-out. -/
theorem Ends.fanOut {f : FanOut ℕ} (h : ∀ t ∈ ts, t.Ends [] o w w') (hapart : ts.Pairwise Apart)
    (hcell : w'.cell id = .fanOut f) (hclosed : f.closed = true)
    (hm : f.members = ts.map Tree.id) : (Tree.fanOut id ts).Ends [] o w w' := by
  refine ⟨?_, fun x hx => ?_⟩
  · rw [Shut]
    exact ⟨f, hcell, hclosed, hm, fun t ht => (h t ht).shut⟩
  · rw [ends_fanOut, List.mem_flatMap] at hx
    obtain ⟨t, ht, hx⟩ := hx
    rw [held_fanOut hapart ht hx]
    exact (h t ht).calls x hx

theorem Ends.set (h : t.Ends ks o w w₁) (hd : id ∉ t.ids) (c : Cell) :
    t.Ends ks o w (w₁.set id c) :=
  ends_local (.refl t w) (agrees_set hd c w₁) h

theorem reaches_buffered (ih : t.Reaches) (id : ℕ) : (buffered id t).Reaches := by
  intro n w hn ho hd h
  obtain ⟨n, rfl⟩ := Nat.exists_eq_add_one_of_ne_zero (Nat.ne_zero_of_lt hn)
  rw [Open] at h
  obtain ⟨buf, hcell, hopen, ht⟩ := h
  simp only [Ordered] at ho
  have hnt : t.id < n := Nat.lt_of_lt_of_le ho.1 (Nat.le_of_lt_succ hn)
  have hdt := hd.buffered
  obtain ⟨o, buf', w₁, hbuf, hclosed, hreturns, hdone, ha⟩ :=
    closeBuffer_does ih hnt ho.2 hdt.2 ht hopen
  have hid : id < w₁.cells.size := ha.size ▸ Network.cell_lt hcell (by simp)
  have hclose : (Network.destination (n + 1) id).close w =
      (o, w₁.set id (.buffered buf' t.id)) := by
    simp [Network.destination, Network.closeCell, hcell, hbuf]
  rw [id_buffered, hclose]
  refine ⟨hreturns, ?_, (ha.mono (by simp [ids]) (List.Subset.refl _)).set (by simp [ids]) _⟩
  exact (hdone.set hdt.1 _).buffered hcell (Network.cell_set_self hid _) hclosed

theorem reaches_queued (ih : t.Reaches) (id : ℕ) : (queued id t).Reaches := by
  intro n w hn ho hd h
  obtain ⟨n, rfl⟩ := Nat.exists_eq_add_one_of_ne_zero (Nat.ne_zero_of_lt hn)
  rw [Open] at h
  obtain ⟨q, hcell, hq, ht⟩ := h
  simp only [Ordered] at ho
  have hnt : t.id < n := Nat.lt_of_lt_of_le ho.1 (Nat.le_of_lt_succ hn)
  have hdt := hd.queued
  obtain ⟨o, q', w₁, hqueue, hclosed, hend, hreturns, hdone, ha⟩ :=
    closeQueue_does ih hnt ho.2 hdt.2 ht hq
  have hid : id < w₁.cells.size := ha.size ▸ Network.cell_lt hcell (by simp)
  have hclose : (Network.destination (n + 1) id).close w =
      (o, w₁.set id (.queued q' t.id)) := by
    simp [Network.destination, Network.closeCell, hcell, hqueue]
  rw [id_queued, hclose]
  refine ⟨hreturns, ?_, (ha.mono (by simp [ids]) (List.Subset.refl _)).set (by simp [ids]) _⟩
  exact (hdone.set hdt.1 _).queued hcell (Network.cell_set_self hid _) hclosed hend

/-- A fan-out closes each member, whatever becomes of the others. -/
theorem reaches_fanOut (ih : ∀ t ∈ ts, t.Reaches) (id : ℕ) : (fanOut id ts).Reaches := by
  intro n w hn ho hd h
  obtain ⟨n, rfl⟩ := Nat.exists_eq_add_one_of_ne_zero (Nat.ne_zero_of_lt hn)
  rw [Open] at h
  obtain ⟨f, hcell, hopen, hm, hts⟩ := h
  simp only [Ordered] at ho
  obtain ⟨hdts, hapart⟩ := hd.fanOut
  obtain ⟨o, w₁, hvisit, hreturns, hdone, ha⟩ := visit_does (Network.destination n) "close"
    (fun d s => d.close s) open_local (@ends_local []) 0 hapart hts fun t ht w h =>
      ih t ht (Nat.lt_of_lt_of_le (ho t ht).1 (Nat.le_of_lt_succ hn)) (ho t ht).2 (hdts t ht).2 h
  have hid : id < w₁.cells.size := ha.size ▸ Network.cell_lt hcell (by simp)
  have hclose : (Network.destination (n + 1) id).close w =
      (o, w₁.set id (.fanOut { f with closed := true })) := by
    simp [Network.destination, Network.closeCell, hcell, FanOut.close, hopen, hm, hvisit]
  rw [id_fanOut, hclose]
  refine ⟨hreturns, .fanOut (fun t ht => ?_) hapart (Network.cell_set_self hid _) rfl hm,
    (ha.mono (by simp [ids]) (List.Subset.refl _)).set (by simp [ids]) _⟩
  obtain ⟨o', hends, ho'⟩ := hdone t ht
  exact (hends.weaken ho').set (hdts t ht).1 _

/-- **The first close closes every sink at the ends, after its data**, whatever any of them
answers. -/
theorem close_does (t : Tree) : t.Reaches :=
  induction (P := Reaches) reaches_leaf (fun id _ ih => reaches_buffered ih id)
    (fun id _ ih => reaches_queued ih id) (fun id _ ih => reaches_fanOut ih id) t

/-! ## After the first close -/

/-- The foremost sink passes on to others. -/
def Decorates (t : Tree) : Prop := ∀ id l, t ≠ leaf id l

/-- **Every further close does nothing.** -/
theorem close_again (hdec : t.Decorates) (hn : t.id < n) (h : t.Shut w) :
    (Network.destination n t.id).close w = (.ok (), w) := by
  obtain ⟨n, rfl⟩ := Nat.exists_eq_add_one_of_ne_zero (Nat.ne_zero_of_lt hn)
  cases t with
  | leaf id l => exact absurd rfl (hdec id l)
  | buffered id t =>
    rw [Shut] at h
    obtain ⟨buf, hcell, hclosed, -⟩ := h
    simp [Network.destination, Network.closeCell, hcell, Buffer.close, hclosed,
      Network.set_same hcell]
  | queued id t =>
    rw [Shut] at h
    obtain ⟨q, hcell, ⟨hclosed, -⟩, -⟩ := h
    simp [Network.destination, Network.closeCell, hcell, Queue.close, hclosed,
      Network.set_same hcell]
  | fanOut id ts =>
    rw [Shut] at h
    obtain ⟨f, hcell, hclosed, -⟩ := h
    simp [Network.destination, Network.closeCell, hcell, FanOut.close, hclosed,
      Network.set_same hcell]

end Tree

end Logging
