import Logging.Proofs.Network.Closing
import Logging.Proofs.Network.Places
import Logging.Proofs.Sink.Carrying

/-!
# What is on its way through a tree

The sinks at the ends may fail at any time; they keep their calls. Nothing here is said of what
arrives in the end, but of what was handed on.

* `Tree.Open`: nothing in the tree was closed, and every worker does its work.
* `Tree.held`: the pieces that wait on the way to a sink at an end.
* `Tree.Conveys`: an operation hands pieces on. **Whatever was on its way is still on its way, or
  it was offered to the sink at the end**, and nothing is closed.
* `Tree.visit_does`: an operation on every member of a fan-out, whatever its outcomes.
-/

namespace Logging

open Sink Worker

/-- The operation returned, with a fault or without. -/
def Outcome.Returns (o : Outcome) : Prop := ∀ p, o ≠ Outcome.panic p

/-- A queue that takes payloads, and whose worker does not break off. -/
structure Sink.Queue.Serving (q : Queue) : Prop where
  isOpen : q.closed = false
  running : q.machine.activity = .running
  accepting : q.machine.phase = .accepting
  joined : q.machine.joined = false
  policy : q.machine.policy.Returns

/-- What waits in the queue of a worker, with what it has in hand. -/
def Worker.Machine.waiting {α : Type} (m : Machine α) : List α := m.inHand.toList ++ m.queue

namespace Network

/-- The calls of a sink that keeps them. -/
def calls (w : Network) (id : ℕ) : List (Call × Outcome) :=
  match w.cell id with
  | .scripted s => s.calls
  | _ => []

/-- What waits in a buffer or in a queue. -/
def pieces (w : Network) (id : ℕ) : List ByteArray :=
  match w.cell id with
  | .buffered buf _ => [buf.pending]
  | .queued q _ => q.machine.waiting
  | _ => []

end Network

variable {w w' w'' v v' : Network} {id x n : ℕ} {ks ks' ks'' : List ByteArray}

namespace Tree

variable {t u : Tree} {ts : List Tree}

/-- The numbers of the sinks at the ends. -/
def ends (t : Tree) : List ℕ := t.leaves.map Prod.fst

@[simp] theorem ends_leaf (id : ℕ) (l : Leaf) : (leaf id l).ends = [id] := by simp [ends, leaves]

@[simp] theorem ends_buffered (id : ℕ) (t : Tree) : (buffered id t).ends = t.ends := by
  simp [ends, leaves]

@[simp] theorem ends_queued (id : ℕ) (t : Tree) : (queued id t).ends = t.ends := by
  simp [ends, leaves]

@[simp] theorem ends_fanOut (id : ℕ) (ts : List Tree) :
    (fanOut id ts).ends = ts.flatMap fun t => t.ends := by
  simp [ends, leaves, List.map_flatMap]

theorem ends_subset (t : Tree) : t.ends ⊆ t.ids := by
  intro x hx
  obtain ⟨e, he, rfl⟩ := List.mem_map.1 hx
  exact mem_ids_of_leaves he

/-- Nothing in the tree was closed, the sinks at the ends do not break off, and every worker does
its work. -/
def Open : Tree → Network → Prop
  | leaf id _, w => ∃ s, w.cell id = .scripted s ∧ (∀ n, (s.script n).Returns) ∧
      ∀ c ∈ s.calls, c.1 ≠ .close
  | buffered id t, w => ∃ buf, w.cell id = .buffered buf t.id ∧ buf.closed = false ∧ t.Open w
  | queued id t, w => ∃ q, w.cell id = .queued q t.id ∧ q.Serving ∧ t.Open w
  | fanOut id ts, w => ∃ f, w.cell id = .fanOut f ∧ f.closed = false ∧
      f.members = ts.map Tree.id ∧ ∀ t ∈ ts, t.Open w

/-- The pieces that wait on the way to a sink at an end, those nearest to it first. -/
def held (x : ℕ) : Tree → Network → List ByteArray
  | leaf _ _, _ => []
  | buffered id t, w => if x ∈ t.ends then t.held x w ++ w.pieces id else []
  | queued id t, w => if x ∈ t.ends then t.held x w ++ w.pieces id else []
  | fanOut _ ts, w => ts.flatMap fun t => t.held x w

/-! ## Places -/

theorem open_local : Local Open := by
  intro t w w' h
  revert h
  refine @induction (fun t => t.Agrees w w' → t.Open w → t.Open w') ?_ ?_ ?_ ?_ t
  · intro id l ha h
    rw [Open] at h ⊢
    obtain ⟨s, hcell, hs⟩ := h
    exact ⟨s, ha.self.trans hcell, hs⟩
  · intro id t ih ha h
    rw [Open] at h ⊢
    obtain ⟨buf, hcell, hclosed, ht⟩ := h
    exact ⟨buf, ha.self.trans hcell, hclosed, ih ha.buffered ht⟩
  · intro id t ih ha h
    rw [Open] at h ⊢
    obtain ⟨q, hcell, hq, ht⟩ := h
    exact ⟨q, ha.self.trans hcell, hq, ih ha.queued ht⟩
  · intro id ts ih ha h
    rw [Open] at h ⊢
    obtain ⟨f, hcell, hclosed, hm, hts⟩ := h
    exact ⟨f, ha.self.trans hcell, hclosed, hm, fun t ht => ih t ht (ha.fanOut ht) (hts t ht)⟩

theorem Agrees.pieces (h : t.Agrees w w') (hx : x ∈ t.ids) : w'.pieces x = w.pieces x := by
  unfold Network.pieces
  rw [h.cells x hx]

theorem Agrees.calls (h : t.Agrees w w') (hx : x ∈ t.ids) : w'.calls x = w.calls x := by
  unfold Network.calls
  rw [h.cells x hx]

/-- What waits on the way depends on the buffers and queues alone. -/
theorem held_congr : ∀ {t : Tree}, (∀ y ∈ t.ids, w'.pieces y = w.pieces y) →
    t.held x w' = t.held x w := by
  refine @induction _ ?_ ?_ ?_ ?_
  · intro id l _
    simp only [held]
  · intro id t ih h
    rw [held, held, ih fun y hy => h y (by simp [ids, hy]), h id (by simp [ids])]
  · intro id t ih h
    rw [held, held, ih fun y hy => h y (by simp [ids, hy]), h id (by simp [ids])]
  · intro id ts ih h
    simp only [held]
    exact List.flatMap_congr fun t ht => ih t ht fun y hy =>
      h y (by simpa [ids] using .inr ⟨t, ht, hy⟩)

theorem Agrees.held (h : t.Agrees w w') : t.held x w' = t.held x w :=
  held_congr fun _ hy => h.pieces hy

/-- Nothing waits on the way to a sink that is not there. -/
theorem held_of_notMem : ∀ {t : Tree}, x ∉ t.ends → t.held x w = [] := by
  refine @induction _ ?_ ?_ ?_ ?_
  · intro id l _
    simp only [held]
  · intro id t _ h
    rw [ends_buffered] at h
    simp only [held, h, if_false]
  · intro id t _ h
    rw [ends_queued] at h
    simp only [held, h, if_false]
  · intro id ts ih h
    rw [ends_fanOut, List.mem_flatMap] at h
    simp only [held]
    refine List.flatMap_eq_nil_iff.2 fun t ht => ih t ht fun hx => h ⟨t, ht, hx⟩

/-- On the way to a sink behind a fan-out waits what waits in its own member. -/
theorem held_fanOut (hapart : ts.Pairwise Apart) (ht : t ∈ ts) (hx : x ∈ t.ends) :
    (fanOut id ts).held x w = t.held x w := by
  obtain ⟨before, after, rfl⟩ := List.append_of_mem ht
  have hother : ∀ u, Apart t u ∨ Apart u t → u.held x w = [] := by
    intro u hu
    refine held_of_notMem fun hxu => ?_
    rcases hu with hu | hu
    · exact hu.1 x (t.ends_subset hx) (u.ends_subset hxu)
    · exact hu.1 x (u.ends_subset hxu) (t.ends_subset hx)
  rw [List.pairwise_append, List.pairwise_cons] at hapart
  have hbefore : before.flatMap (fun u => u.held x w) = [] :=
    List.flatMap_eq_nil_iff.2 fun u hu => hother u (.inr (hapart.2.2 u hu t List.mem_cons_self))
  have hafter : after.flatMap (fun u => u.held x w) = [] :=
    List.flatMap_eq_nil_iff.2 fun u hu => hother u (.inl (hapart.2.1.1 u hu))
  simp only [held, List.flatMap_append, List.flatMap_cons, hbefore, hafter, List.nil_append,
    List.append_nil]

/-! ## Handing on -/

/-- **An operation hands pieces on.** In front of the tree there wait some pieces before it and
others after it. The sinks at the ends got more calls, none of which closes them, and whatever was
on its way is so still, or was offered. -/
structure Conveys (ks ks' : List ByteArray) (t : Tree) (w w' : Network) : Prop where
  isOpen : t.Open w'
  calls : ∀ x ∈ t.ends, ∃ news, w'.calls x = w.calls x ++ news ∧ (∀ c ∈ news, c.1 ≠ .close) ∧
    Carries (offered news ++ (t.held x w' ++ ks')) (t.held x w ++ ks)

namespace Conveys

/-- Nothing happens to the tree. -/
theorem still (h : t.Open w) (hk : Carries ks' ks) : t.Conveys ks ks' w w :=
  ⟨h, fun _ _ => ⟨[], by simp, by simp, hk.append_left _⟩⟩

theorem trans (h : t.Conveys ks ks' w w') (h' : t.Conveys ks' ks'' w' w'') :
    t.Conveys ks ks'' w w'' := by
  refine ⟨h'.isOpen, fun x hx => ?_⟩
  obtain ⟨news, hcalls, hnews, hcarries⟩ := h.calls x hx
  obtain ⟨news', hcalls', hnews', hcarries'⟩ := h'.calls x hx
  refine ⟨news ++ news', by rw [hcalls', hcalls, List.append_assoc],
    List.forall_mem_append.2 ⟨hnews, hnews'⟩, ?_⟩
  rw [offered_append, List.append_assoc]
  exact (hcarries'.append_left _).trans hcarries

/-- Pieces that wait in front may be cut before, and be more afterwards. -/
theorem mono (h : t.Conveys ks ks' w w') {js js' : List ByteArray} (hk : Carries ks js)
    (hk' : Carries js' ks') : t.Conveys js js' w w' := by
  refine ⟨h.isOpen, fun x hx => ?_⟩
  obtain ⟨news, hcalls, hnews, hcarries⟩ := h.calls x hx
  exact ⟨news, hcalls, hnews, (((hk'.append_left _).append_left _).trans hcarries).trans
    (hk.append_left _)⟩

/-- Further pieces wait in front all the time. -/
theorem frame (h : t.Conveys ks ks' w w') (js : List ByteArray) :
    t.Conveys (ks ++ js) (ks' ++ js) w w' := by
  refine ⟨h.isOpen, fun x hx => ?_⟩
  obtain ⟨news, hcalls, hnews, hcarries⟩ := h.calls x hx
  refine ⟨news, hcalls, hnews, ?_⟩
  simpa only [List.append_assoc] using hcarries.append_right js

theorem congr (h : t.Conveys ks ks' w w') (hw : t.Agrees w v) (hw' : t.Agrees w' v') :
    t.Conveys ks ks' v v' := by
  refine ⟨open_local hw' h.isOpen, fun x hx => ?_⟩
  rw [hw.calls (t.ends_subset hx), hw'.calls (t.ends_subset hx), hw.held, hw'.held]
  exact h.calls x hx

/-- What was handed on through the sink behind was handed on through a buffer. -/
theorem buffered {buf buf' : Buffer} (h : t.Conveys (buf.pending :: ks) (buf'.pending :: ks') w w')
    (hcell : w.cell id = .buffered buf t.id) (hcell' : w'.cell id = .buffered buf' t.id)
    (hopen : buf'.closed = false) :
    (Tree.buffered id t).Conveys ks ks' w w' := by
  refine ⟨?_, fun x hx => ?_⟩
  · rw [Open]
    exact ⟨buf', hcell', hopen, h.isOpen⟩
  · rw [ends_buffered] at hx
    obtain ⟨news, hcalls, hnews, hcarries⟩ := h.calls x hx
    refine ⟨news, hcalls, hnews, ?_⟩
    simpa [held, hx, Network.pieces, hcell, hcell'] using hcarries

/-- What was handed on through the sink behind was handed on through a queue. -/
theorem queued {q q' : Queue}
    (h : t.Conveys (q.machine.waiting ++ ks) (q'.machine.waiting ++ ks') w w')
    (hcell : w.cell id = .queued q t.id) (hcell' : w'.cell id = .queued q' t.id)
    (hq : q'.Serving) : (Tree.queued id t).Conveys ks ks' w w' := by
  refine ⟨?_, fun x hx => ?_⟩
  · rw [Open]
    exact ⟨q', hcell', hq, h.isOpen⟩
  · rw [ends_queued] at hx
    obtain ⟨news, hcalls, hnews, hcarries⟩ := h.calls x hx
    refine ⟨news, hcalls, hnews, ?_⟩
    simpa [held, hx, Network.pieces, hcell, hcell'] using hcarries

/-- What was handed on through every member was handed on through a fan-out. -/
theorem fanOut {f : FanOut ℕ} (h : ∀ t ∈ ts, t.Conveys ks ks' w w') (hapart : ts.Pairwise Apart)
    (hcell : w'.cell id = .fanOut f) (hopen : f.closed = false)
    (hm : f.members = ts.map Tree.id) : (Tree.fanOut id ts).Conveys ks ks' w w' := by
  refine ⟨?_, fun x hx => ?_⟩
  · rw [Open]
    exact ⟨f, hcell, hopen, hm, fun t ht => (h t ht).isOpen⟩
  · rw [ends_fanOut, List.mem_flatMap] at hx
    obtain ⟨t, ht, hx⟩ := hx
    rw [held_fanOut hapart ht hx, held_fanOut hapart ht hx]
    exact (h t ht).calls x hx

end Conveys

/-! ## Operations with any outcome -/

/-- An operation on a tree returns, and does this to the tree and nothing to anything else. -/
structure Does (R : Outcome → Tree → Network → Network → Prop) (t : Tree) (w : Network)
    (r : Outcome × Network) : Prop where
  returns : r.1.Returns
  done : R r.1 t w r.2
  alters : Alters t.ids [] w r.2

/-- What an operation does to a tree depends on nothing else in the network. -/
def LocalStep (R : Outcome → Tree → Network → Network → Prop) : Prop :=
  ∀ {o : Outcome} {t : Tree} {w w' v v' : Network}, t.Agrees w v → t.Agrees w' v' →
    R o t w w' → R o t v v'

theorem conveys_local : LocalStep fun _ => Conveys ks ks' :=
  fun hw hw' h => h.congr hw hw'

theorem Agrees.refl (t : Tree) (w : Network) : t.Agrees w w :=
  ⟨fun _ _ => rfl, rfl, fun _ _ => rfl⟩

theorem Agrees.symm (h : t.Agrees w w') : t.Agrees w' w :=
  ⟨fun x hx => (h.cells x hx).symm, h.size.symm, fun n hn => (h.file n hn).symm⟩

/-- A member that returns is no trouble for a fan-out. -/
theorem contain_returns {o : Outcome} (h : o.Returns) (place : ℕ) (member action : String)
    (w : Network) : FanOut.contain place member action o w = (o, w) := by
  rcases o with (f | p) | u
  · rfl
  · exact absurd rfl (h p)
  · rfl

/-- **An operation on every member of a fan-out**, whatever its outcomes. What it does to one of
them does not matter to the others, and it is well only if it was well everywhere. -/
theorem visit_does (near : SinkId → Destination Network) (action : String)
    (op : Destination Network → Network → Outcome × Network) {Pre : Tree → Network → Prop}
    (hpre : Local Pre) {R : Outcome → Tree → Network → Network → Prop} (hR : LocalStep R) :
    ∀ {ts : List Tree} (place : ℕ) {w : Network}, ts.Pairwise Apart → (∀ t ∈ ts, Pre t w) →
      (∀ t ∈ ts, ∀ {w}, Pre t w → t.Does R w (op (near t.id) w)) →
      ∃ o w', FanOut.visit near action op place (ts.map Tree.id) w = (o, w') ∧ o.Returns ∧
        (∀ t ∈ ts, ∃ o', R o' t w w' ∧ (o = .ok () → o' = .ok ())) ∧
        Alters (ts.flatMap Tree.ids) [] w w' := by
  intro ts
  induction ts with
  | nil => exact fun _ {w} _ _ _ => ⟨.ok (), w, rfl, by simp [Outcome.Returns, Outcome.panic],
      by simp, .refl _ _ w⟩
  | cons t ts ih =>
    intro place w hapart h hop
    obtain ⟨hfirst, hrest⟩ := List.pairwise_cons.1 hapart
    have hdoes := hop t List.mem_cons_self (h t List.mem_cons_self)
    obtain ⟨o₁, w₁, he⟩ : ∃ o₁ w₁, op (near t.id) w = (o₁, w₁) := ⟨_, _, rfl⟩
    rw [he] at hdoes
    obtain ⟨hreturns, hdone, ha⟩ := hdoes
    -- the others are as they were
    have hagrees : ∀ u ∈ ts, u.Agrees w w₁ := fun u hu =>
      .of_alters ha (fun x hx hx' => (hfirst u hu).1 x hx' hx) fun _ _ => List.not_mem_nil
    obtain ⟨o₂, w₂, he', hreturns', hdone', ha'⟩ :=
      ih (place + 1) hrest (fun u hu => hpre (hagrees u hu) (h u (.tail _ hu)))
        fun u hu => hop u (.tail _ hu)
    -- and so is this one afterwards
    have hself : t.Agrees w₁ w₂ := by
      refine .of_alters ha' (fun x hx hx' => ?_) fun _ _ => List.not_mem_nil
      obtain ⟨u, hu, hx'⟩ := List.mem_flatMap.1 hx'
      exact (hfirst u hu).1 x hx hx'
    refine ⟨o₁.first o₂, w₂, ?_, ?_, ?_, ?_⟩
    · rw [List.map_cons, FanOut.visit, he]
      dsimp only at hreturns ⊢
      rw [contain_returns hreturns, he']
    · rcases o₁ with e | u
      · exact hreturns
      · exact hreturns'
    · intro u hu
      rcases List.mem_cons.1 hu with rfl | hu
      · refine ⟨o₁, hR (.refl u w) hself hdone, fun ho => ?_⟩
        rcases o₁ with e | _
        · cases ho
        · rfl
      · obtain ⟨o', hdone', ho'⟩ := hdone' u hu
        refine ⟨o', hR (hagrees u hu).symm (.refl u w₂) hdone', fun ho => ho' ?_⟩
        rcases o₁ with e | _
        · cases ho
        · exact ho
    · exact (ha.mono (List.subset_append_left _ _) (List.Subset.refl _)).trans
        (ha'.mono (List.subset_append_right _ _) (List.Subset.refl _))

end Tree

end Logging
