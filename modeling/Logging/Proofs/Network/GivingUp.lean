import Mathlib.Algebra.BigOperators.Fin
import Mathlib.Algebra.Order.BigOperators.Group.Finset
import Logging.Proofs.Network.Evolving
import Logging.Proofs.Network.Release

/-!
# Giving up a whole tree

When nobody holds the foremost sink of a tree any more, the tree comes apart from the front: every
buffer, queue and fan-out lets go of those behind it, which then have no holder left either.

* `Tree.decorators`: the sinks of a tree that pass on to others, those in front first.
* `Tree.giveUp`: every sink that passes on does what it does when it is given up, and is gone.
* `Tree.release_giveUp`: **letting go of the foremost sink gives up the whole tree**, as long as
  nobody else holds a part of it but for the ends.
-/

namespace Logging

open Sink

variable {w w' : Network} {id x y n : ℕ} {program rest : List ℕ}

namespace Network

/-! ## One sink -/

/-- A sink that nobody holds any more does what it does then, and is gone. -/
def letGo (w : Network) (id : SinkId) : Network := (w.abandon id).2.set id .gone

theorem letGo_becomes (h : x ≠ id) : (w.cell x).Becomes ((w.letGo id).cell x) := by
  have habandon := (abandon_evolves id w).becomes x
  unfold letGo
  rwa [(alters_set id .gone [] _).cells x (by simpa using h)]

/-- Whoever is gone holds nobody. -/
theorem letGo_self : ((w.letGo id).cell id).references = [] := by
  unfold letGo
  rw [cell_set_gone]
  rfl

theorem letGo_references (h : x ≠ id) :
    ((w.letGo id).cell x).references = (w.cell x).references :=
  (letGo_becomes h).references

/-- Nobody holds more than before. -/
theorem letGo_subset : ((w.letGo id).cell x).references ⊆ (w.cell x).references := by
  by_cases h : x = id
  · rw [h, letGo_self]
    exact List.nil_subset _
  · rw [letGo_references h]
    exact List.Subset.refl _

/-- How often sinks are held by sinks, counted sink by sink. -/
theorem holdings_eq (w : Network) :
    w.holdings = ∑ x ∈ Finset.range w.cells.size, (w.cell x).references.length := by
  have hcell : ∀ x : Fin w.cells.toList.length, w.cell x = w.cells.toList[x] := fun x => by
    simp [cell]
  have hsum : ∑ x : Fin w.cells.toList.length, (w.cell x).references.length =
      (w.cells.toList.map fun c => c.references.length).sum := by
    simp only [hcell]
    exact Fin.sum_univ_fun_getElem w.cells.toList fun c => c.references.length
  rw [Finset.sum_range, holdings, ← Array.foldl_toList,
    ← List.foldl_map (f := fun c : Cell => c.references.length), ← List.sum_eq_foldl, ← hsum]
  rfl

end Network

namespace Tree

variable {t u : Tree} {ts : List Tree}

/-! ## Letting go of a tree -/

/-- The sinks that pass on to others, those in front first. -/
def decorators : Tree → List ℕ
  | leaf _ _ => []
  | buffered id t => id :: t.decorators
  | queued id t => id :: t.decorators
  | fanOut id ts => id :: ts.flatMap fun t => t.decorators

theorem decorators_subset : ∀ t : Tree, t.decorators ⊆ t.ids := by
  refine induction ?_ ?_ ?_ ?_
  · intro id l
    simp [decorators]
  · intro id t ih
    simpa [decorators, ids] using List.cons_subset_cons id ih
  · intro id t ih
    simpa [decorators, ids] using List.cons_subset_cons id ih
  · intro id ts ih
    simp only [decorators, ids]
    refine List.cons_subset_cons id fun x hx => ?_
    obtain ⟨t, ht, hx⟩ := List.mem_flatMap.1 hx
    exact List.mem_flatMap.2 ⟨t, ht, ih t ht hx⟩

theorem id_mem_decorators (hdec : t.Decorates) : t.id ∈ t.decorators := by
  cases t with
  | leaf id l => exact absurd rfl (hdec id l)
  | _ => simp [decorators]

/-- Every sink that passes on does what it does when it is given up, and is gone. -/
def giveUp (t : Tree) (w : Network) : Network := t.decorators.foldl Network.letGo w

@[simp] theorem giveUp_leaf (id : ℕ) (l : Leaf) (w : Network) : (leaf id l).giveUp w = w := by
  simp [giveUp, decorators]

@[simp] theorem giveUp_buffered (id : ℕ) (t : Tree) (w : Network) :
    (buffered id t).giveUp w = t.giveUp (w.letGo id) := by
  simp [giveUp, decorators]

@[simp] theorem giveUp_queued (id : ℕ) (t : Tree) (w : Network) :
    (queued id t).giveUp w = t.giveUp (w.letGo id) := by
  simp [giveUp, decorators]

@[simp] theorem giveUp_fanOut (id : ℕ) (ts : List Tree) (w : Network) :
    (fanOut id ts).giveUp w = ts.foldl (fun w t => t.giveUp w) (w.letGo id) := by
  simp [giveUp, decorators, List.foldl_flatMap]

theorem giveUp_becomes (h : x ∉ t.decorators) : (w.cell x).Becomes ((t.giveUp w).cell x) := by
  unfold giveUp
  generalize t.decorators = ds at h
  induction ds generalizing w with
  | nil => exact .refl _
  | cons id ds ih =>
    rw [List.mem_cons, not_or] at h
    exact (Network.letGo_becomes h.1).trans (ih h.2)

theorem giveUp_subset (t : Tree) (w : Network) (x : ℕ) :
    ((t.giveUp w).cell x).references ⊆ (w.cell x).references := by
  unfold giveUp
  generalize t.decorators = ds
  induction ds generalizing w with
  | nil => exact List.Subset.refl _
  | cons id ds ih => exact List.Subset.trans (ih _) Network.letGo_subset

/-- Nobody holds a part of the tree any more: neither the program, nor those who are about to let go
of other sinks, nor a sink elsewhere. The program may hold the sinks at the ends. -/
structure Forsaken (program rest : List ℕ) (t : Tree) (w : Network) : Prop where
  shaped : t.Shaped w
  ends : t.ends ⊆ program
  program : ∀ x ∈ t.decorators, x ∉ program
  rest : ∀ x ∈ t.decorators, x ∉ rest
  others : ∀ y ∉ t.ids, ∀ x ∈ t.decorators, x ∉ (w.cell y).references

namespace Forsaken

/-- A tree behind the foremost sink, once that is gone. -/
theorem behind (h : t.Forsaken program rest w) (hu : u.Shaped w) (hends : u.ends ⊆ t.ends)
    (hdec : u.decorators ⊆ t.decorators) (hid : t.id ∉ u.ids)
    (hothers : ∀ y ∈ t.ids, y ≠ t.id → y ∉ u.ids → ∀ x ∈ u.ids, x ∉ (w.cell y).references) :
    u.Forsaken program rest (w.letGo t.id) where
  shaped := hu.congr fun _ hx => Network.letGo_references fun he => hid (he ▸ hx)
  ends := List.Subset.trans hends h.ends
  program x hx := h.program x (hdec hx)
  rest x hx := h.rest x (hdec hx)
  others y hy x hx := by
    by_cases hyt : y = t.id
    · rw [hyt, Network.letGo_self]
      exact List.not_mem_nil
    rw [Network.letGo_references hyt]
    by_cases hmem : y ∈ t.ids
    · exact hothers y hmem hyt hy x (u.decorators_subset hx)
    · exact h.others y hmem x (hdec hx)

/-- A tree elsewhere is given up. -/
theorem giveUp (h : t.Forsaken program rest w) (hu : Apart u t) :
    t.Forsaken program rest (u.giveUp w) where
  shaped := h.shaped.congr fun x hx =>
    (giveUp_becomes fun hm => hu.1 x (u.decorators_subset hm) hx).references
  ends := h.ends
  program := h.program
  rest := h.rest
  others y hy x hx hm := h.others y hy x hx (giveUp_subset u w y hm)

/-- More sinks are about to be let go of, none of them of this tree. -/
theorem more (h : t.Forsaken program rest w) {us : List Tree} (hus : ∀ u ∈ us, Apart t u) :
    t.Forsaken program (us.map Tree.id ++ rest) w where
  shaped := h.shaped
  ends := h.ends
  program := h.program
  rest x hx hm := by
    rcases List.mem_append.1 hm with hm | hm
    · obtain ⟨u, hu, rfl⟩ := List.mem_map.1 hm
      exact (hus u hu).1 _ (t.decorators_subset hx) u.mem_ids_self
    · exact h.rest x hx hm
  others := h.others

end Forsaken

/-- Letting go of the foremost sink gives the tree up, whatever else is let go of after it. -/
def Yields (program : List ℕ) (t : Tree) : Prop :=
  ∀ {n : ℕ} {rest : List ℕ} {w : Network}, t.Ordered → t.Distinct → t.Forsaken program rest w →
    (Network.releaseWithin program (t.ids.length + n) (t.id :: rest) w).2 =
      (Network.releaseWithin program n rest (t.giveUp w)).2

theorem yields_leaf (id : ℕ) (l : Leaf) : (leaf id l).Yields program := by
  intro n rest w _ _ h
  have hid : id ∈ program := h.ends (by simp)
  rw [show (leaf id l).ids.length + n = n + 1 by simp [ids, Nat.add_comm], Network.releaseWithin,
    if_pos (.inl hid), giveUp_leaf]

/-- The foremost sink lets go of those that it holds. -/
theorem Forsaken.release (h : t.Forsaken program rest w) (hdec : t.Decorates) (ho : t.Ordered) :
    (Network.releaseWithin program (n + 1) (t.id :: rest) w).2 =
      (Network.releaseWithin program n ((w.cell t.id).references ++ rest) (w.letGo t.id)).2 := by
  have hid := id_mem_decorators hdec
  have hunheld := h.shaped.unheld ho fun y hy => h.others y hy t.id hid
  rw [Network.releaseWithin, if_neg (by simp [h.program _ hid, h.rest _ hid, hunheld])]
  rfl

theorem yields_buffered (ih : t.Yields program) (id : ℕ) : (buffered id t).Yields program := by
  intro n rest w ho hd h
  have hshaped := h.shaped
  have ho' := ho
  simp only [Shaped, Ordered] at hshaped ho'
  have hrelease := h.release (n := t.ids.length + n) (fun _ _ he => by cases he) ho
  rw [show (buffered id t).ids.length + n = t.ids.length + n + 1 by simp [ids]; omega, hrelease]
  rw [id_buffered, hshaped.1, giveUp_buffered]
  refine ih ho'.2 hd.buffered.2
    (h.behind hshaped.2 (by simp) (by simp [decorators]) hd.buffered.1 ?_)
  intro y hy hne hnot
  rw [id_buffered] at hne
  exact absurd (by simpa [ids, hne] using hy) hnot

theorem yields_queued (ih : t.Yields program) (id : ℕ) : (queued id t).Yields program := by
  intro n rest w ho hd h
  have hshaped := h.shaped
  have ho' := ho
  simp only [Shaped, Ordered] at hshaped ho'
  have hrelease := h.release (n := t.ids.length + n) (fun _ _ he => by cases he) ho
  rw [show (queued id t).ids.length + n = t.ids.length + n + 1 by simp [ids]; omega, hrelease]
  rw [id_queued, hshaped.1, giveUp_queued]
  refine ih ho'.2 hd.queued.2 (h.behind hshaped.2 (by simp) (by simp [decorators]) hd.queued.1 ?_)
  intro y hy hne hnot
  rw [id_queued] at hne
  exact absurd (by simpa [ids, hne] using hy) hnot

/-- Several trees, one after the other. -/
theorem yields_members : ∀ {ts : List Tree} {n : ℕ} {w : Network}, (∀ t ∈ ts, t.Yields program) →
    (∀ t ∈ ts, t.Ordered ∧ t.Distinct) → ts.Pairwise Apart →
    (∀ t ∈ ts, t.Forsaken program rest w) →
    (Network.releaseWithin program ((ts.flatMap fun t => t.ids).length + n)
        (ts.map Tree.id ++ rest) w).2 =
      (Network.releaseWithin program n rest (ts.foldl (fun w t => t.giveUp w) w)).2 := by
  intro ts
  induction ts with
  | nil => simp
  | cons t ts ih =>
    intro n w hyields hgood hapart h
    obtain ⟨hfirst, hapart⟩ := List.pairwise_cons.1 hapart
    obtain ⟨ho, hd⟩ := hgood t List.mem_cons_self
    have hhead := hyields t List.mem_cons_self (n := (ts.flatMap fun t => t.ids).length + n) ho hd
      ((h t List.mem_cons_self).more hfirst)
    rw [List.flatMap_cons, List.length_append, Nat.add_assoc, List.map_cons, List.cons_append,
      hhead]
    exact ih (fun u hu => hyields u (.tail _ hu)) (fun u hu => hgood u (.tail _ hu)) hapart
      fun u hu => (h u (.tail _ hu)).giveUp (hfirst u hu)

theorem yields_fanOut (ih : ∀ t ∈ ts, t.Yields program) (id : ℕ) :
    (fanOut id ts).Yields program := by
  intro n rest w ho hd h
  have hshaped := h.shaped
  have ho' := ho
  simp only [Shaped, Ordered] at hshaped ho'
  obtain ⟨hdts, hapart⟩ := hd.fanOut
  have hrelease := h.release (n := (ts.flatMap fun t => t.ids).length + n)
    (fun _ _ he => by cases he) ho
  rw [show (fanOut id ts).ids.length + n = (ts.flatMap fun t => t.ids).length + n + 1 by
    simp [ids]; omega, hrelease]
  rw [id_fanOut, hshaped.1, giveUp_fanOut]
  refine yields_members ih (fun t ht => ⟨(ho' t ht).2, (hdts t ht).2⟩) hapart fun t ht => ?_
  refine h.behind (hshaped.2 t ht) (fun x hx => by simpa using ⟨t, ht, hx⟩)
    (fun x hx => by simpa [decorators] using .inr ⟨t, ht, hx⟩) (hdts t ht).1 ?_
  -- another member holds only what is its own
  intro y hy hne hnot x hx hm
  rw [id_fanOut] at hne
  obtain ⟨u, hu, hyu⟩ : ∃ u ∈ ts, y ∈ u.ids := by simpa [ids, hne] using hy
  have hut : Apart t u := apart_of_ne hapart ht hu fun he => hnot (he ▸ hyu)
  exact hut.1 x hx ((hshaped.2 u hu).references_subset hyu hm)

/-- **The foremost sink gives up the whole tree.** -/
theorem giveUp_yields (program : List ℕ) (t : Tree) : t.Yields program :=
  induction (P := Yields program) yields_leaf (fun id _ ih => yields_buffered ih id)
    (fun id _ ih => yields_queued ih id) (fun id _ ih => yields_fanOut ih id) t

/-! ## How many there are -/

/-- Every sink of the tree but the foremost one is held once. -/
theorem Shaped.length_ids : ∀ {t : Tree}, t.Shaped w →
    t.ids.length = 1 + (t.decorators.map fun x => (w.cell x).references.length).sum := by
  refine @induction _ ?_ ?_ ?_ ?_
  · intro id l _
    simp [ids, decorators]
  · intro id t ih h
    rw [Shaped] at h
    simp [ids, decorators, h.1, ih h.2]
    omega
  · intro id t ih h
    rw [Shaped] at h
    simp [ids, decorators, h.1, ih h.2]
    omega
  · intro id ts ih h
    rw [Shaped] at h
    obtain ⟨href, hts⟩ := h
    have hmembers : ∀ us : List Tree, us ⊆ ts → (us.flatMap fun t => t.ids).length = us.length +
        ((us.flatMap fun t => t.decorators).map fun x => (w.cell x).references.length).sum := by
      intro us
      induction us with
      | nil => simp
      | cons u us ih' =>
        intro hus
        obtain ⟨hu, hus⟩ := List.cons_subset.1 hus
        simp only [List.flatMap_cons, List.length_append, List.length_cons, List.map_append,
          List.sum_append, ih u hu (hts u hu), ih' hus]
        omega
    simp only [ids, decorators, List.length_cons, List.map_cons, List.sum_cons, href,
      List.length_map, hmembers ts (List.Subset.refl _)]
    omega

theorem decorators_nodup : ∀ {t : Tree}, t.ids.Nodup → t.decorators.Nodup := by
  refine @induction _ ?_ ?_ ?_ ?_
  · intro id l _
    simp [decorators]
  · intro id t ih h
    simp only [ids, decorators, List.nodup_cons] at h ⊢
    exact ⟨fun hm => h.1 (t.decorators_subset hm), ih h.2⟩
  · intro id t ih h
    simp only [ids, decorators, List.nodup_cons] at h ⊢
    exact ⟨fun hm => h.1 (t.decorators_subset hm), ih h.2⟩
  · intro id ts ih h
    simp only [ids, decorators, List.nodup_cons, List.nodup_flatMap, List.mem_flatMap] at h ⊢
    refine ⟨?_, fun t ht => ih t ht (h.2.1 t ht), h.2.2.imp fun hdis x hx hx' =>
      hdis (decorators_subset _ hx) (decorators_subset _ hx')⟩
    rintro ⟨t, ht, hx⟩
    exact h.1 ⟨t, ht, t.decorators_subset hx⟩

/-- A network has as many holders as a tree needs. -/
theorem Shaped.length_le (h : t.Shaped w) (hd : t.Distinct) : t.ids.length ≤ 1 + w.holdings := by
  rw [h.length_ids, w.holdings_eq, ← List.sum_toFinset _ (decorators_nodup hd.ids)]
  refine Nat.add_le_add_left (Finset.sum_le_sum_of_ne_zero fun x _ hx => ?_) 1
  -- a sink that is not there holds nobody
  rw [Finset.mem_range]
  exact Network.cell_lt rfl fun hgone => hx (by simp [hgone, Cell.references])

/-- **Letting go of the foremost sink gives up the whole tree.** -/
theorem release_giveUp (h : t.Forsaken program [] w) (ho : t.Ordered) (hd : t.Distinct) :
    (w.release program [t.id]).2 = t.giveUp w := by
  obtain ⟨n, hn⟩ := Nat.exists_eq_add_of_le (h.shaped.length_le hd)
  have hyields := giveUp_yields program t (n := n) ho hd h
  rw [Network.release, List.length_singleton, hn, hyields]
  cases n <;> rfl

end Tree

end Logging
