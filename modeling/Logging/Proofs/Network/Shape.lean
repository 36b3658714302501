import Logging.Network.Ownership
import Logging.Proofs.Network.Places

/-!
# Who holds the sinks of a tree

* `Tree.Shaped`: the sinks of a tree hold those that stand behind them.
* `Tree.Shaped.unheld`: nobody in a tree holds its foremost sink.
-/

namespace Logging.Tree

variable {w w' : Network} {id y : ℕ} {t u : Tree} {ts : List Tree}

/-- The sinks of the tree hold those that stand behind them. -/
def Shaped : Tree → Network → Prop
  | leaf id _, w => (w.cell id).references = []
  | buffered id t, w => (w.cell id).references = [t.id] ∧ t.Shaped w
  | queued id t, w => (w.cell id).references = [t.id] ∧ t.Shaped w
  | fanOut id ts, w => (w.cell id).references = ts.map Tree.id ∧ ∀ t ∈ ts, t.Shaped w

theorem Shaped.congr : ∀ {t : Tree},
    (∀ x ∈ t.ids, (w'.cell x).references = (w.cell x).references) → t.Shaped w → t.Shaped w' := by
  refine @induction _ ?_ ?_ ?_ ?_
  · intro id l h hs
    rw [Shaped] at hs ⊢
    exact (h id (by simp [ids])).trans hs
  · intro id t ih h hs
    rw [Shaped] at hs ⊢
    exact ⟨(h id (by simp [ids])).trans hs.1, ih (fun x hx => h x (by simp [ids, hx])) hs.2⟩
  · intro id t ih h hs
    rw [Shaped] at hs ⊢
    exact ⟨(h id (by simp [ids])).trans hs.1, ih (fun x hx => h x (by simp [ids, hx])) hs.2⟩
  · intro id ts ih h hs
    rw [Shaped] at hs ⊢
    exact ⟨(h id (by simp [ids])).trans hs.1, fun t ht =>
      ih t ht (fun x hx => h x (by simpa [ids] using .inr ⟨t, ht, hx⟩)) (hs.2 t ht)⟩

theorem Within.shaped (h : Within u t) : t.Shaped w → u.Shaped w := by
  induction h with
  | here => exact fun h => h
  | buffered _ ih =>
    intro h
    rw [Shaped] at h
    exact ih h.2
  | queued _ ih =>
    intro h
    rw [Shaped] at h
    exact ih h.2
  | fanOut hmem _ ih =>
    intro h
    rw [Shaped] at h
    exact ih (h.2 _ hmem)

/-- What a sink of a tree holds is in the tree. -/
theorem Shaped.references_subset (h : t.Shaped w) (hy : y ∈ t.ids) :
    (w.cell y).references ⊆ t.ids := by
  obtain ⟨u, hu, rfl⟩ := exists_within hy
  refine List.Subset.trans (fun x hx => ?_) hu.ids_subset
  have hshaped := hu.shaped h
  cases u with
  | leaf id l =>
    rw [Shaped] at hshaped
    simp [hshaped] at hx
  | buffered id v =>
    rw [Shaped] at hshaped
    obtain rfl : x = v.id := by simpa [hshaped.1] using hx
    simp [ids, v.mem_ids_self]
  | queued id v =>
    rw [Shaped] at hshaped
    obtain rfl : x = v.id := by simpa [hshaped.1] using hx
    simp [ids, v.mem_ids_self]
  | fanOut id vs =>
    rw [Shaped] at hshaped
    obtain ⟨v, hv, rfl⟩ : ∃ v ∈ vs, v.id = x := by simpa [hshaped.1] using hx
    simpa [ids] using .inr ⟨v, hv, v.mem_ids_self⟩

/-- Nobody in a tree holds its foremost sink. -/
theorem Shaped.unheld (h : t.Shaped w) (ho : t.Ordered)
    (hfree : ∀ y ∉ t.ids, t.id ∉ (w.cell y).references) : w.isHeldInside t.id = false := by
  have hnone : ∀ y, t.id ∉ (w.cell y).references := by
    intro y
    by_cases hy : y ∈ t.ids
    swap
    · exact hfree y hy
    obtain ⟨u, hu, rfl⟩ := exists_within hy
    have hshaped := hu.shaped h
    have hou := hu.ordered ho
    have hle := ho.le hy
    -- a sink holds those only that were there before it
    cases u with
    | leaf id l =>
      rw [Shaped] at hshaped
      simp [hshaped]
    | buffered id v =>
      rw [Shaped] at hshaped
      simp only [Ordered, id_buffered] at hou hle
      simp only [id_buffered, hshaped.1, List.mem_singleton]
      omega
    | queued id v =>
      rw [Shaped] at hshaped
      simp only [Ordered, id_queued] at hou hle
      simp only [id_queued, hshaped.1, List.mem_singleton]
      omega
    | fanOut id vs =>
      rw [Shaped] at hshaped
      simp only [Ordered, id_fanOut] at hou hle
      simp only [id_fanOut, hshaped.1, List.mem_map, not_exists, not_and]
      intro v hv he
      have := (hou v hv).1
      omega
  unfold Network.isHeldInside
  rw [Array.any_eq_false]
  intro i hi
  have hcell : w.cell i = w.cells[i] := by simp [Network.cell, hi]
  simpa [← hcell] using hnone i

end Logging.Tree
