import Mathlib.Data.List.Pairwise
import Mathlib.Data.String.Basic
import Logging.Json.Value

/-!
# Members of objects

* `lookup_putSorted`: setting a member changes what is under its name and nothing else.
* `nodup_setAll`: **members that are set one after the other are under distinct names.**
* `lookup_setAll`: under each name stands what was set last.
-/

namespace Logging.Json

variable {k k' : String} {v : Json} {ms es : List (String × Json)}

/-- Sets members one after the other. -/
def setAll (es ms : List (String × Json)) : List (String × Json) :=
  es.foldl (fun acc e => putSorted e.1 e.2 acc) ms

theorem lookup_member (k k' : String) (v : Json) (ms : List (String × Json)) :
    ((k, v) :: ms).lookup k' = if k' = k then some v else ms.lookup k' := by
  rw [List.lookup_cons]
  by_cases h : k' = k
  · simp [h]
  · simp [h, beq_eq_false_iff_ne.2 h]

theorem lookup_putSorted (k k' : String) (v : Json) (ms : List (String × Json)) :
    (putSorted k v ms).lookup k' = if k' = k then some v else ms.lookup k' := by
  induction ms with
  | nil => exact lookup_member k k' v []
  | cons e ms ih =>
    obtain ⟨name, w⟩ := e
    unfold putSorted
    split
    · rename_i hname
      subst hname
      simp only [lookup_member]
      split <;> rfl
    rename_i hname
    split
    · exact lookup_member k k' v _
    · simp only [lookup_member, ih]
      split
      · rename_i h
        rw [if_neg (fun hk => hname (hk.symm.trans h))]
      · rfl

theorem mem_keys_putSorted :
    k' ∈ (putSorted k v ms).map Prod.fst ↔ k' = k ∨ k' ∈ ms.map Prod.fst := by
  induction ms with
  | nil => simp [putSorted]
  | cons e ms ih =>
    obtain ⟨name, w⟩ := e
    unfold putSorted
    split
    · rename_i hname
      simp [hname]
    split
    · simp
    · rw [List.map_cons, List.mem_cons, ih, List.map_cons, List.mem_cons]
      exact or_left_comm

/-- Names in their order. -/
def Sorted (ms : List (String × Json)) : Prop := (ms.map Prod.fst).Pairwise (· < ·)

theorem Sorted.putSorted (h : Sorted ms) (k : String) (v : Json) : Sorted (putSorted k v ms) := by
  induction ms with
  | nil => exact List.pairwise_singleton _ _
  | cons e ms ih =>
    obtain ⟨name, w⟩ := e
    obtain ⟨hfirst, hrest⟩ := List.pairwise_cons.1 h
    unfold Json.putSorted
    split
    · rename_i hname
      subst hname
      exact h
    rename_i hne
    split
    · rename_i hlt
      refine List.pairwise_cons.2 ⟨fun k' hk' => ?_, h⟩
      rcases List.mem_cons.1 hk' with rfl | hk'
      · exact hlt
      · exact lt_trans hlt (hfirst k' hk')
    · rename_i hlt
      have hgt : name < k := lt_of_le_of_ne (not_lt.1 hlt) (Ne.symm hne)
      refine List.pairwise_cons.2 ⟨fun k' hk' => ?_, ih hrest⟩
      rcases mem_keys_putSorted.1 hk' with rfl | hk'
      · exact hgt
      · exact hfirst k' hk'

theorem Sorted.setAll (h : Sorted ms) (es : List (String × Json)) : Sorted (setAll es ms) := by
  induction es generalizing ms with
  | nil => exact h
  | cons e es ih => exact ih (h.putSorted e.1 e.2)

theorem Sorted.nodup (h : Sorted ms) : (ms.map Prod.fst).Nodup :=
  h.imp fun hlt => ne_of_lt hlt

/-- **Members that are set one after the other are under distinct names.** -/
theorem nodup_setAll (es : List (String × Json)) : ((setAll es []).map Prod.fst).Nodup := by
  have hnil : Sorted [] := .nil
  exact (hnil.setAll es).nodup

/-- What is not set stays. -/
theorem lookup_setAll_of_notMem (h : k ∉ es.map Prod.fst) (ms : List (String × Json)) :
    (setAll es ms).lookup k = ms.lookup k := by
  induction es generalizing ms with
  | nil => rfl
  | cons e es ih =>
    rw [List.map_cons, List.mem_cons, not_or] at h
    show (setAll es (putSorted e.1 e.2 ms)).lookup k = _
    rw [ih h.2, lookup_putSorted, if_neg h.1]

theorem setAll_append (es es' ms : List (String × Json)) :
    setAll (es ++ es') ms = setAll es' (setAll es ms) :=
  List.foldl_append

/-- Under each name stands what was set last. -/
theorem lookup_setAll {before after : List (String × Json)} (h : k ∉ after.map Prod.fst)
    (ms : List (String × Json)) :
    (setAll (before ++ (k, v) :: after) ms).lookup k = some v := by
  rw [setAll_append]
  show (setAll after (putSorted k v (setAll before ms))).lookup k = _
  rw [lookup_setAll_of_notMem h, lookup_putSorted, if_pos rfl]

theorem mem_putSorted {e : String × Json} (h : e ∈ putSorted k v ms) : e = (k, v) ∨ e ∈ ms := by
  induction ms with
  | nil => simpa [putSorted] using h
  | cons e' ms ih =>
    obtain ⟨name, w⟩ := e'
    unfold putSorted at h
    split at h
    · rcases List.mem_cons.1 h with h | h
      · exact .inl h
      · exact .inr (List.mem_cons_of_mem _ h)
    split at h
    · exact List.mem_cons.1 h
    · rcases List.mem_cons.1 h with h | h
      · exact .inr (List.mem_cons.2 (.inl h))
      · exact (ih h).imp id (List.mem_cons_of_mem _)

theorem mem_setAll {e : String × Json} (h : e ∈ setAll es ms) : e ∈ es ∨ e ∈ ms := by
  induction es generalizing ms with
  | nil => exact .inr h
  | cons e' es ih =>
    rcases ih h with h | h
    · exact .inl (List.mem_cons_of_mem _ h)
    · rcases mem_putSorted h with rfl | h
      · exact .inl List.mem_cons_self
      · exact .inr h

end Logging.Json
