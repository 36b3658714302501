import Mathlib.Data.List.Nodup
import Logging.Fields

/-!
# Inserting fields

* `Fields.keys_insert`: a field is set in place, or comes last.
* `Fields.distinct_insertAll`: **inserting keeps the names distinct.**
* `Fields.insertAll_new`: new names come behind what is there.
* `Fields.get?_insertAll_mem`: **what is inserted wins** over what was there.
-/

namespace Logging.Fields

variable {f g : Fields} {key other : String} {value : Value}

/-- A name that is there keeps its place; a new one comes last. -/
theorem keys_put (key : String) (value : Value) (l : List (String × Value)) :
    (put key value l).map Prod.fst =
      if key ∈ l.map Prod.fst then l.map Prod.fst else l.map Prod.fst ++ [key] := by
  induction l with
  | nil => rfl
  | cons e l ih =>
    obtain ⟨k, v⟩ := e
    by_cases hk : k = key
    · simp [put, hk]
    · have hk' : ¬ key = k := fun h => hk h.symm
      simp only [put, hk, if_false, List.map_cons, ih, List.mem_cons, hk', false_or]
      split <;> rfl

theorem keys_insert (f : Fields) (key : String) (value : Value) :
    (f.insert key value).keys = if key ∈ f.keys then f.keys else f.keys ++ [key] :=
  keys_put key value f.entries

theorem distinct_insert (h : f.keys.Nodup) (key : String) (value : Value) :
    (f.insert key value).keys.Nodup := by
  rw [keys_insert]
  split
  · exact h
  · rename_i hk
    rw [List.nodup_append]
    refine ⟨h, List.nodup_singleton _, fun k hm k' hm' he => ?_⟩
    rw [List.mem_singleton.1 hm'] at he
    exact hk (he ▸ hm)

/-- **Inserting keeps the names distinct.** -/
theorem distinct_insertAll (h : f.keys.Nodup) (g : Fields) : (f.insertAll g).keys.Nodup := by
  obtain ⟨es⟩ := g
  induction es generalizing f with
  | nil => exact h
  | cons e es ih => exact ih (distinct_insert h e.1 e.2)

/-- Fields that are inserted one after the other are distinct. -/
theorem distinct_ofList (es : List (String × Value)) : (ofList es).keys.Nodup :=
  distinct_insertAll (f := empty) List.nodup_nil ⟨es⟩

theorem isEmpty_insert (f : Fields) (key : String) (value : Value) :
    (f.insert key value).isEmpty = false := by
  obtain ⟨es⟩ := f
  cases es with
  | nil => rfl
  | cons e es =>
    simp only [isEmpty, insert, put]
    split <;> rfl

theorem isEmpty_insertAll (f g : Fields) :
    (f.insertAll g).isEmpty = (f.isEmpty && g.isEmpty) := by
  obtain ⟨es⟩ := g
  induction es generalizing f with
  | nil => simp [insertAll, isEmpty]
  | cons e es ih =>
    calc ((f.insert e.1 e.2).insertAll ⟨es⟩).isEmpty
        = ((f.insert e.1 e.2).isEmpty && isEmpty ⟨es⟩) := ih _
      _ = (f.isEmpty && isEmpty ⟨e :: es⟩) := by rw [isEmpty_insert]; simp [isEmpty]

theorem put_notMem {l : List (String × Value)} (h : key ∉ l.map Prod.fst) :
    put key value l = l ++ [(key, value)] := by
  induction l with
  | nil => rfl
  | cons e l ih =>
    rw [List.map_cons, List.mem_cons, not_or] at h
    rw [put, if_neg (Ne.symm h.1), ih h.2, List.cons_append]

/-- New names come behind what is there, in their order. -/
theorem insertAll_new (h : (f.keys ++ g.keys).Nodup) :
    f.insertAll g = ⟨f.entries ++ g.entries⟩ := by
  obtain ⟨es⟩ := g
  induction es generalizing f with
  | nil => simp [insertAll]
  | cons e es ih =>
    have hnew : e.1 ∉ f.entries.map Prod.fst := by
      intro he
      exact (List.nodup_append.1 h).2.2 _ he _ List.mem_cons_self rfl
    have hinsert : f.insert e.1 e.2 = ⟨f.entries ++ [e]⟩ := by rw [insert, put_notMem hnew]
    calc (f.insert e.1 e.2).insertAll ⟨es⟩
        = ⟨(f.entries ++ [e]) ++ es⟩ := by
          rw [hinsert]
          exact ih (by simpa [keys] using h)
      _ = ⟨f.entries ++ e :: es⟩ := by rw [List.append_assoc, List.singleton_append]

/-- Fields whose names are distinct are what is inserted of them. -/
theorem ofList_entries (h : f.keys.Nodup) : ofList f.entries = f :=
  insertAll_new (f := empty) (g := f) (by simpa [keys, empty] using h)

theorem insertAll_append (f : Fields) (es es' : List (String × Value)) :
    f.insertAll ⟨es ++ es'⟩ = (f.insertAll ⟨es⟩).insertAll ⟨es'⟩ :=
  List.foldl_append

/-! ## Values -/

theorem find?_put (l : List (String × Value)) :
    (put key value l).find? (fun e => e.1 = other) =
      if other = key then some (key, value) else l.find? fun e => e.1 = other := by
  induction l with
  | nil =>
    by_cases ho : other = key
    · simp [put, ho]
    · simp [put, ho, Ne.symm ho]
  | cons e l ih =>
    obtain ⟨k, v⟩ := e
    by_cases hk : k = key
    · subst hk
      by_cases ho : other = k
      · simp [put, ho]
      · simp [put, ho, Ne.symm ho]
    · by_cases ho : other = k
      · simp [put, hk, ho]
      · have hko : ¬ k = other := fun h => ho h.symm
        simp [put, hk, hko, ih]

/-- A field that was set has its value, and the others keep theirs. -/
theorem get?_insert (f : Fields) (key other : String) (value : Value) :
    (f.insert key value).get? other = if other = key then some value else f.get? other := by
  simp only [get?, insert, find?_put]
  split <;> rfl

theorem get?_insertAll_notMem (h : key ∉ g.keys) : (f.insertAll g).get? key = f.get? key := by
  obtain ⟨es⟩ := g
  induction es generalizing f with
  | nil => rfl
  | cons e es ih =>
    simp only [keys, List.map_cons, List.mem_cons, not_or] at h
    calc ((f.insert e.1 e.2).insertAll ⟨es⟩).get? key
        = (f.insert e.1 e.2).get? key := ih h.2
      _ = f.get? key := by rw [get?_insert, if_neg h.1]

/-- **What is inserted wins** over what was there. -/
theorem get?_insertAll_mem (hg : g.keys.Nodup) (h : (key, value) ∈ g.entries) :
    (f.insertAll g).get? key = some value := by
  obtain ⟨es⟩ := g
  induction es generalizing f with
  | nil => cases h
  | cons e es ih =>
    simp only [keys, List.map_cons, List.nodup_cons] at hg
    rcases List.mem_cons.1 h with rfl | h
    · -- no later field has the name
      calc ((f.insert key value).insertAll ⟨es⟩).get? key
          = (f.insert key value).get? key := get?_insertAll_notMem hg.1
        _ = some value := by rw [get?_insert, if_pos rfl]
    · exact ih hg.2 h

end Logging.Fields
