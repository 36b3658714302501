import Mathlib.Data.List.Nodup
import Logging.Proofs.Fields.Insert

/-!
# Fields as an ordered map

Fields that are edited, merged and qualified in any order are a map whose names stand in the order in
which they came.

* `Edit`, `made`: a history of edits, and the fields that it makes.
* `order`, `lastWrite`: the names that a history leaves, and what it has written to each of them,
  told without any fields.
* `entries_insert`, `addIfAbsent_eq`, `take_eq`, `mergeMissing_eq`: what an operation does to fields
  with distinct names.
* `made_follows`: **the fields that a history makes are those that it tells of.**
* `ordered_map`: so they are an ordered map, and every operation treats them as one.
-/

namespace Logging.Fields

variable {f g : Fields} {key other pre : String} {value : Value}

/-! ## Single operations -/

theorem contains_iff : f.contains key = true ↔ key ∈ f.keys := by
  simp only [contains, keys, List.any_eq_true, decide_eq_true_eq, List.mem_map]

theorem find?_eq_none (h : key ∉ f.keys) : f.entries.find? (fun e => e.1 = key) = none := by
  rw [List.find?_eq_none]
  intro e he heq
  exact h (List.mem_map.2 ⟨e, he, of_decide_eq_true heq⟩)

theorem get?_eq_none_iff : f.get? key = none ↔ key ∉ f.keys := by
  constructor
  · intro h hmem
    rw [get?, Option.map_eq_none_iff, List.find?_eq_none] at h
    obtain ⟨e, he, heq⟩ := List.mem_map.1 hmem
    exact h e he (decide_eq_true heq)
  · intro h
    rw [get?, find?_eq_none h, Option.map_none]

/-- A name that is there is set in place; a new one comes last. -/
theorem put_eq : ∀ l : List (String × Value), (l.map Prod.fst).Nodup →
    put key value l = if key ∈ l.map Prod.fst
      then l.map fun e => if e.1 = key then (key, value) else e
      else l ++ [(key, value)] := by
  intro l
  induction l with
  | nil => intro _; rfl
  | cons e l ih =>
    intro hn
    obtain ⟨k, v⟩ := e
    simp only [List.map_cons, List.nodup_cons] at hn
    by_cases hk : k = key
    · subst hk
      -- no later field has the name
      have hlater : l.map (fun e => if e.1 = k then (k, value) else e) = l := by
        refine (List.map_congr_left fun e he => ?_).trans (List.map_id l)
        exact if_neg fun heq => hn.1 (List.mem_map.2 ⟨e, he, heq⟩)
      simp [put, hlater]
    · simp only [put, hk, if_false, List.map_cons, List.mem_cons, Ne.symm hk, false_or, ih hn.2]
      split <;> rfl

theorem entries_insert (hn : f.keys.Nodup) (key : String) (value : Value) :
    (f.insert key value).entries = if key ∈ f.keys
      then f.entries.map fun e => if e.1 = key then (key, value) else e
      else f.entries ++ [(key, value)] :=
  put_eq f.entries hn

/-- A field is added exactly if there is none of that name, and nothing else changes. -/
theorem addIfAbsent_eq (f : Fields) (key : String) (value : Value) : f.addIfAbsent key value =
    if key ∈ f.keys then (false, f) else (true, ⟨f.entries ++ [(key, value)]⟩) := by
  by_cases hk : key ∈ f.keys
  · simp [addIfAbsent, contains_iff.2 hk, hk]
  · have hc : f.contains key = false := by
      rw [Bool.eq_false_iff, ne_eq, contains_iff]
      exact hk
    simp [addIfAbsent, insertIfAbsent, hc, hk]

theorem insertIfAbsent_eq (f : Fields) (key : String) (value : Value) :
    f.insertIfAbsent key value = (f.addIfAbsent key value).2 := by
  simp only [addIfAbsent]
  split
  · rename_i h
    simp only [insertIfAbsent, h, if_true]
  · rfl

theorem eraseP_eq_filter : ∀ l : List (String × Value), (l.map Prod.fst).Nodup →
    l.eraseP (fun e => e.1 = key) = l.filter fun e => e.1 ≠ key := by
  intro l
  induction l with
  | nil => intro _; rfl
  | cons e l ih =>
    intro hn
    simp only [List.map_cons, List.nodup_cons] at hn
    by_cases hk : e.1 = key
    · have hrest : l.filter (fun e => e.1 ≠ key) = l := by
        rw [List.filter_eq_self]
        intro e' he'
        refine decide_eq_true fun heq => hn.1 ?_
        exact List.mem_map.2 ⟨e', he', heq.trans hk.symm⟩
      rw [List.eraseP_cons_of_pos (by simpa using hk), List.filter_cons_of_neg (by simpa using hk),
        hrest]
    · rw [List.eraseP_cons_of_neg (by simpa using hk), List.filter_cons_of_pos (by simpa using hk),
        ih hn.2]

/-- **A field that is taken out** gives its value, and the others keep their order. -/
theorem take_eq (hn : f.keys.Nodup) (key : String) :
    f.take key = (f.get? key, ⟨f.entries.filter fun e => e.1 ≠ key⟩) := by
  unfold take
  cases hf : f.entries.find? fun e => e.1 = key with
  | some e => simp only [get?, hf, Option.map_some, remove, eraseP_eq_filter _ hn]
  | none =>
    have hall : f.entries.filter (fun e => e.1 ≠ key) = f.entries := by
      rw [List.filter_eq_self]
      intro e he
      have hne := List.find?_eq_none.1 hf e he
      simpa using hne
    simp only [get?, hf, Option.map_none, hall]

/-- **Merging** keeps what is there, and appends what is absent in the order in which it stands in
the other fields. -/
theorem mergeMissing_eq (f : Fields) (hg : g.keys.Nodup) :
    f.mergeMissing g = ⟨f.entries ++ g.entries.filter fun e => e.1 ∉ f.keys⟩ := by
  obtain ⟨es⟩ := g
  induction es generalizing f with
  | nil => simp [mergeMissing]
  | cons e es ih =>
    simp only [keys, List.map_cons, List.nodup_cons] at hg
    have hstep : f.mergeMissing ⟨e :: es⟩ = (f.insertIfAbsent e.1 e.2).mergeMissing ⟨es⟩ := rfl
    rw [hstep, ih _ hg.2, insertIfAbsent_eq, addIfAbsent_eq]
    by_cases hk : e.1 ∈ f.keys
    · simp [hk]
    · -- the others have other names than the field that was added
      have hrest : es.filter (fun x => x.1 ∉ keys ⟨f.entries ++ [e]⟩) =
          es.filter fun x => x.1 ∉ f.keys := by
        refine List.filter_congr fun x hx => ?_
        have hne : x.1 ≠ e.1 := fun heq => hg.1 (List.mem_map.2 ⟨x, hx, heq⟩)
        rw [keys, keys, List.map_append, List.map_singleton]
        simp [hne]
      simp only [hk, if_false, not_false_eq_true, decide_true, List.filter_cons_of_pos, hrest]
      rw [List.append_assoc, List.singleton_append]

/-! ## Names and values afterwards -/

/-- Leaving out fields of other names does not matter for a name. -/
theorem find?_filter_name {p : String → Prop} [DecidablePred p] (hp : p key)
    (l : List (String × Value)) :
    (l.filter fun e => p e.1).find? (fun e => e.1 = key) = l.find? fun e => e.1 = key := by
  rw [List.find?_filter]
  congr 1
  funext e
  by_cases he : e.1 = key
  · simp [he, hp]
  · simp [he]

theorem keys_addIfAbsent (f : Fields) (key : String) (value : Value) :
    (f.addIfAbsent key value).2.keys = if key ∈ f.keys then f.keys else f.keys ++ [key] := by
  rw [addIfAbsent_eq]
  split
  · rfl
  · simp [keys]

theorem get?_addIfAbsent (f : Fields) (key other : String) (value : Value) :
    (f.addIfAbsent key value).2.get? other =
      (f.get? other).or (if other = key then some value else none) := by
  rw [addIfAbsent_eq]
  by_cases hk : key ∈ f.keys
  · by_cases ho : other = key
    · -- what is there stays
      subst ho
      obtain ⟨v, hv⟩ := Option.ne_none_iff_exists'.1 fun h => get?_eq_none_iff.1 h hk
      simp [hk, hv]
    · simp [hk, ho]
  · have hnew : ([(key, value)] : List (String × Value)).find? (fun e => e.1 = other) =
        if other = key then some (key, value) else none := by
      by_cases ho : other = key
      · simp [ho]
      · simp [ho, Ne.symm ho]
    simp only [hk, if_false, get?, List.find?_append, hnew, Option.map_or]
    split <;> rfl

theorem distinct_addIfAbsent (hn : f.keys.Nodup) (key : String) (value : Value) :
    (f.addIfAbsent key value).2.keys.Nodup := by
  rw [keys_addIfAbsent, ← keys_insert f key value]
  exact distinct_insert hn key value

theorem keys_take (hn : f.keys.Nodup) (key : String) :
    (f.take key).2.keys = f.keys.filter (· ≠ key) := by
  rw [take_eq hn, keys, keys, List.filter_map]
  rfl

theorem get?_take (hn : f.keys.Nodup) (key other : String) :
    (f.take key).2.get? other = if other = key then none else f.get? other := by
  rw [take_eq hn]
  by_cases ho : other = key
  · rw [if_pos ho, get?_eq_none_iff, keys, List.mem_map]
    rintro ⟨e, he, heq⟩
    have hne := (List.mem_filter.1 he).2
    simp [heq, ho] at hne
  · rw [if_neg ho, get?, find?_filter_name (p := (· ≠ key)) ho, get?]

theorem keys_mergeMissing (f : Fields) (hg : g.keys.Nodup) :
    (f.mergeMissing g).keys = f.keys ++ g.keys.filter (· ∉ f.keys) := by
  rw [mergeMissing_eq f hg]
  simp only [keys, List.map_append, List.filter_map]
  rfl

theorem distinct_mergeMissing (hf : f.keys.Nodup) (hg : g.keys.Nodup) :
    (f.mergeMissing g).keys.Nodup := by
  rw [keys_mergeMissing f hg, List.nodup_append]
  refine ⟨hf, hg.filter _, ?_⟩
  rintro k hk k' hk' rfl
  exact of_decide_eq_true (List.mem_filter.1 hk').2 hk

theorem get?_mergeMissing (f : Fields) (hg : g.keys.Nodup) (key : String) :
    (f.mergeMissing g).get? key = (f.get? key).or (g.get? key) := by
  rw [mergeMissing_eq f hg]
  by_cases hk : key ∈ f.keys
  · obtain ⟨v, hv⟩ := Option.ne_none_iff_exists'.1 fun h => get?_eq_none_iff.1 h hk
    rw [hv, Option.some_or, ← hv]
    have hfind : (f.entries.find? fun e => e.1 = key).isSome := by
      rw [get?, Option.map_eq_some_iff] at hv
      obtain ⟨e, he, -⟩ := hv
      rw [he]
      rfl
    rw [get?, get?, List.find?_append, Option.or_of_isSome hfind]
  · -- a field of that name is absent, so it is not left out
    rw [get?_eq_none_iff.2 hk, Option.none_or, get?, List.find?_append, find?_eq_none hk,
      Option.none_or, find?_filter_name (p := (· ∉ f.keys)) hk, get?]

/-- The name that was given this prefix. -/
def unqualified? (pre key : String) : Option String :=
  (key.toList.dropPrefix? (pre ++ ".").toList).map String.ofList

theorem unqualified?_eq_some : unqualified? pre key = some other ↔ key = pre ++ "." ++ other := by
  rw [unqualified?, Option.map_eq_some_iff]
  constructor
  · rintro ⟨rest, hrest, rfl⟩
    obtain ⟨p, hp, heq⟩ := List.dropPrefix?_eq_some_iff.1 hrest
    rw [beq_iff_eq] at heq
    have hsplit : key = String.ofList ((pre ++ ".").toList ++ rest) := by
      rw [← heq, ← hp, String.ofList_toList]
    rw [hsplit, String.ofList_append, String.ofList_toList]
  · rintro rfl
    refine ⟨other.toList, List.dropPrefix?_eq_some_iff.2 ⟨(pre ++ ".").toList, ?_, ?_⟩, ?_⟩
    · rw [String.toList_append]
    · exact beq_self_eq_true _
    · exact String.ofList_toList

theorem qualified_injective (pre : String) : Function.Injective (pre ++ "." ++ ·) := by
  intro a b h
  have hlist := congrArg String.toList h
  simp only [String.toList_append, List.append_cancel_left_eq] at hlist
  exact String.toList_inj.1 hlist

theorem keys_qualify (f : Fields) (pre : String) :
    (f.qualify pre).keys = f.keys.map (pre ++ "." ++ ·) := by
  simp [keys, qualify, Function.comp_def]

theorem get?_qualify (f : Fields) (pre key : String) :
    (f.qualify pre).get? key = (unqualified? pre key).bind f.get? := by
  cases hu : unqualified? pre key with
  | some k =>
    obtain rfl := unqualified?_eq_some.1 hu
    have hsame : ∀ e : String × Value,
        decide (pre ++ "." ++ e.1 = pre ++ "." ++ k) = decide (e.1 = k) := by
      intro e
      exact decide_eq_decide.2 (qualified_injective pre).eq_iff
    simp only [get?, qualify, List.find?_map, Function.comp_def, hsame, Option.map_map,
      Option.bind_some]
  | none =>
    rw [Option.bind_none, get?_eq_none_iff, keys_qualify, List.mem_map]
    rintro ⟨k, -, rfl⟩
    rw [unqualified?_eq_some.2 rfl] at hu
    cases hu

/-! ## Histories -/

/-- What is done to fields. Fields that are merged have a history of their own. -/
inductive Edit where
  | insert (key : String) (value : Value)
  | insertIfAbsent (key : String) (value : Value)
  | remove (key : String)
  | mergeMissing (other : List Edit)
  | qualify (pre : String)

mutual

/-- Fields after an edit. -/
def Edit.apply : Edit → Fields → Fields
  | .insert key value, f => f.insert key value
  | .insertIfAbsent key value, f => (f.addIfAbsent key value).2
  | .remove key, f => (f.take key).2
  | .mergeMissing other, f => f.mergeMissing (made other)
  | .qualify pre, f => f.qualify pre

/-- **The fields that a history makes**, beginning without any. The latest edit stands first. -/
def made : List Edit → Fields
  | [] => empty
  | e :: before => e.apply (made before)

end

mutual

/-- The names after an edit, given those before. -/
def Edit.arrange : Edit → List String → List String
  | .insert key _, names => if key ∈ names then names else names ++ [key]
  | .insertIfAbsent key _, names => if key ∈ names then names else names ++ [key]
  | .remove key, names => names.filter (· ≠ key)
  | .mergeMissing other, names => names ++ (order other).filter (· ∉ names)
  | .qualify pre, names => names.map (pre ++ "." ++ ·)

/-- **The names that a history leaves**, in the order in which they came. -/
def order : List Edit → List String
  | [] => []
  | e :: before => e.arrange (order before)

end

mutual

/-- What an edit leaves under a name, given what stood under each name before. -/
def Edit.leaves : Edit → (String → Option Value) → String → Option Value
  | .insert k v, had, key => if key = k then some v else had key
  | .insertIfAbsent k v, had, key => (had key).or (if key = k then some v else none)
  | .remove k, had, key => if key = k then none else had key
  | .mergeMissing other, had, key => (had key).or (lastWrite other key)
  | .qualify pre, had, key => (unqualified? pre key).bind had

/-- **What a history has written to a name last**, if it has not been removed since. What is written
only where it is absent counts if it was absent. -/
def lastWrite : List Edit → String → Option Value
  | [], _ => none
  | e :: before, key => e.leaves (lastWrite before) key

end

/-- The fields have these names, in this order, and under each name this value. -/
structure Follows (f : Fields) (names : List String) (value : String → Option Value) : Prop where
  distinct : f.keys.Nodup
  names : f.keys = names
  values : ∀ key, f.get? key = value key

variable {names : List String} {had : String → Option Value}

namespace Follows

theorem insert (h : Follows f names had) (k : String) (v : Value) :
    Follows (f.insert k v) ((Edit.insert k v).arrange names) ((Edit.insert k v).leaves had) where
  distinct := distinct_insert h.distinct k v
  names := by rw [keys_insert, h.names, Edit.arrange]
  values key := by rw [get?_insert, h.values, Edit.leaves]

theorem insertIfAbsent (h : Follows f names had) (k : String) (v : Value) :
    Follows (f.addIfAbsent k v).2 ((Edit.insertIfAbsent k v).arrange names)
      ((Edit.insertIfAbsent k v).leaves had) where
  distinct := distinct_addIfAbsent h.distinct k v
  names := by rw [keys_addIfAbsent, h.names, Edit.arrange]
  values key := by rw [get?_addIfAbsent, h.values, Edit.leaves]

theorem remove (h : Follows f names had) (k : String) :
    Follows (f.take k).2 ((Edit.remove k).arrange names) ((Edit.remove k).leaves had) where
  distinct := by rw [keys_take h.distinct]; exact h.distinct.filter _
  names := by rw [keys_take h.distinct, h.names, Edit.arrange]
  values key := by rw [get?_take h.distinct, h.values, Edit.leaves]

theorem mergeMissing {es : List Edit} (h : Follows f names had)
    (hg : Follows (made es) (order es) (lastWrite es)) :
    Follows (f.mergeMissing (made es)) ((Edit.mergeMissing es).arrange names)
      ((Edit.mergeMissing es).leaves had) where
  distinct := distinct_mergeMissing h.distinct hg.distinct
  names := by rw [keys_mergeMissing f hg.distinct, h.names, hg.names, Edit.arrange]
  values key := by rw [get?_mergeMissing f hg.distinct, h.values, hg.values, Edit.leaves]

theorem qualify (h : Follows f names had) (pre : String) :
    Follows (f.qualify pre) ((Edit.qualify pre).arrange names) ((Edit.qualify pre).leaves had) where
  distinct := by rw [keys_qualify]; exact h.distinct.map (qualified_injective pre)
  names := by rw [keys_qualify, h.names, Edit.arrange]
  values key := by
    rw [get?_qualify, Edit.leaves]
    exact congrArg _ (funext h.values)

end Follows

mutual

/-- An edit does to fields what it tells of. -/
theorem Edit.apply_follows {f : Fields} {names : List String} {had : String → Option Value} :
    ∀ e : Edit, Follows f names had → Follows (e.apply f) (e.arrange names) (e.leaves had)
  | .insert k v, h => h.insert k v
  | .insertIfAbsent k v, h => h.insertIfAbsent k v
  | .remove k, h => h.remove k
  | .mergeMissing other, h => h.mergeMissing (made_follows other)
  | .qualify pre, h => h.qualify pre

/-- **The fields that a history makes** are those that it tells of. -/
theorem made_follows : ∀ es : List Edit, Follows (made es) (order es) (lastWrite es)
  | [] => ⟨List.nodup_nil, rfl, fun _ => rfl⟩
  | e :: before => e.apply_follows (made_follows before)

end

/-- **Fields are a map in the order of insertion.** However they were edited, merged and qualified:
their names are distinct and stand in the order in which they came, and under each of them stands
what was written last, if it was not removed since. Inserting keeps the place of a name that is there
and appends one that is not; inserting what is absent tells whether it was, and changes nothing else;
taking a field out gives its value; merging appends the absent fields of the other, in its order; and
qualifying renames every field where it stands. -/
theorem ordered_map (es : List Edit) :
    (made es).keys.Nodup ∧ (made es).keys = order es ∧
    (∀ key, (made es).get? key = lastWrite es key) ∧
    (∀ key value, ((made es).insert key value).entries = if key ∈ order es
      then (made es).entries.map fun e => if e.1 = key then (key, value) else e
      else (made es).entries ++ [(key, value)]) ∧
    (∀ key value, (made es).addIfAbsent key value = if key ∈ order es
      then (false, made es) else (true, ⟨(made es).entries ++ [(key, value)]⟩)) ∧
    (∀ key, (made es).take key =
      (lastWrite es key, ⟨(made es).entries.filter fun e => e.1 ≠ key⟩)) ∧
    (∀ other, ((made es).mergeMissing (made other)).entries =
      (made es).entries ++ (made other).entries.filter fun e => e.1 ∉ order es) ∧
    (∀ pre, ((made es).qualify pre).keys.Nodup ∧ ((made es).qualify pre).entries =
      (made es).entries.map fun e => (pre ++ "." ++ e.1, e.2)) := by
  have h := made_follows es
  refine ⟨h.distinct, h.names, h.values, ?_, ?_, ?_, ?_, ?_⟩
  · intro key value
    rw [← h.names]
    exact entries_insert h.distinct key value
  · intro key value
    rw [← h.names]
    exact addIfAbsent_eq (made es) key value
  · intro key
    rw [← h.values]
    exact take_eq h.distinct key
  · intro other
    rw [← h.names, mergeMissing_eq (made es) (made_follows other).distinct]
  · intro pre
    exact ⟨(h.qualify pre).distinct, rfl⟩

/-- A name that is inserted meets the one that was qualified to it. -/
example : (made [.insert "a.x" .null, .insert "b" (.bool true), .qualify "a",
    .insert "x" (.bool false)]).entries = [("a.x", .null), ("b", .bool true)] := by
  decide

end Logging.Fields
