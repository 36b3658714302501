import Mathlib.Data.List.Nodup
import Logging.Proofs.Line.Json

/-!
# Fields under one key

A field that has the name of a part of the record moves under the qualifier. Another field may have
the moved name already, and then the two are written under one key.

* `outputKey_eq_iff`: two names have one key just in that case.
* `keys_jsonMembers`: the keys of the object, each of them once.
* `jsonLine_members`: **an object has a member for every field that is not doubled.**
-/

namespace Logging.Line

variable {style : Time.Style} {r : Record} {f : Fields} {a b k : String}

/-! ## Names with one key -/

theorem outputKey_of_mem (h : k ∈ recordKeys) : outputKey k = "fields." ++ k := if_pos h

theorem outputKey_of_notMem (h : k ∉ recordKeys) : outputKey k = k := if_neg h

/-- A moved name is no name of the record. -/
theorem qualified_notMem (h : k ∈ recordKeys) : "fields." ++ k ∉ recordKeys := by
  have hkey := outputKey_notMem k
  rwa [outputKey_of_mem h] at hkey

/-- **Two names have one key** only where one of them is the moved name of the other. -/
theorem outputKey_eq_iff (a b : String) :
    outputKey a = outputKey b ↔
      a = b ∨ (a ∈ recordKeys ∧ b = "fields." ++ a) ∨ (b ∈ recordKeys ∧ a = "fields." ++ b) := by
  constructor
  · intro h
    by_cases ha : a ∈ recordKeys
    · by_cases hb : b ∈ recordKeys
      · rw [outputKey_of_mem ha, outputKey_of_mem hb, String.append_right_inj] at h
        exact .inl h
      · rw [outputKey_of_mem ha, outputKey_of_notMem hb] at h
        exact .inr (.inl ⟨ha, h.symm⟩)
    · by_cases hb : b ∈ recordKeys
      · rw [outputKey_of_notMem ha, outputKey_of_mem hb] at h
        exact .inr (.inr ⟨hb, h⟩)
      · rw [outputKey_of_notMem ha, outputKey_of_notMem hb] at h
        exact .inl h
  · rintro (rfl | ⟨ha, rfl⟩ | ⟨hb, rfl⟩)
    · rfl
    · rw [outputKey_of_mem ha, outputKey_of_notMem (qualified_notMem ha)]
    · rw [outputKey_of_mem hb, outputKey_of_notMem (qualified_notMem hb)]

/-! ## Doubled names -/

/-- A field has the name of a part of the record, and another one has its moved name. -/
def Doubled (f : Fields) (k : String) : Prop :=
  k ∈ recordKeys ∧ "fields." ++ k ∈ f.keys

instance (f : Fields) (k : String) : Decidable (Doubled f k) :=
  inferInstanceAs (Decidable (_ ∧ _))

/-- The names of fields that move to a key which another field has. -/
def doubled (f : Fields) : List String := f.keys.filter fun k => Doubled f k

/-- The names of the other fields. -/
def undoubled (f : Fields) : List String := f.keys.filter fun k => !decide (Doubled f k)

theorem mem_undoubled : k ∈ undoubled f ↔ k ∈ f.keys ∧ ¬ Doubled f k := by
  simp [undoubled]

theorem length_undoubled (f : Fields) : (undoubled f).length + (doubled f).length = f.size := by
  have hkeys : f.keys.length = f.size := List.length_map _
  have hsplit : f.keys.length = (doubled f).length + (undoubled f).length :=
    List.length_eq_length_filter_add fun k => decide (Doubled f k)
  omega

/-- Names of fields that have one key, of which neither is doubled, are one name. -/
theorem outputKey_inj (ha : a ∈ undoubled f) (hb : b ∈ undoubled f)
    (h : outputKey a = outputKey b) : a = b := by
  obtain ⟨hamem, hanot⟩ := mem_undoubled.1 ha
  obtain ⟨hbmem, hbnot⟩ := mem_undoubled.1 hb
  rcases (outputKey_eq_iff a b).1 h with heq | ⟨harec, hmoved⟩ | ⟨hbrec, hmoved⟩
  · exact heq
  · exact absurd ⟨harec, hmoved ▸ hbmem⟩ hanot
  · exact absurd ⟨hbrec, hmoved ▸ hamem⟩ hbnot

/-- The undoubled names have all the keys: a doubled name shares its key with an undoubled one. -/
theorem mem_keys_undoubled :
    k ∈ (undoubled f).map outputKey ↔ k ∈ f.keys.map outputKey := by
  rw [List.mem_map, List.mem_map]
  constructor
  · rintro ⟨a, ha, rfl⟩
    exact ⟨a, (mem_undoubled.1 ha).1, rfl⟩
  · rintro ⟨a, ha, rfl⟩
    by_cases hdoubled : Doubled f a
    · obtain ⟨harec, hmoved⟩ := hdoubled
      have hnot : ¬ Doubled f ("fields." ++ a) := fun h => qualified_notMem harec h.1
      refine ⟨"fields." ++ a, mem_undoubled.2 ⟨hmoved, hnot⟩, ?_⟩
      exact (outputKey_eq_iff _ _).2 (.inr (.inr ⟨harec, rfl⟩))
    · exact ⟨a, mem_undoubled.2 ⟨ha, hdoubled⟩, rfl⟩

/-- A field with neither a doubled name nor the moved form of one has its key for itself. -/
theorem outputKey_alone (ha : a ∈ f.keys) (hb : b ∈ f.keys) (hname : a ∉ doubled f)
    (hmoved : ∀ d ∈ doubled f, a ≠ "fields." ++ d) (h : outputKey b = outputKey a) : b = a := by
  rcases (outputKey_eq_iff b a).1 h with heq | ⟨hbrec, heq⟩ | ⟨harec, heq⟩
  · exact heq
  · have hb' : b ∈ doubled f := List.mem_filter.2 ⟨hb, decide_eq_true ⟨hbrec, heq ▸ ha⟩⟩
    exact absurd heq (hmoved b hb')
  · have ha' : a ∈ doubled f := List.mem_filter.2 ⟨ha, decide_eq_true ⟨harec, heq ▸ hb⟩⟩
    exact absurd ha' hname

/-! ## Members -/

/-- The keys of the record's own parts in its object. -/
def ownKeys (r : Record) : List String :=
  (if r.timestamp.isSome then ["timestamp"] else []) ++ ["level", "message"]

theorem keys_ownMembers (style : Time.Style) (r : Record) :
    (ownMembers style r).map Prod.fst = ownKeys r := by
  unfold ownMembers ownKeys
  cases r.timestamp <;> rfl

theorem ownKeys_subset (h : k ∈ ownKeys r) : k ∈ recordKeys := by
  unfold ownKeys at h
  cases hstamp : r.timestamp with
  | none =>
    rw [hstamp] at h
    exact List.mem_cons_of_mem _ h
  | some t =>
    rw [hstamp] at h
    exact h

theorem nodup_ownKeys (r : Record) : (ownKeys r).Nodup := by
  unfold ownKeys
  split
  · decide
  · decide

/-- The names that were set are the keys. -/
theorem mem_keys_setAll {es ms : List (String × Json)} :
    k ∈ (Json.setAll es ms).map Prod.fst ↔ k ∈ es.map Prod.fst ∨ k ∈ ms.map Prod.fst := by
  induction es generalizing ms with
  | nil => exact (or_iff_right List.not_mem_nil).symm
  | cons e es ih =>
    show k ∈ (Json.setAll es (Json.putSorted e.1 e.2 ms)).map Prod.fst ↔ _
    rw [ih, Json.mem_keys_putSorted, List.map_cons, List.mem_cons, or_assoc]
    exact or_left_comm

theorem mem_keys_jsonMembers :
    k ∈ (jsonMembers style r).map Prod.fst ↔
      k ∈ ownKeys r ∨ k ∈ (undoubled r.fields).map outputKey := by
  have hfields : (fieldMembers r).map Prod.fst = r.fields.keys.map outputKey := by
    rw [keys_fieldMembers, Fields.keys, List.map_map]
    rfl
  have hown : k ∈ (Json.setAll (ownMembers style r) []).map Prod.fst ↔ k ∈ ownKeys r := by
    rw [mem_keys_setAll, keys_ownMembers]
    exact or_iff_left List.not_mem_nil
  rw [jsonMembers_eq, mem_keys_setAll, hown, hfields, mem_keys_undoubled, or_comm]

/-- The keys of the object, each of them once. -/
theorem keys_jsonMembers (style : Time.Style) (h : r.fields.keys.Nodup) :
    ((jsonMembers style r).map Prod.fst).Perm (ownKeys r ++ (undoubled r.fields).map outputKey) := by
  have hmoved : ((undoubled r.fields).map outputKey).Nodup := by
    have hnames : (undoubled r.fields).Nodup := h.filter _
    exact hnames.map_on fun a ha b hb => outputKey_inj ha hb
  have hall : (ownKeys r ++ (undoubled r.fields).map outputKey).Nodup := by
    refine List.nodup_append.2 ⟨nodup_ownKeys r, hmoved, fun k hk k' hk' heq => ?_⟩
    obtain ⟨name, -, rfl⟩ := List.mem_map.1 hk'
    exact outputKey_notMem name (heq ▸ ownKeys_subset hk)
  have hkeys : ((jsonMembers style r).map Prod.fst).Nodup := Json.nodup_setAll _
  rw [List.perm_ext_iff_of_nodup hkeys hall]
  intro k
  rw [mem_keys_jsonMembers, List.mem_append]

/-- A field whose key no other field has is there with its value. -/
theorem jsonMembers_alone (h : r.fields.keys.Nodup) {e : String × Value}
    (he : e ∈ r.fields.entries) (halone : ∀ b ∈ r.fields.keys, outputKey b = outputKey e.1 → b = e.1) :
    (jsonMembers style r).lookup (outputKey e.1) = some e.2.toJson := by
  obtain ⟨before, after, hsplit⟩ := List.append_of_mem he
  refine jsonMembers_field hsplit fun e' he' hkey => ?_
  have hmem' : e'.1 ∈ r.fields.keys := List.mem_map_of_mem (by simp [hsplit, he'])
  have hname : e'.1 = e.1 := halone e'.1 hmem' hkey
  -- the name would then come twice
  rw [Fields.keys, hsplit, List.map_append, List.map_cons] at h
  have hafter := (List.nodup_cons.1 (List.nodup_append.1 h).2.1).1
  exact hafter (List.mem_map.2 ⟨e', he', hname⟩)

/-- **An object has a member for every field that is not doubled.** Its keys are distinct: the
record's own and the keys of the undoubled fields. A member is missing for each doubled field, and
none for any other. A field that has nothing to do with a doubled name is written with its value
under a key that no other field and no part of the record has; where two fields share a key, the later
one is written. -/
theorem jsonLine_members (style : Time.Style) (r : Record) (hkeys : r.fields.keys.Nodup) :
    ∃ ms, (Format.json style).bytes r = ((Json.object ms).render ++ "\n").toUTF8 ∧
      (ms.map Prod.fst).Nodup ∧
      (ms.map Prod.fst).Perm (ownKeys r ++ (undoubled r.fields).map outputKey) ∧
      ms.length + (doubled r.fields).length = r.fields.size + 2 + r.timestamp.toList.length ∧
      (∀ e ∈ r.fields.entries, e.1 ∉ doubled r.fields →
        (∀ d ∈ doubled r.fields, e.1 ≠ "fields." ++ d) →
        ms.lookup (outputKey e.1) = some e.2.toJson ∧ outputKey e.1 ∉ recordKeys ∧
          ∀ k ∈ r.fields.keys, outputKey k = outputKey e.1 → k = e.1) ∧
      ∀ before e after, r.fields.entries = before ++ e :: after →
        (∀ e' ∈ after, outputKey e'.1 ≠ outputKey e.1) →
        ms.lookup (outputKey e.1) = some e.2.toJson := by
  have hperm := keys_jsonMembers style hkeys
  refine ⟨jsonMembers style r, rfl, Json.nodup_setAll _, hperm, ?_, ?_, ?_⟩
  · have hlength := hperm.length_eq
    rw [List.length_map, List.length_append, List.length_map] at hlength
    have hown : (ownKeys r).length = 2 + r.timestamp.toList.length := by
      unfold ownKeys
      cases r.timestamp <;> rfl
    have hsplit := length_undoubled r.fields
    omega
  · intro e he hname hmoved
    have hmem : e.1 ∈ r.fields.keys := List.mem_map_of_mem he
    have halone : ∀ k ∈ r.fields.keys, outputKey k = outputKey e.1 → k = e.1 :=
      fun k hk => outputKey_alone hmem hk hname hmoved
    exact ⟨jsonMembers_alone hkeys he halone, outputKey_notMem e.1, halone⟩
  · intro before e after hsplit hlater
    exact jsonMembers_field hsplit hlater

/-- The imitated level and its moved name share a member, and the other field has its own: of three
fields, two are left next to the record's three parts. -/
theorem jsonLine_members_imitating :
    imitating.fields.keys.Nodup ∧
      ∃ ms, (Format.json .unixMillis).bytes imitating = ((Json.object ms).render ++ "\n").toUTF8 ∧
        ms.length = 5 ∧ ms.lookup "ratio" = some .null ∧
        ms.lookup "fields.level" = some (.bool true) := by
  have hkeys : imitating.fields.keys.Nodup := by decide
  obtain ⟨ms, hbytes, -, -, hlength, halone, hlast⟩ :=
    jsonLine_members .unixMillis imitating hkeys
  have hdoubled : doubled imitating.fields = ["level"] := by decide
  have hsize : imitating.fields.size = 3 := rfl
  have hstamp : imitating.timestamp.toList.length = 1 := rfl
  rw [hdoubled] at hlength halone
  have hratio := halone ("ratio", .float ⟨0x7FF0000000000000⟩) (by simp [imitating]) (by decide)
    (by decide)
  have hlevel := hlast [_] ("fields.level", .bool true) [_] rfl (by decide)
  refine ⟨hkeys, ms, hbytes, ?_, hratio.1, hlevel⟩
  rw [List.length_singleton] at hlength
  omega

/-- A record with the field `level` and a field that has the moved name. -/
def doubling : Record where
  level := .info
  message := "m"
  fields := ⟨[("level", .string "a"), ("fields.level", .string "b")]⟩
  timestamp := none

/-- The first of the two fields is in no member: the object has three for two fields and the
record's two parts, and both fields have one key. -/
theorem jsonLine_drops_field :
    doubling.fields.keys.Nodup ∧ outputKey "level" = outputKey "fields.level" ∧
      ∃ ms, (Format.json .unixMillis).bytes doubling = ((Json.object ms).render ++ "\n").toUTF8 ∧
        ms = [("fields.level", .string "b"), ("level", .string "INFO"), ("message", .string "m")] ∧
        ms.length + 1 = doubling.fields.size + 2 + doubling.timestamp.toList.length := by
  have hkeys : doubling.fields.keys.Nodup := by decide
  have hmembers : jsonMembers .unixMillis doubling =
      [("fields.level", .string "b"), ("level", .string "INFO"), ("message", .string "m")] := rfl
  exact ⟨hkeys, rfl, jsonMembers .unixMillis doubling, rfl, hmembers, rfl⟩

end Logging.Line
