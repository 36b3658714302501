import Logging.Proofs.Json.Members
import Logging.Proofs.Json.Reading
import Logging.Proofs.Line.Bytes

/-!
# What lines of JSON say

* `Readable.printable`: compact text holds no controls, so that a line is broken at its end only.
* `jsonMembers_timestamp`, `jsonMembers_level`, `jsonMembers_message`: the record's own parts, which
  no field replaces.
* `jsonLine_decodes`: **a line is one line, and it is read as an object that says what the record
  says.**
-/

namespace Logging

namespace Json

/-! ## Controls -/

/-- A text without controls. -/
def Printable (cs : List Char) : Prop := ∀ c ∈ cs, 0x20 ≤ c.toNat

instance (cs : List Char) : Decidable (Printable cs) :=
  List.decidableBAll (fun c : Char => 0x20 ≤ c.toNat) cs

theorem Printable.append {cs cs' : List Char} (h : Printable cs) (h' : Printable cs') :
    Printable (cs ++ cs') :=
  List.forall_mem_append.2 ⟨h, h'⟩

theorem printable_hexDigit {d : ℕ} (h : d < 16) : 0x20 ≤ (hexDigit d).toNat := by
  have hall : ∀ d < 16, 0x20 ≤ (hexDigit d).toNat := by decide
  exact hall d h

theorem printable_escapeChar (c : Char) : Printable (escapeChar c) := by
  unfold escapeChar
  split
  case h_8 =>
    split
    · rename_i hlow
      intro e he
      simp only [List.mem_cons, List.not_mem_nil, or_false] at he
      rcases he with rfl | rfl | rfl | rfl | rfl | rfl
      · decide
      · decide
      · decide
      · decide
      · exact printable_hexDigit (by omega)
      · exact printable_hexDigit (by omega)
    · rename_i hlow
      intro e he
      rw [List.mem_singleton.1 he]
      omega
  all_goals decide

theorem printable_string (s : String) : Printable (renderString s) := by
  intro c hc
  simp only [renderString, List.cons_append, List.mem_cons, List.mem_append, List.mem_flatMap,
    List.not_mem_nil, or_false] at hc
  rcases hc with rfl | ⟨e, -, hc⟩ | rfl
  · decide
  · exact printable_escapeChar e c hc
  · decide

theorem printable_int (n : ℤ) : Printable (int n).chars := by
  have hdigits : Printable (Nat.toDigits 10 n.natAbs) := by
    intro c hc
    have hd := isDigit_bounds (Nat.isDigit_of_mem_toDigits (by omega) (by omega) hc)
    have : '0'.toNat ≤ c.toNat := hd.1
    have hzero : '0'.toNat = 48 := rfl
    omega
  show Printable (toString n).toList
  rw [toList_toString]
  split
  · exact List.forall_mem_cons.2 ⟨by decide, hdigits⟩
  · exact hdigits

theorem printable_items {items : List Json} (h : ∀ v ∈ items, Printable v.chars) :
    Printable (charsItems items) := by
  induction items with
  | nil => exact fun c hc => absurd hc List.not_mem_nil
  | cons v rest ih =>
    have hv := h v List.mem_cons_self
    rcases rest with _ | ⟨v', rest⟩
    · exact hv
    · exact hv.append (List.forall_mem_cons.2
        ⟨by decide, ih fun w hw => h w (List.mem_cons_of_mem _ hw)⟩)

theorem printable_members {members : List (String × Json)}
    (h : ∀ e ∈ members, Printable e.2.chars) : Printable (charsMembers members) := by
  induction members with
  | nil => exact fun c hc => absurd hc List.not_mem_nil
  | cons e rest ih =>
    obtain ⟨k, v⟩ := e
    have hv : Printable (renderString k ++ ':' :: v.chars) :=
      (printable_string k).append
        (List.forall_mem_cons.2 ⟨by decide, h (k, v) List.mem_cons_self⟩)
    rcases rest with _ | ⟨e', rest⟩
    · exact hv
    · exact hv.append (List.forall_mem_cons.2
        ⟨by decide, ih fun w hw => h w (List.mem_cons_of_mem _ hw)⟩)

theorem Printable.enclosed {first last : Char} {cs : List Char} (hfirst : 0x20 ≤ first.toNat)
    (hlast : 0x20 ≤ last.toNat) (h : Printable cs) : Printable (first :: cs ++ [last]) :=
  Printable.append (List.forall_mem_cons.2 ⟨hfirst, h⟩) (List.forall_mem_singleton.2 hlast)

/-- Compact text holds no controls. -/
theorem Readable.printable {depth : ℕ} {v : Json} (h : v.Readable depth) : Printable v.chars := by
  induction h with
  | null depth =>
    show Printable "null".toList
    decide
  | bool depth b =>
    cases b
    · show Printable "false".toList
      decide
    · show Printable "true".toList
      decide
  | int depth _ _ => exact printable_int _
  | string depth s => exact printable_string s
  | array _ ih => exact (printable_items ih).enclosed (by decide) (by decide)
  | object _ ih => exact (printable_members ih).enclosed (by decide) (by decide)

theorem newline_notMem_render {depth : ℕ} {v : Json} (h : v.Readable depth) :
    '\n' ∉ v.render.toList := by
  intro hc
  rw [render, String.toList_ofList] at hc
  exact absurd (h.printable _ hc) (by decide)

end Json

namespace Line

variable {style : Time.Style} {r : Record}

/-- No field is written under a key of the record. -/
theorem outputKey_notMem (key : String) : outputKey key ∉ recordKeys := by
  have hqualified : ∀ k ∈ recordKeys, "fields." ++ k ∉ recordKeys := by decide
  unfold outputKey
  split
  · rename_i h
    exact hqualified key h
  · assumption

/-- The fields as members, in order. -/
def fieldMembers (r : Record) : List (String × Json) :=
  r.fields.entries.map fun e => (outputKey e.1, e.2.toJson)

theorem keys_fieldMembers (r : Record) :
    (fieldMembers r).map Prod.fst = r.fields.entries.map fun e => outputKey e.1 := by
  rw [fieldMembers, List.map_map]
  rfl

theorem jsonMembers_eq (style : Time.Style) (r : Record) :
    jsonMembers style r = Json.setAll (fieldMembers r) (Json.setAll (ownMembers style r) []) :=
  Json.setAll_append _ _ _

/-- The fields leave the record's own parts as they are. -/
theorem lookup_jsonMembers {k : String} (hk : k ∈ recordKeys) :
    (jsonMembers style r).lookup k = (Json.setAll (ownMembers style r) []).lookup k := by
  rw [jsonMembers_eq]
  refine Json.lookup_setAll_of_notMem ?_ _
  rw [keys_fieldMembers, List.mem_map]
  rintro ⟨e, -, rfl⟩
  exact outputKey_notMem e.1 hk

theorem jsonMembers_level : (jsonMembers style r).lookup "level" = some (.string r.level.name) := by
  rw [lookup_jsonMembers (by simp [recordKeys])]
  unfold ownMembers
  cases r.timestamp <;> simp [Json.setAll, Json.lookup_putSorted]

theorem jsonMembers_message : (jsonMembers style r).lookup "message" = some (.string r.message) := by
  rw [lookup_jsonMembers (by simp [recordKeys])]
  unfold ownMembers
  cases r.timestamp <;> simp [Json.setAll, Json.lookup_putSorted]

theorem jsonMembers_timestamp :
    (jsonMembers style r).lookup "timestamp" = r.timestamp.map (timestampJson style) := by
  rw [lookup_jsonMembers (by simp [recordKeys])]
  unfold ownMembers
  cases r.timestamp <;> simp [Json.setAll, Json.lookup_putSorted]

/-- A field stands under its key unless a later one is written under the same. -/
theorem jsonMembers_field {before after : List (String × Value)} {name : String} {v : Value}
    (hfields : r.fields.entries = before ++ (name, v) :: after)
    (hlater : ∀ e ∈ after, outputKey e.1 ≠ outputKey name) :
    (jsonMembers style r).lookup (outputKey name) = some v.toJson := by
  rw [jsonMembers_eq, fieldMembers, hfields, List.map_append, List.map_cons]
  refine Json.lookup_setAll ?_ _
  rw [List.map_map, List.mem_map]
  rintro ⟨e, he, hkey⟩
  exact hlater e he hkey

/-! ## Lines -/

/-- A value in JSON. A number that is not finite is shown as null. -/
def StandsFor (j : Json) : Value → Prop
  | .string s => j = .string s
  | .int n => j = .int n.toInt
  | .float d => d.isFinite = false ∧ j = .null
  | .bool b => j = .bool b
  | .null => j = .null

/-- Whether the fields hold no finite floats. -/
def NoFinite (r : Record) : Prop :=
  ∀ e ∈ r.fields.entries, ∀ d, e.2 = .float d → d.isFinite = false

/-- The milliseconds of the timestamp fit into 64 bits with sign. -/
def InRange (r : Record) : Prop :=
  ∀ t, r.timestamp = some t →
    Int64.minValue.toInt ≤ t.unixMillis ∧ t.unixMillis ≤ Int64.maxValue.toInt

/-- The members of an object say what a record says. -/
structure Says (style : Time.Style) (r : Record) (ms : List (String × Json)) : Prop where
  distinct : (ms.map Prod.fst).Nodup
  level : ms.lookup "level" = some (.string r.level.name)
  message : ms.lookup "message" = some (.string r.message)
  timestamp : ms.lookup "timestamp" = r.timestamp.map fun t =>
    if style = .unixMillis then .int t.unixMillis else .string (style.render t)
  fields : ∀ before name v after, r.fields.entries = before ++ (name, v) :: after →
    (∀ e ∈ after, outputKey e.1 ≠ outputKey name) →
    ∃ j, ms.lookup (outputKey name) = some j ∧ StandsFor j v

theorem standsFor_toJson {v : Value} (h : ∀ d, v = .float d → d.isFinite = false) :
    StandsFor v.toJson v := by
  cases v with
  | float d =>
    have hd := h d rfl
    exact ⟨hd, by simp [Value.toJson, hd]⟩
  | _ => rfl

theorem jsonMembers_says (hfields : NoFinite r) : Says style r (jsonMembers style r) where
  distinct := Json.nodup_setAll _
  level := jsonMembers_level
  message := jsonMembers_message
  timestamp := by
    rw [jsonMembers_timestamp]
    cases r.timestamp with
    | none => rfl
    | some t => cases style <;> simp [timestampJson, Time.Style.isNumeric]
  fields := by
    intro before name v after hentries hlater
    refine ⟨_, jsonMembers_field hentries hlater, standsFor_toJson fun d hd => ?_⟩
    exact hfields (name, v) (by simp [hentries]) d hd

theorem readable_toJson {v : Value} (h : ∀ d, v = .float d → d.isFinite = false) (depth : ℕ) :
    v.toJson.Readable depth := by
  cases v with
  | string s => exact .string depth s
  | int n =>
    have hlow := n.le_toInt
    have hhigh := n.toInt_lt
    exact .int depth (by omega) (by omega)
  | float d =>
    rw [Value.toJson, h d rfl]
    exact .null depth
  | bool b => exact .bool depth b
  | null => exact .null depth

theorem readable_own (hrange : InRange r) (depth : ℕ) :
    ∀ e ∈ ownMembers style r, e.2.Readable depth := by
  intro e he
  rcases List.mem_append.1 he with he | he
  · cases ht : r.timestamp with
    | none =>
      rw [ht] at he
      cases he
    | some t =>
      rw [ht] at he
      rw [List.mem_singleton.1 he]
      obtain ⟨hlow, hhigh⟩ := hrange t ht
      have hmin : Int64.minValue.toInt = -2 ^ 63 := by decide
      have hmax : Int64.maxValue.toInt = 2 ^ 63 - 1 := by decide
      show (timestampJson style t).Readable depth
      unfold timestampJson
      split
      · exact .int depth (by omega) (by omega)
      · exact .string depth _
  · simp only [List.mem_cons, List.not_mem_nil, or_false] at he
    rcases he with rfl | rfl
    · exact .string depth _
    · exact .string depth _

theorem readable_jsonMembers (hfields : NoFinite r) (hrange : InRange r) (depth : ℕ) :
    (Json.object (jsonMembers style r)).Readable (depth + 1) := by
  refine .object fun e he => ?_
  rcases Json.mem_setAll he with he | he
  · rcases List.mem_append.1 he with he | he
    · exact readable_own hrange depth e he
    · obtain ⟨e, hmem, rfl⟩ := List.mem_map.1 he
      exact readable_toJson (hfields e hmem) depth
  · cases he

/-- **Lines of JSON decode to their records.** The bytes of a record end with their only newline, and
what stands in front of it is read as one object with distinct names. In it the level, the message
and the timestamp, if there is one, are the record's own, and every field that is not written over by
a later one is there with its own value. -/
theorem jsonLine_decodes (style : Time.Style) (r : Record) (hfields : NoFinite r)
    (hrange : InRange r) :
    ∃ body ms, (Format.json style).bytes r = body.toUTF8.push newlineByte ∧
      newlineByte ∉ body.toUTF8.data ∧ Json.read? body = some (.object ms) ∧ Says style r ms := by
  have hreadable : (Json.object (jsonMembers style r)).Readable Json.nestingLimit :=
    readable_jsonMembers hfields hrange 126
  refine ⟨(Json.object (jsonMembers style r)).render, jsonMembers style r, bytes_newline _, ?_,
    Json.read?_render hreadable, jsonMembers_says hfields⟩
  rw [newline_mem_bytes]
  exact Json.newline_notMem_render hreadable

/-- Two fields whose keys imitate the record's, one of them twice, in a record whose message holds a
line feed and a quote. -/
def imitating : Record where
  level := .info
  message := "a\n\"b\""
  fields := ⟨[("level", .string "FATAL"), ("fields.level", .bool true), ("ratio", .float ⟨0x7FF0000000000000⟩)]⟩
  timestamp := some ⟨-1, 500000000⟩

/-- What a record says is read although its fields imitate its own parts. -/
theorem jsonLine_decodes_imitating :
    ∃ body ms, (Format.json .unixMillis).bytes imitating = body.toUTF8.push newlineByte ∧
      Json.read? body = some (.object ms) ∧ ms.lookup "level" = some (.string "INFO") ∧
      ms.lookup "message" = some (.string "a\n\"b\"") ∧
      ms.lookup "timestamp" = some (.int (-500)) ∧
      ms.lookup "fields.level" = some (.bool true) ∧ ms.lookup "ratio" = some .null := by
  have hfields : NoFinite imitating := by
    intro e he d hd
    simp only [imitating, List.mem_cons, List.not_mem_nil, or_false] at he
    rcases he with rfl | rfl | rfl
    · cases hd
    · cases hd
    · cases hd
      decide
  have hrange : InRange imitating := by
    intro t ht
    cases ht
    decide
  obtain ⟨body, ms, hbytes, -, hread, hsays⟩ :=
    jsonLine_decodes .unixMillis imitating hfields hrange
  obtain ⟨j, hj, hstands⟩ := hsays.fields [_] "fields.level" (.bool true) [_] rfl (by decide)
  obtain ⟨j', hj', hstands'⟩ := hsays.fields [_, _] "ratio" _ [] rfl (by decide)
  refine ⟨body, ms, hbytes, hread, hsays.level, hsays.message, hsays.timestamp, ?_, ?_⟩
  · rw [← hstands]
    exact hj
  · rw [← hstands'.2]
    exact hj'

end Line

end Logging
