import Logging.Proofs.Line.Bytes
import Logging.Proofs.Line.Logfmt

/-!
# What breaks a line

A message is written on one line whatever it holds. Fields are written as they are.

* `Record.built`: a record as it is made and added to.
* `Value.Flat`: a value whose text holds no line feed.
* `newline_textBody`, `newline_logfmtBody`: whence a line may have line feeds of its own.
* `line_breaks`: **a line ends with a line feed, and holds no other just when its fields hold
  none**: in lines to read their names and values, in lines of pairs their values.
-/

namespace Logging

/-! ## Records -/

namespace Record

/-- Something that is added to a record. -/
inductive Step where
  | field (key : String) (value : Value)
  | fields (fs : Fields)
  | timestamp (t : Time.Instant)

/-- A record with one thing added. -/
def step (r : Record) : Step → Record
  | .field key value => r.withField key value
  | .fields fs => r.withFields fs
  | .timestamp t => r.withTimestamp t

/-- A record as it is made and added to. -/
def built (level : Level) (message : String) (steps : List Step) : Record :=
  steps.foldl step (new level message)

/-- Nothing that is added changes the message. -/
theorem foldl_message : ∀ (steps : List Step) (r : Record),
    (steps.foldl step r).message = r.message := by
  intro steps
  induction steps with
  | nil => intro r; rfl
  | cons s steps ih =>
    intro r
    rw [List.foldl_cons, ih]
    cases s <;> rfl

theorem newline_flatChar (c : Char) : '\n' ∉ flatChar c := by
  unfold flatChar
  split
  · decide
  · decide
  · decide
  · rename_i hn _ _
    intro hc
    exact hn (List.mem_singleton.1 hc).symm

theorem newline_built (level : Level) (message : String) (steps : List Step) :
    '\n' ∉ (built level message steps).message.toList := by
  unfold built
  rw [foldl_message]
  show '\n' ∉ (flatten message).toList
  rw [flatten, String.toList_ofList, List.mem_flatMap]
  rintro ⟨c, -, hc⟩
  exact newline_flatChar c hc

end Record

/-- A value whose text holds no line feed. -/
def Value.Flat (v : Value) : Prop := ∀ s, v = .string s → '\n' ∉ s.toList

theorem Value.newline_text {v : Value} : '\n' ∉ v.text.toList ↔ v.Flat := by
  by_cases h : ∃ s, v = .string s
  · obtain ⟨s, rfl⟩ := h
    exact ⟨fun hs u hu => by cases hu; exact hs, fun hv => hv s rfl⟩
  · have hv : ∀ s, v ≠ .string s := fun s hs => h ⟨s, hs⟩
    exact ⟨fun _ s hs => absurd hs (hv s), fun _ => (solid_text hv).newline_notMem⟩

namespace Line

/-! ## Texts that are joined -/

theorem newline_append {s t : String} :
    '\n' ∉ (s ++ t).toList ↔ '\n' ∉ s.toList ∧ '\n' ∉ t.toList := by
  rw [String.toList_append, List.mem_append, not_or]

theorem newline_intercalate (l : List String) :
    '\n' ∉ (" ".intercalate l).toList ↔ ∀ s ∈ l, '\n' ∉ s.toList := by
  induction l with
  | nil => simp
  | cons s l ih =>
    cases l with
    | nil => simp
    | cons t l =>
      have hblank : '\n' ∉ " ".toList := by decide
      rw [String.intercalate_cons_of_ne_nil (by simp), newline_append, newline_append, ih]
      simp only [hblank, not_false_eq_true, and_true]
      rw [List.forall_mem_cons (l := t :: l)]

/-! ## Lines to read -/

/-- The line without its line feed. -/
def textBody (style : Time.Style) (colours : Bool) (r : Record) : String :=
  (match r.timestamp with
    | some t => style.render t ++ " "
    | none => "") ++ "[" ++ levelLabel colours r.level ++ "] " ++ r.message ++
    if r.fields.isEmpty then "" else " " ++ r.fields.text

theorem newline_fieldsText (f : Fields) : '\n' ∉ f.text.toList ↔
    ∀ e ∈ f.entries, '\n' ∉ e.1.toList ∧ e.2.Flat := by
  have hequals : '\n' ∉ "=".toList := by decide
  unfold Fields.text
  rw [newline_intercalate, List.forall_mem_map]
  simp only [newline_append, Value.newline_text, hequals, not_false_eq_true, and_true]

/-- **Lines to read** may have line feeds of the names and the values of fields only. -/
theorem newline_textBody {style : Time.Style} (hs : ∀ p, style ≠ .custom p) (colours : Bool)
    {r : Record} (hm : '\n' ∉ r.message.toList) : '\n' ∉ (textBody style colours r).toList ↔
      ∀ e ∈ r.fields.entries, '\n' ∉ e.1.toList ∧ e.2.Flat := by
  have hblank : '\n' ∉ " ".toList := by decide
  have hopen : '\n' ∉ "[".toList := by decide
  have hclose : '\n' ∉ "] ".toList := by decide
  have hlevel : '\n' ∉ (levelLabel colours r.level).toList := by
    cases colours <;> cases r.level <;> decide
  have htimestamp : '\n' ∉ (match r.timestamp with
      | some t => style.render t ++ " "
      | none => "").toList := by
    cases r.timestamp with
    | none => exact List.not_mem_nil
    | some t => exact newline_append.2 ⟨(Time.Style.solid_render hs t).newline_notMem, hblank⟩
  have hfields : '\n' ∉ (if r.fields.isEmpty then "" else " " ++ r.fields.text).toList ↔
      ∀ e ∈ r.fields.entries, '\n' ∉ e.1.toList ∧ e.2.Flat := by
    split
    · rename_i h
      have hnil : r.fields.entries = [] := List.isEmpty_iff.1 h
      simp [hnil]
    · rw [newline_append, newline_fieldsText]
      simp only [hblank, not_false_eq_true, true_and]
  unfold textBody
  simp only [newline_append, htimestamp, hopen, hlevel, hclose, hm, hfields, not_false_eq_true,
    true_and]

/-! ## Lines of pairs -/

theorem newline_quote (s : String) : '\n' ∉ (quote s).toList ↔ '\n' ∉ s.toList := by
  have hchar : ∀ c, '\n' ∈ quoteChar c ↔ c = '\n' := by
    intro c
    unfold quoteChar
    split
    · decide
    · decide
    · rw [List.mem_singleton]
      exact eq_comm
  rw [quote, String.toList_ofList]
  simp [hchar]

theorem newline_bareOrQuoted (s : String) :
    '\n' ∉ (bareOrQuoted s).toList ↔ '\n' ∉ s.toList := by
  unfold bareOrQuoted
  split
  · exact newline_quote s
  · rfl

theorem newline_pairValue (v : Value) : '\n' ∉ (pairValue v).toList ↔ v.Flat := by
  rw [← Value.newline_text]
  cases v with
  | string s => exact newline_bareOrQuoted s
  | _ => rfl

theorem newline_plainKey (key : String) : '\n' ∉ (plainKey key).toList := by
  rw [plainKey, String.toList_ofList, List.mem_filter]
  rintro ⟨-, h⟩
  exact absurd h (by decide)

/-- **Lines of pairs** may have line feeds of the values of fields only. -/
theorem newline_logfmtBody {style : Time.Style} (hs : ∀ p, style ≠ .custom p) {r : Record}
    (hm : '\n' ∉ r.message.toList) : '\n' ∉ (logfmtBody style r).toList ↔
      ∀ e ∈ r.fields.entries, e.2.Flat := by
  have hequals : '\n' ∉ "=".toList := by decide
  have hlevel : '\n' ∉ r.level.name.toList := by cases r.level <;> decide
  have htimestamp : ∀ t, '\n' ∉ (bareOrQuoted (style.render t)).toList := fun t =>
    (newline_bareOrQuoted _).2 (Time.Style.solid_render hs t).newline_notMem
  -- the record's own parts
  have hpair : ∀ key ∈ recordKeys, ∀ value : String, '\n' ∉ value.toList →
      '\n' ∉ (key ++ "=" ++ value).toList := by
    intro key hkey value hvalue
    have hkeys : ∀ key ∈ recordKeys, '\n' ∉ key.toList := by decide
    exact newline_append.2 ⟨newline_append.2 ⟨hkeys key hkey, hequals⟩, hvalue⟩
  have hown : ∀ p ∈ [("level", r.level.name), ("message", quote r.message)],
      '\n' ∉ (p.1 ++ "=" ++ p.2).toList := by
    rw [List.forall_mem_cons, List.forall_mem_singleton]
    exact ⟨hpair "level" (by decide) _ hlevel,
      hpair "message" (by decide) _ ((newline_quote _).2 hm)⟩
  have hfields : (∀ p ∈ r.fields.entries.map fun e => (plainKey (outputKey e.1), pairValue e.2),
      '\n' ∉ (p.1 ++ "=" ++ p.2).toList) ↔ ∀ e ∈ r.fields.entries, e.2.Flat := by
    rw [List.forall_mem_map]
    simp only [newline_append, newline_plainKey, newline_pairValue, hequals, not_false_eq_true,
      true_and]
  unfold logfmtBody
  rw [newline_intercalate, List.forall_mem_map]
  unfold pairs
  rw [List.forall_mem_append, hfields]
  refine and_iff_right ?_
  cases r.timestamp with
  | none => exact hown
  | some t =>
    rw [List.singleton_append, List.forall_mem_cons]
    exact ⟨hpair "timestamp" (by decide) _ (htimestamp t), hown⟩

/-! ## Lines -/

/-- The last byte is that of the line feed, and it is the only one just when this holds. -/
structure OneLineIff (b : ByteArray) (P : Prop) : Prop where
  last : b.data.back? = some newlineByte
  only : b.data.count newlineByte = 1 ↔ P

theorem oneLineIff_newline (body : String) :
    OneLineIff (body ++ "\n").toUTF8 ('\n' ∉ body.toList) := by
  rw [bytes_newline]
  refine ⟨by simp, ?_⟩
  rw [ByteArray.data_push, Array.count_push_self, Nat.add_eq_right, Array.count_eq_zero,
    newline_mem_bytes]

theorem OneLineIff.congr {b : ByteArray} {P Q : Prop} (h : OneLineIff b P) (hpq : P ↔ Q) :
    OneLineIff b Q :=
  ⟨h.last, h.only.trans hpq⟩

/-- **What breaks a line.** Whatever the message holds and whatever is added to the record, in every
style of timestamps but those with patterns, the bytes of its line end with the byte of the line
feed. In a line to read no other byte is one just when no name and no text among the fields holds a
line feed, and in a line of pairs just when no text does. -/
theorem line_breaks {style : Time.Style} (hs : ∀ p, style ≠ .custom p) (colours : Bool)
    (level : Level) (message : String) (steps : List Record.Step) :
    let r := Record.built level message steps
    OneLineIff ((Format.text style colours).bytes r)
        (∀ e ∈ r.fields.entries, '\n' ∉ e.1.toList ∧ e.2.Flat) ∧
      OneLineIff ((Format.logfmt style).bytes r) (∀ e ∈ r.fields.entries, e.2.Flat) := by
  intro r
  have hm : '\n' ∉ r.message.toList := Record.newline_built level message steps
  exact ⟨(oneLineIff_newline (textBody style colours r)).congr (newline_textBody hs colours hm),
    (oneLineIff_newline (logfmtBody style r)).congr (newline_logfmtBody hs hm)⟩

/-- A message with line feeds, a timestamp and a name with a line feed: the line of pairs is one
line, and the line to read is not. -/
theorem line_breaks_name :
    (∀ p, Time.Style.iso8601 ≠ .custom p) ∧
    let r := Record.built .info "a\nb\n" [.timestamp ⟨0, 0⟩, .field "k\n" (.string "c d")]
    ((Format.text .iso8601 false).bytes r).data.count newlineByte ≠ 1 ∧
      ((Format.logfmt .iso8601).bytes r).data.count newlineByte = 1 := by
  have hs : ∀ p, Time.Style.iso8601 ≠ .custom p := fun p => by simp
  refine ⟨hs, ?_⟩
  intro r
  have hentries : r.fields.entries = [("k\n", .string "c d")] := rfl
  obtain ⟨htext, hlogfmt⟩ := line_breaks hs false .info "a\nb\n"
    [.timestamp ⟨0, 0⟩, .field "k\n" (.string "c d")]
  refine ⟨fun hone => ?_, hlogfmt.only.2 fun e he => ?_⟩
  · have hname := (htext.only.1 hone _ (hentries ▸ List.mem_cons_self)).1
    exact hname (by decide)
  · obtain rfl : e = _ := List.mem_singleton.1 (hentries ▸ he)
    intro s h
    cases h
    decide

/-- A value with a line feed makes two lines of one record. -/
theorem field_breaks_line :
    let r := Record.built .info "m" [.field "k" (.string "a\nb")]
    textLine .iso8601 false r = "[INFO ] m k=a\nb\n" ∧
      logfmtLine .iso8601 r = "level=INFO message=\"m\" k=a\nb\n" ∧
      ((Format.text .iso8601 false).bytes r).data.count newlineByte = 2 ∧
      ((Format.logfmt .iso8601).bytes r).data.count newlineByte = 2 := by
  refine ⟨by decide, by decide, by decide, by decide⟩

end Line

end Logging
